import TypstLint.Proofs.Markup.Equation

set_option autoImplicit false

/-! # Brackets in a block of text

A block of text ends at the first closing bracket: an opening one in the text is a character like any
other one. So the text of a block that has brackets of its own goes on behind the block, as code or as text
of the file, and what is bound there counts as bound at the top level (`scan_nested`). -/

namespace TypstLint.Markup

variable {past rest text : List Char} {c : Char} {frames : List Frame} {depth opener : Nat}
  {statement : Bool}

/-- A letter, a digit or a blank. -/
def IsPlain (c : Char) : Prop := Text.isAlphanumeric c = true ∨ isInlineBlank c = true

instance : DecidablePred IsPlain := fun _ => inferInstanceAs (Decidable (_ ∨ _))

/-- A text of letters, digits and blanks. -/
def IsPlainText (text : List Char) : Prop := ∀ c ∈ text, IsPlain c

instance (text : List Char) : Decidable (IsPlainText text) :=
  List.decidableBAll _ text

/-- A text of letters, digits and blanks with square brackets in pairs, so many within each other. -/
inductive IsNested : Nat → List Char → Prop
  | plain {text : List Char} (htext : IsPlainText text) : IsNested 0 text
  | pair {before inner after : List Char} {m n : Nat} (hbefore : IsPlainText before) (hinner : IsNested m inner)
      (hafter : IsNested n after) :
      IsNested (max (m + 1) n) (before ++ '[' :: (inner ++ ']' :: after))

/-! ## Characters -/

theorem IsPlain.ne {d : Char} (h : IsPlain c) (hd : ¬ IsPlain d) : (c == d) = false :=
  beq_false_of_ne fun heq => hd (heq ▸ h)

theorem IsPlainText.isEquationText (h : IsPlainText text) : IsEquationText text := by
  have hspecial : ("$\x22#\\\x60/\n".toList.all fun d => decide (¬ IsPlain d)) = true := by decide
  exact fun c hc hmem => of_decide_eq_true (List.all_eq_true.mp hspecial c hmem) (h c hc)

theorem IsNested.isEquationText (h : IsNested depth text) : IsEquationText text := by
  induction h with
  | plain htext => exact htext.isEquationText
  | pair hbefore _ _ ihinner ihafter =>
    exact hbefore.isEquationText.append ((ihinner.append (ihafter.cons (by decide))).cons
      (by decide))

/-! ## Steps -/

/-- In a block of text plain characters are passed over, and opening brackets as well. -/
theorem runs_block_text (h : IsEquationText text) (hclose : ']' ∉ text) (opener : Nat)
    (outer : List Frame) (past rest : List Char) :
    Runs ⟨.between past (text ++ rest), .content opener :: outer⟩ []
      ⟨.between (text.reverse ++ past) rest, .content opener :: outer⟩ := by
  induction text generalizing past with
  | nil => exact .refl _
  | cons c text ih =>
    have hc : (c == ']' && true) = false := by
      rw [Bool.and_true]
      exact beq_false_of_ne fun heq => hclose (heq ▸ List.mem_cons_self)
    have hstep : State.step c ⟨.between past (c :: (text ++ rest)), .content opener :: outer⟩
        = plain ⟨.between (c :: past) (text ++ rest), .content opener :: outer⟩ :=
      textStep_equationChar h hc
    rw [List.reverse_cons, List.append_assoc]
    exact (Runs.one (s := ⟨.between past (c :: (text ++ rest)), _⟩) rfl hstep).thenFind
      (ih h.tail (fun hmem => hclose (List.mem_cons_of_mem c hmem)) (c :: past))

/-- A plain character that starts no word: a statement goes on, and an expression ends. -/
theorem codeStep_plain (hc : IsPlain c) (hident : isIdentStart c = false) (opener : Nat)
    (statement : Bool) (past rest : List Char) :
    State.step c ⟨.between past (c :: rest), [.embed opener statement true []]⟩
      = plain (if statement then ⟨.between (c :: past) rest, [.embed opener statement true []]⟩
        else ⟨.between past (c :: rest), []⟩) := by
  have htext : IsPlainText [c] := List.forall_mem_singleton.mpr hc
  have hregion : RegionKind.at? (c :: rest) = none := htext.isEquationText.regionKind_eq rest
  have hne : ∀ d, ¬ IsPlain d → (c == d) = false := fun d => hc.ne
  rw [step_eq_codeStep rfl]
  simp only [codeStep, Cursor.rest_between, hregion, hident, expressionStep, Frame.parens, Frame.isEmbedded,
    Frame.isStatement, List.isEmpty_nil, hne '(' (by decide), hne '[' (by decide), hne '\x7b' (by decide),
    hne ')' (by decide), hne '\x7d' (by decide), hne ']' (by decide), hne '\n' (by decide),
    hne ';' (by decide), hne '.' (by decide), Bool.and_false, Bool.and_true, Bool.true_and, Bool.false_and,
    Bool.or_self, Bool.false_eq_true, if_false]
  cases statement with
  | false => rfl
  | true => rfl

/-! ## Where a scan stands -/

/-- Where a scan stands behind a text with so many brackets within each other that began in the code of a
line, or ended a block in it: still in this code, or in the text of the file. A statement ends only at the
second closing bracket. -/
inductive StandsBehind (opener : Nat) (statement : Bool) (depth : Nat) : List Frame → Prop
  | code (h : statement = true → depth ≤ 1) :
      StandsBehind opener statement depth [.embed opener statement true []]
  | text (h : statement = true → 1 < depth) : StandsBehind opener statement depth []

/-- Where a scan stands behind a text that began in a block. -/
inductive StandsAfter (block opener : Nat) (statement : Bool) : Nat → List Frame → Prop
  | inside : StandsAfter block opener statement 0 [.content block, .embed opener statement true []]
  | behind {depth : Nat} {frames : List Frame} (hdepth : 0 < depth)
      (h : StandsBehind opener statement depth frames) : StandsAfter block opener statement depth frames

/-- A plain text in code that is no longer at its start. -/
theorem exists_runs_plain (statement : Bool) (htext : IsPlainText text)
    (hrest : ∀ c ∈ rest.head?, isIdentContinue c = false) (hpast : opener + 1 < past.length) :
    ∃ frames, Runs ⟨.between past (text ++ rest), [.embed opener statement true []]⟩ []
        ⟨.between (text.reverse ++ past) rest, frames⟩
      ∧ StandsBehind opener statement 0 frames := by
  induction hlength : text.length using Nat.strongRecOn generalizing text past with
  | ind length ih =>
  subst hlength
  cases text with
  | nil => exact ⟨_, .refl _, .code fun _ => Nat.zero_le 1⟩
  | cons c text =>
    cases hident : isIdentStart c with
    | true =>
      -- a word is read in one step
      obtain ⟨more, hsplit, hlt, hmore⟩ := exists_behind_identOf hident text
      have hword := isIdent_identOf hident text
      generalize identOf (c :: text) = word at hsplit hword
      have hhead : ∀ d ∈ (more ++ rest).head?, isIdentContinue d = false := by
        cases more with
        | nil => exact hrest
        | cons => exact hmore
      have hpast' : opener + 1 < (word.reverse ++ past).length := by
        rw [List.length_append]
        omega
      obtain ⟨frames, hruns, hstands⟩ := ih more.length hlt
        (fun d hd => htext d (hsplit ▸ List.mem_append_right word hd)) hpast' rfl
      refine ⟨frames, ?_, hstands⟩
      rw [hsplit, List.append_assoc, List.reverse_append, List.append_assoc]
      exact (runs_word_behind hword hhead hpast []).thenFind hruns
    | false =>
      have hstep := codeStep_plain (htext c List.mem_cons_self) hident opener statement past (text ++ rest)
      cases statement with
      | false =>
        refine ⟨[], (Runs.one (s := ⟨.between past (c :: (text ++ rest)), _⟩) rfl hstep).thenFind ?_,
          .text fun h => by cases h⟩
        exact runs_equationText htext.isEquationText (.inl rfl)
      | true =>
        have hpast' : opener + 1 < (c :: past).length := Nat.lt_succ_of_lt hpast
        obtain ⟨frames, hruns, hstands⟩ := ih text.length (Nat.lt_succ_self _)
          (fun d hd => htext d (List.mem_cons_of_mem c hd)) hpast' rfl
        refine ⟨frames, ?_, hstands⟩
        rw [List.reverse_cons, List.append_assoc]
        exact (Runs.one (s := ⟨.between past (c :: (text ++ rest)), _⟩) rfl hstep).thenFind hruns

/-- A closing bracket in the code ends it. -/
theorem StandsBehind.runs_close (h : StandsBehind opener statement depth frames) (past rest : List Char) :
    Runs ⟨.between past (']' :: rest), frames⟩ [] ⟨.between (']' :: past) rest, []⟩ := by
  have htext : Runs ⟨.between past (']' :: rest), []⟩ [] ⟨.between (']' :: past) rest, []⟩ := .one rfl rfl
  cases h with
  | code => exact (Runs.one (t := ⟨.between past (']' :: rest), []⟩) rfl rfl).thenFind htext
  | text => exact htext

/-! ## Texts with brackets -/

/-- What a scan does with a text from code on that is no longer at its start. -/
def EndsFromCode (opener : Nat) (statement : Bool) (depth : Nat) (text : List Char) : Prop :=
  ∀ past rest : List Char, (∀ c ∈ rest.head?, isIdentContinue c = false) → opener + 1 < past.length →
    ∃ frames, Runs ⟨.between past (text ++ rest), [.embed opener statement true []]⟩ []
        ⟨.between (text.reverse ++ past) rest, frames⟩
      ∧ StandsBehind opener statement depth frames

/-- What a scan does with a text from a block in the code on. -/
def EndsFromBlock (opener : Nat) (statement : Bool) (depth : Nat) (text : List Char) : Prop :=
  ∀ (block : Nat) (past rest : List Char), (∀ c ∈ rest.head?, isIdentContinue c = false) →
    opener + 1 < past.length →
    ∃ frames, Runs ⟨.between past (text ++ rest), [.content block, .embed opener statement true []]⟩ []
        ⟨.between (text.reverse ++ past) rest, frames⟩
      ∧ StandsAfter block opener statement depth frames

theorem StandsBehind.mono {m n : Nat} (h : StandsBehind opener statement n frames) (hm : m ≤ 1) :
    StandsBehind opener statement (max m n) frames := by
  cases h with
  | code h => exact .code fun hstatement => Nat.max_le.mpr ⟨hm, h hstatement⟩
  | text h => exact .text fun hstatement => Nat.lt_of_lt_of_le (h hstatement) (Nat.le_max_right m n)

/-- A closing bracket, and a text behind it. -/
theorem StandsAfter.exists_runs_close {block m n : Nat} {after : List Char}
    (h : StandsAfter block opener statement m frames) (hnested : IsNested n after)
    (hafter : EndsFromCode opener statement n after)
    (hrest : ∀ c ∈ rest.head?, isIdentContinue c = false) (hpast : opener + 1 < past.length) :
    ∃ frames', Runs ⟨.between past (']' :: (after ++ rest)), frames⟩ []
        ⟨.between (after.reverse ++ ']' :: past) rest, frames'⟩
      ∧ StandsBehind opener statement (max (m + 1) n) frames' := by
  cases h with
  | inside =>
    obtain ⟨frames', hruns, hstands⟩ := hafter (']' :: past) rest hrest (Nat.lt_succ_of_lt hpast)
    refine ⟨frames', ?_, hstands.mono (Nat.le_refl 1)⟩
    exact (Runs.one (t := ⟨.between (']' :: past) (after ++ rest), _⟩) rfl rfl).thenFind hruns
  | behind hdepth h =>
    refine ⟨[], (h.runs_close past _).thenFind (runs_equationText hnested.isEquationText (.inl rfl)), ?_⟩
    exact .text fun _ => Nat.lt_of_lt_of_le (Nat.succ_lt_succ hdepth) (Nat.le_max_left (m + 1) n)

/-- The text of a pair of brackets, and a text behind it. -/
theorem exists_runs_pair {m n : Nat} {inner after : List Char}
    (hinner : EndsFromBlock opener statement m inner) (hnested : IsNested n after)
    (hafter : EndsFromCode opener statement n after) (block : Nat)
    (hrest : ∀ c ∈ rest.head?, isIdentContinue c = false) (hpast : opener + 1 < past.length) :
    ∃ frames, Runs ⟨.between past (inner ++ ']' :: (after ++ rest)),
          [.content block, .embed opener statement true []]⟩ []
        ⟨.between (after.reverse ++ ']' :: (inner.reverse ++ past)) rest, frames⟩
      ∧ StandsBehind opener statement (max (m + 1) n) frames := by
  have hbracket : ∀ c ∈ (']' :: (after ++ rest)).head?, isIdentContinue c = false := by
    rintro c ⟨rfl⟩
    decide
  have hpast' : opener + 1 < (inner.reverse ++ past).length := by
    rw [List.length_append]
    omega
  obtain ⟨frames, hruns, hstands⟩ := hinner block past _ hbracket hpast
  obtain ⟨frames', hruns', hstands'⟩ := hstands.exists_runs_close hnested hafter hrest hpast'
  exact ⟨frames', hruns.thenFind hruns', hstands'⟩

/-- The brackets of a text tell where a scan stands behind it. -/
theorem IsNested.ends (h : IsNested depth text) (opener : Nat) (statement : Bool) :
    EndsFromCode opener statement depth text ∧ EndsFromBlock opener statement depth text := by
  induction h with
  | @plain text htext =>
    have hclose : ']' ∉ text := fun hmem => absurd (htext _ hmem) (by decide)
    refine ⟨fun past rest => exists_runs_plain statement htext,
      fun block past rest _ _ => ⟨_, ?_, .inside⟩⟩
    exact runs_block_text htext.isEquationText hclose block _ past rest
  | @pair before inner after m n hbefore hinner hafter ihinner ihafter =>
    have hsplit (rest : List Char) : (before ++ '[' :: (inner ++ ']' :: after)) ++ rest
        = before ++ '[' :: (inner ++ ']' :: (after ++ rest)) := by simp
    have hread (past : List Char) : (before ++ '[' :: (inner ++ ']' :: after)).reverse ++ past
        = after.reverse ++ ']' :: (inner.reverse ++ '[' :: (before.reverse ++ past)) := by simp
    have hlength {past : List Char} (hpast : opener + 1 < past.length) :
        opener + 1 < ('[' :: (before.reverse ++ past)).length := by
      rw [List.length_cons, List.length_append]
      omega
    constructor
    · intro past rest hrest hpast
      have hopen : ∀ c ∈ ('[' :: (inner ++ ']' :: (after ++ rest))).head?, isIdentContinue c = false := by
        rintro c ⟨rfl⟩
        decide
      obtain ⟨frames, hruns, hstands⟩ := exists_runs_plain statement hbefore hopen hpast
      rw [hsplit, hread]
      cases hstands with
      | code =>
        obtain ⟨frames', hruns', hstands'⟩ := exists_runs_pair ihinner.2 hafter ihafter.1
          (before.reverse ++ past).length hrest (hlength hpast)
        exact ⟨frames', hruns.thenFind ((runs_open_square rfl).thenFind hruns'), hstands'⟩
      | text hstatement =>
        -- the expression has ended, and the brackets are text of the file
        have hbehind : IsEquationText ('[' :: (inner ++ ']' :: after)) :=
          (hinner.isEquationText.append (hafter.isEquationText.cons (by decide))).cons (by decide)
        have htext : Runs
            ⟨.between (before.reverse ++ past) (('[' :: (inner ++ ']' :: after)) ++ rest), []⟩ []
            ⟨.between (('[' :: (inner ++ ']' :: after)).reverse ++ (before.reverse ++ past)) rest, []⟩ :=
          runs_equationText hbehind (.inl rfl)
        refine ⟨[], hruns.thenFind ?_, .text fun h => absurd (hstatement h) (by decide)⟩
        simpa using htext
    · intro block past rest hrest hpast
      have htext : IsEquationText (before ++ ['[']) :=
        hbefore.isEquationText.append (by decide)
      have hclose : ']' ∉ before ++ ['['] := fun hmem => by
        rcases List.mem_append.mp hmem with hmem | hmem
        · exact absurd (hbefore _ hmem) (by decide)
        · exact absurd hmem (by decide)
      have hblock := runs_block_text htext hclose block [.embed opener statement true []] past
        (inner ++ ']' :: (after ++ rest))
      rw [List.append_assoc, List.reverse_append, List.append_assoc] at hblock
      obtain ⟨frames, hruns, hstands⟩ :=
        exists_runs_pair ihinner.2 hafter ihafter.1 block hrest (hlength hpast)
      rw [hsplit, hread]
      have hpos : 0 < max (m + 1) n := Nat.lt_of_lt_of_le m.succ_pos (Nat.le_max_left (m + 1) n)
      exact ⟨frames, hblock.thenFind hruns, .behind hpos hstands⟩

/-! ## A binding behind the text -/

variable {name : List Char}

/-- The value of a binding, up to the bracket behind it. -/
theorem runs_value (past : List Char) (topLevel : Bool) (outer : List Frame) :
    Runs ⟨.between past " = 1]\n".toList, .embed opener true topLevel [] :: outer⟩ []
      ⟨.between (" = 1".toList.reverse ++ past) "]\n".toList, outer⟩ :=
  (Runs.one (t := ⟨.between (' ' :: past) "= 1]\n".toList, _⟩) rfl rfl).thenFind
    ((Runs.one (t := ⟨.between ('=' :: ' ' :: past) " 1]\n".toList, _⟩) rfl rfl).thenFind
      ((Runs.one (t := ⟨.between (' ' :: '=' :: ' ' :: past) "1]\n".toList, _⟩) rfl rfl).thenFind
        ((Runs.one (t := ⟨.between ('1' :: ' ' :: '=' :: ' ' :: past) "]\n".toList, _⟩) rfl rfl).thenFind
          (.one rfl rfl))))

/-- In the text of the file a bracket without partner is passed over, and nothing is left open. -/
theorem outlineFrom_bracket_in_text (past : List Char) :
    outlineFrom ⟨.between past "]\n".toList, []⟩ = .ok ⟨[], [], []⟩ := by
  have hruns : Runs ⟨.between past "]\n".toList, []⟩ [] ⟨.between ('\n' :: ']' :: past) [], []⟩ :=
    (Runs.one (t := ⟨.between (']' :: past) ['\n'], []⟩) rfl rfl).thenFind (.one rfl rfl)
  rw [hruns.outlineFrom_eq_of_nil, outlineFrom_of_nil rfl]
  rfl

theorem head_value : ∀ c ∈ " = 1]\n".toList.head?, isIdentContinue c = false ∧ c ≠ '(' := by
  rintro c ⟨rfl⟩
  exact ⟨by decide, by decide⟩

/-- In the text of the file the binding is one of the top level. -/
theorem outlineFrom_let_in_text (hname : IsIdent name) (past : List Char) :
    outlineFrom ⟨.between past ("#let ".toList ++ (name ++ " = 1]\n".toList)), []⟩
      = .ok ⟨[], [⟨String.ofList name, .ofLength (past.length + 5) name.length, [], false⟩], []⟩ := by
  have hruns := (runs_let hname (.inl rfl) head_value past).trans (runs_value _ true [])
  exact hruns.outlineFrom_eq.trans (by rw [outlineFrom_bracket_in_text]; rfl)

/-- In a block of text it is none, and the bracket behind it closes the block. -/
theorem outlineFrom_let_in_block (hname : IsIdent name) (block : Nat) (past : List Char) :
    outlineFrom ⟨.between past ("#let ".toList ++ (name ++ " = 1]\n".toList)),
        [.content block, .embed opener statement true []]⟩ = .ok ⟨[], [], []⟩ := by
  have hclose (past : List Char) :
      Runs ⟨.between past "]\n".toList, [.content block, .embed opener statement true []]⟩ []
        ⟨.between ('\n' :: ']' :: past) [], []⟩ :=
    (Runs.one (t := ⟨.between (']' :: past) ['\n'], [.embed opener statement true []]⟩) rfl rfl).thenFind
      ((Runs.one (t := ⟨.between (']' :: past) ['\n'], []⟩) rfl rfl).thenFind (.one rfl rfl))
  have hruns := (runs_let hname (.inr ⟨block, [.embed opener statement true []], rfl⟩) head_value past).trans
    ((runs_value _ false _).trans (hclose _))
  exact hruns.outlineFrom_eq.trans (by rw [outlineFrom_of_nil rfl]; rfl)

/-- In a statement the `#` is passed over, and its words as well. -/
theorem outlineFrom_let_in_statement (hname : IsIdent name) (hpast : opener + 1 < past.length) :
    outlineFrom ⟨.between past ("#let ".toList ++ (name ++ " = 1]\n".toList)),
        [.embed opener true true []]⟩ = .ok ⟨[], [], []⟩ := by
  have hblank : ∀ c ∈ (' ' :: (name ++ " = 1]\n".toList)).head?, isIdentContinue c = false := by
    rintro c ⟨rfl⟩
    decide
  have hhash : opener + 1 < ('#' :: past).length := Nat.lt_succ_of_lt hpast
  have hlet : opener + 1 < (' ' :: ("let".toList.reverse ++ '#' :: past)).length := by
    simp only [List.length_cons, List.length_append]
    omega
  have hruns := (Runs.one (s := ⟨.between past ("#let ".toList ++ (name ++ " = 1]\n".toList)),
        [.embed opener true true []]⟩)
      (t := ⟨.between ('#' :: past) ("let".toList ++ ' ' :: (name ++ " = 1]\n".toList)),
        [.embed opener true true []]⟩) rfl rfl).thenFind
    ((runs_word_behind (by decide) hblank hhash []).thenFind
      ((Runs.one (t := ⟨.between (' ' :: ("let".toList.reverse ++ '#' :: past))
          (name ++ " = 1]\n".toList), _⟩) rfl rfl).thenFind
        ((runs_word_behind hname (fun c hc => (head_value c hc).1) hlet []).thenFind
          (runs_value _ true []))))
  rw [hruns.outlineFrom_eq_of_nil, outlineFrom_bracket_in_text]

/-- So where a scan stands tells whether the binding counts. -/
theorem StandsBehind.outlineFrom_let (h : StandsBehind opener statement depth frames) (hname : IsIdent name)
    (hpast : opener + 1 < past.length) :
    outlineFrom ⟨.between past ("#let ".toList ++ (name ++ " = 1]\n".toList)), frames⟩
      = .ok ⟨[], if statement = true ∧ depth ≤ 1 then []
          else [⟨String.ofList name, .ofLength (past.length + 5) name.length, [], false⟩], []⟩ := by
  cases h with
  | code h =>
    cases statement with
    | true =>
      rw [outlineFrom_let_in_statement hname hpast, if_pos ⟨rfl, h rfl⟩]
    | false =>
      -- the `#` ends the expression
      have hruns : Runs ⟨.between past ("#let ".toList ++ (name ++ " = 1]\n".toList)),
          [.embed opener false true []]⟩ []
          ⟨.between past ("#let ".toList ++ (name ++ " = 1]\n".toList)), []⟩ := .one rfl rfl
      rw [hruns.outlineFrom_eq_of_nil, outlineFrom_let_in_text hname, if_neg fun h => by cases h.1]
  | text h =>
    rw [outlineFrom_let_in_text hname, if_neg fun hle => Nat.not_le.mpr (h hle.1) hle.2]

theorem StandsAfter.outlineFrom_let {block : Nat} (h : StandsAfter block opener statement depth frames)
    (hname : IsIdent name) (hpast : opener + 1 < past.length) :
    outlineFrom ⟨.between past ("#let ".toList ++ (name ++ " = 1]\n".toList)), frames⟩
      = .ok ⟨[], if depth = 0 ∨ statement = true ∧ depth ≤ 1 then []
          else [⟨String.ofList name, .ofLength (past.length + 5) name.length, [], false⟩], []⟩ := by
  cases h with
  | inside => rw [outlineFrom_let_in_block hname, if_pos (.inl rfl)]
  | behind hdepth h =>
    rw [h.outlineFrom_let hname hpast]
    simp only [Nat.ne_of_gt hdepth, false_or]

/-! ## The two lines -/

variable {word : List Char}

/-- A block behind an expression, with a binding at its end. -/
theorem scan_expression_block (hword : IsIdent word)
    (hkeyword : statementKeywords.contains (String.ofList word) = false) (hname : IsIdent name)
    (htext : IsNested depth text) :
    scan ('#' :: (word ++ '[' :: (text ++ ("#let ".toList ++ (name ++ " = 1]\n".toList)))))
      = .ok ⟨[], if depth = 0 then []
          else [⟨String.ofList name, .ofLength (word.length + text.length + 7) name.length, [], false⟩],
        []⟩ := by
  generalize hline : "#let ".toList ++ (name ++ " = 1]\n".toList) = line
  have hopen : ∀ c ∈ ('[' :: (text ++ line)).head?, isIdentContinue c = false := by
    rintro c ⟨rfl⟩
    decide
  have hhash : ∀ c ∈ line.head?, isIdentContinue c = false := by
    rw [← hline]
    rintro c ⟨rfl⟩
    decide
  have hstart : 0 + 1 < ('[' :: (word.reverse ++ ['#'])).length := by simp
  obtain ⟨frames, hruns, hstands⟩ := (htext.ends 0 false).2 (word.reverse ++ ['#']).length _ line hhash hstart
  have henter : Runs ⟨.between [] ('#' :: (word ++ '[' :: (text ++ line))), []⟩ []
      ⟨.between ['#'] (word ++ '[' :: (text ++ line)), [.embed 0 false true []]⟩ :=
    runs_enter_expression hword hkeyword hopen
  have hall := henter.thenFind
    ((runs_word rfl hword (isReadStatement_eq_false hkeyword) hopen).thenFind
      ((runs_open_square rfl).thenFind hruns))
  have hlength : (text.reverse ++ '[' :: (word.reverse ++ ['#'])).length + 5
      = word.length + text.length + 7 := by
    simp
    omega
  have hpast : 0 + 1 < (text.reverse ++ '[' :: (word.reverse ++ ['#'])).length := by simp; omega
  rw [scan_eq_outlineFrom, hall.outlineFrom_eq_of_nil, ← hline, hstands.outlineFrom_let hname hpast, hlength]
  simp

/-- A block as the value of a binding, with another binding at its end. -/
theorem scan_bound_block (hword : IsIdent word) (hname : IsIdent name) (htext : IsNested depth text) :
    scan ("#let ".toList ++ (word ++ (" = [".toList ++ (text ++ ("#let ".toList ++ (name ++ " = 1]\n".toList))))))
      = .ok ⟨[], ⟨String.ofList word, .ofLength 5 word.length, [], false⟩ ::
          if depth ≤ 1 then []
          else [⟨String.ofList name, .ofLength (word.length + text.length + 14) name.length, [], false⟩],
        []⟩ := by
  generalize hline : "#let ".toList ++ (name ++ " = 1]\n".toList) = line
  have hhash : ∀ c ∈ line.head?, isIdentContinue c = false := by
    rw [← hline]
    rintro c ⟨rfl⟩
    decide
  have hbinding := runs_let_equals hword [] ('[' :: (text ++ line))
  generalize hbefore : " = ".toList.reverse ++ (word.reverse ++ ("#let ".toList.reverse ++ [])) = before
    at hbinding
  have hlength : (text.reverse ++ '[' :: before).length + 5 = word.length + text.length + 14 := by
    rw [← hbefore]
    simp
    omega
  have hstart : 0 + 1 < ('[' :: before).length := by
    rw [← hbefore]
    simp
  have hpast : 0 + 1 < (text.reverse ++ '[' :: before).length := by
    rw [List.length_append]
    omega
  obtain ⟨frames, hruns, hstands⟩ := (htext.ends 0 true).2 before.length _ line hhash hstart
  have hall := hbinding.trans ((runs_open_square rfl).thenFind hruns)
  rw [scan_eq_outlineFrom]
  refine hall.outlineFrom_eq.trans ?_
  have hdepth : (depth = 0 ∨ True ∧ depth ≤ 1) ↔ depth ≤ 1 := by
    rw [true_and]
    omega
  rw [← hline, hstands.outlineFrom_let hname hpast, hlength]
  simp only [hdepth]
  rfl

/-- A binding at the end of a block of text, with nested brackets before it. Behind an expression it is one
of the top level unless the text has no brackets, and in the value of a binding unless no bracket of the
text stands within another one. -/
theorem scan_nested (hword : IsIdent word)
    (hkeyword : statementKeywords.contains (String.ofList word) = false) (hname : IsIdent name)
    (htext : IsNested depth text) :
    scan ("#".toList ++ (word ++ ("[".toList ++ (text ++ ("#let ".toList ++ (name ++ " = 1]\n".toList))))))
        = .ok ⟨[], if depth = 0 then []
            else [⟨String.ofList name, .ofLength (word.length + text.length + 7) name.length, [], false⟩],
          []⟩
      ∧ scan ("#let ".toList
            ++ (word ++ (" = [".toList ++ (text ++ ("#let ".toList ++ (name ++ " = 1]\n".toList))))))
        = .ok ⟨[], ⟨String.ofList word, .ofLength 5 word.length, [], false⟩ ::
            if depth ≤ 1 then []
            else [⟨String.ofList name, .ofLength (word.length + text.length + 14) name.length, [], false⟩],
          []⟩ :=
  ⟨scan_expression_block hword hkeyword hname htext, scan_bound_block hword hname htext⟩

/-- Two pairs of brackets within each other. -/
theorem isNested_two : IsNested 2 "a [b [1]] ".toList := by
  have hbefore : IsPlainText "a ".toList := by decide
  have hinner : IsPlainText "b ".toList := by decide
  have hone : IsNested 0 ['1'] := .plain (by decide)
  have hblank : IsNested 0 [' '] := .plain (by decide)
  exact .pair hbefore (.pair hinner hone (.plain (List.forall_mem_nil _))) hblank

/-- Behind them both bindings are found at the top level. -/
theorem scan_nested_two : IsIdent "box".toList ∧ IsIdent "y".toList
    ∧ statementKeywords.contains "box" = false ∧ IsNested 2 "a [b [1]] ".toList
    ∧ scan "#box[a [b [1]] #let y = 1]\n".toList = .ok ⟨[], [⟨"y", ⟨20, 21⟩, [], false⟩], []⟩
    ∧ scan "#let box = [a [b [1]] #let y = 1]\n".toList
      = .ok ⟨[], [⟨"box", ⟨5, 8⟩, [], false⟩, ⟨"y", ⟨27, 28⟩, [], false⟩], []⟩ := by
  have hword : IsIdent "box".toList := by decide
  have hname : IsIdent "y".toList := by decide
  have hkeyword : statementKeywords.contains "box" = false := by decide
  have hbox : "#box[a [b [1]] #let y = 1]\n".toList = "#".toList ++ ("box".toList ++ ("[".toList
      ++ ("a [b [1]] ".toList ++ ("#let ".toList ++ ("y".toList ++ " = 1]\n".toList))))) := by decide
  have hlet : "#let box = [a [b [1]] #let y = 1]\n".toList = "#let ".toList ++ ("box".toList
      ++ (" = [".toList ++ ("a [b [1]] ".toList ++ ("#let ".toList ++ ("y".toList ++ " = 1]\n".toList)))))
      := by decide
  obtain ⟨hexpression, hbound⟩ := scan_nested hword hkeyword hname isNested_two
  refine ⟨hword, hname, hkeyword, isNested_two, ?_, ?_⟩
  · rw [hbox, hexpression]
    rfl
  · rw [hlet, hbound]
    rfl

/-- A pair of brackets before a binding in a block puts it at the top level. -/
theorem scan_nested_binds : IsNested 1 "[a] ".toList
    ∧ ∃ outline, scan "#box[[a] #let y = 1]\n".toList = .ok outline ∧ outline.bindings ≠ [] := by
  have hinner : IsNested 0 ['a'] := .plain (by decide)
  have hafter : IsNested 0 [' '] := .plain (by decide)
  refine ⟨.pair (List.forall_mem_nil _) hinner hafter, ⟨[], [⟨"y", ⟨14, 15⟩, [], false⟩], []⟩, ?_, by simp⟩
  decide +kernel

end TypstLint.Markup
