import TypstLint.Proofs.Markup.Returns

set_option autoImplicit false

/-! # Equations in text and in code

In text an equation reaches from one dollar to the next one, whatever stands between them. In code a
dollar is a character like any other one, so the brackets of an equation are brackets of the code around
it: the line of a binding to an equation has no issue exactly if they leave nothing open and do not end
the statement (`scan_equation`). -/

namespace TypstLint.Markup

variable {past rest text : List Char} {c : Char} {frames outer : List Frame} {frame : Frame}

/-- A text without the characters that have a meaning of their own in an equation, or in code around it,
and on one line; brackets may stand in it. -/
def IsEquationText (text : List Char) : Prop := ∀ c ∈ text, c ∉ "$\x22#\\\x60/\n".toList

instance (text : List Char) : Decidable (IsEquationText text) :=
  List.decidableBAll _ text

theorem IsEquationText.head (h : IsEquationText (c :: text)) : c ∉ "$\x22#\\\x60/\n".toList :=
  h c List.mem_cons_self

theorem IsEquationText.tail (h : IsEquationText (c :: text)) : IsEquationText text :=
  fun d hd => h d (List.mem_cons_of_mem c hd)

theorem IsEquationText.cons (hc : c ∉ "$\x22#\\\x60/\n".toList) (h : IsEquationText text) :
    IsEquationText (c :: text) :=
  List.forall_mem_cons.mpr ⟨hc, h⟩

theorem IsEquationText.append {more : List Char} (h : IsEquationText text) (h' : IsEquationText more) :
    IsEquationText (text ++ more) :=
  List.forall_mem_append.mpr ⟨h, h'⟩

theorem IsEquationText.ne {d : Char} (h : IsEquationText (c :: text)) (hd : d ∈ "$\x22#\\\x60/\n".toList) :
    (c == d) = false :=
  beq_false_of_ne fun heq => h.head (heq ▸ hd)

theorem IsEquationText.regionKind_eq (h : IsEquationText (c :: text)) (rest : List Char) :
    RegionKind.at? (c :: rest) = none := by
  have hhead := h.head
  unfold RegionKind.at?
  split
  · next heq => obtain ⟨rfl, -⟩ := List.cons.inj heq; exact absurd (by decide) hhead
  · next heq => obtain ⟨rfl, -⟩ := List.cons.inj heq; exact absurd (by decide) hhead
  · next heq => obtain ⟨rfl, -⟩ := List.cons.inj heq; exact absurd (by decide) hhead
  · next heq => obtain ⟨rfl, -⟩ := List.cons.inj heq; exact absurd (by decide) hhead
  · rfl

/-! ## Equations in text -/

/-- A character of an equation that closes nothing is passed over. -/
theorem textStep_equationChar {inMath inContent : Bool} (h : IsEquationText (c :: text))
    (hclose : (c == ']' && inContent) = false) :
    textStep inMath inContent c ⟨.between past (c :: rest), frames⟩
      = plain ⟨.between (c :: past) rest, frames⟩ := by
  simp only [textStep, Cursor.rest_between, h.regionKind_eq, Option.filter_none, hclose,
    h.ne (d := '\\') (by decide), h.ne (d := '$') (by decide), h.ne (d := '#') (by decide),
    Bool.false_eq_true, if_false]
  rfl

/-- So are all of them in the text of a file, and in an equation. -/
theorem runs_equationText (h : IsEquationText text)
    (hframes : frames = [] ∨ ∃ opener outer, frames = .math opener :: outer) :
    Runs ⟨.between past (text ++ rest), frames⟩ [] ⟨.between (text.reverse ++ past) rest, frames⟩ := by
  induction text generalizing past with
  | nil => exact .refl _
  | cons c text ih =>
    have hstep : State.step c ⟨.between past (c :: (text ++ rest)), frames⟩
        = plain ⟨.between (c :: past) (text ++ rest), frames⟩ := by
      rcases hframes with rfl | ⟨opener, outer, rfl⟩
      · exact textStep_equationChar h (Bool.and_false _)
      · exact textStep_equationChar h (Bool.and_false _)
    rw [List.reverse_cons, List.append_assoc]
    exact (Runs.one (s := ⟨.between past (c :: (text ++ rest)), frames⟩) rfl hstep).thenFind (ih h.tail)

/-- An equation in text holds nothing, and leaves nothing open. -/
theorem scan_dollars (h : IsEquationText text) : scan ('$' :: (text ++ ['$', '\n'])) = .ok ⟨[], [], []⟩ := by
  have hruns : Runs ⟨.between [] ('$' :: (text ++ ['$', '\n'])), []⟩ []
      ⟨.between ('\n' :: '$' :: (text.reverse ++ ['$'])) [], []⟩ :=
    (Runs.one (t := ⟨.between ['$'] (text ++ ['$', '\n']), [.math 0]⟩) rfl rfl).thenFind
      ((runs_equationText h (.inr ⟨0, [], rfl⟩)).thenFind
        ((Runs.one (t := ⟨.between ('$' :: (text.reverse ++ ['$'])) ['\n'], []⟩) rfl rfl).thenFind
          (.one rfl rfl)))
  rw [scan_eq_outlineFrom, hruns.outlineFrom_eq_of_nil, outlineFrom_of_nil rfl]
  rfl

/-- A dollar without a partner is left open. -/
theorem issues_unpaired_dollar (h : IsEquationText text) (past : List Char) :
    ∃ outline, outlineFrom ⟨.between past (text ++ ['$', '\n']), []⟩ = .ok outline
      ∧ outline.issues ≠ [] := by
  have hruns : Runs ⟨.between past (text ++ ['$', '\n']), []⟩ []
      ⟨.between ('\n' :: '$' :: (text.reverse ++ past)) [], [.math (text.reverse ++ past).length]⟩ :=
    (runs_equationText h (.inl rfl)).thenFind
      ((Runs.one (t := ⟨.between ('$' :: (text.reverse ++ past)) ['\n'],
          [.math (text.reverse ++ past).length]⟩) rfl rfl).thenFind
        (.one rfl rfl))
  rw [hruns.outlineFrom_eq_of_nil, outlineFrom_of_nil rfl]
  exact ⟨_, rfl, List.cons_ne_nil _ _⟩

/-! ## Brackets of code -/

/-- The brackets that code can stand in. -/
inductive Bracket where
  | round
  | square
  | curly
  deriving DecidableEq, Repr

/-- The open brackets behind a character of a statement, innermost first, if it does not end the
statement. Square brackets hold text, in which only the closing one counts. In a block only its own
bracket closes, and in round brackets only theirs. -/
def bracketsBehind (brackets : List Bracket) (c : Char) : Option (List Bracket) :=
  if brackets.head? = some .square then some (if c = ']' then brackets.tail else brackets)
  else if c = '(' then some (.round :: brackets)
  else if c = '[' then some (.square :: brackets)
  else if c = '\x7b' then some (.curly :: brackets)
  else
    match brackets with
    | .round :: outer => some (if c = ')' then outer else brackets)
    | .curly :: outer => some (if c = '\x7d' then outer else brackets)
    | _ => if c = ')' ∨ c = ']' ∨ c = '\x7d' ∨ c = ';' then none else some brackets

/-- The brackets that are open behind a text of a statement, if the statement goes on. -/
def openBehind (brackets : List Bracket) (text : List Char) : Option (List Bracket) :=
  text.foldlM bracketsBehind brackets

variable {brackets : List Bracket}

theorem bracketsBehind_eq_self (hc : c ∉ "()[]\x7b\x7d;".toList) :
    bracketsBehind brackets c = some brackets := by
  have hne : ∀ d ∈ "()[]\x7b\x7d;".toList, c ≠ d := fun d hd heq => hc (heq ▸ hd)
  simp only [bracketsBehind, hne '(' (by decide), hne '[' (by decide), hne '\x7b' (by decide),
    hne ')' (by decide), hne ']' (by decide), hne '\x7d' (by decide), hne ';' (by decide), if_false,
    or_self]
  split
  · rfl
  · split <;> rfl

theorem openBehind_cons (brackets : List Bracket) (c : Char) (text : List Char) :
    openBehind brackets (c :: text) = (bracketsBehind brackets c).bind (openBehind · text) :=
  List.foldlM_cons ..

theorem openBehind_append (brackets : List Bracket) (text more : List Char) :
    openBehind brackets (text ++ more) = (openBehind brackets text).bind (openBehind · more) :=
  List.foldlM_append

/-- A word has no brackets. -/
theorem openBehind_word {word : List Char} (h : IsIdent word) : openBehind brackets word = some brackets := by
  have hcontinue : ∀ d ∈ "()[]\x7b\x7d;".toList, ¬ isIdentContinue d = true :=
    List.any_eq_false.mp (by decide)
  have hword : ∀ d ∈ word, d ∉ "()[]\x7b\x7d;".toList := fun d hd hmem =>
    hcontinue d hmem (h.isIdentContinue_of_mem hd)
  clear h
  induction word with
  | nil => rfl
  | cons d word ih =>
    rw [openBehind, List.foldlM_cons, bracketsBehind_eq_self (hword d List.mem_cons_self)]
    exact ih fun d hd => hword d (List.mem_cons_of_mem _ hd)

/-- The brackets in which a scan stands within a statement of the top level. -/
inductive Stands : List Bracket → List Frame → Prop
  | statement : Stands [] [.embed 0 true true []]
  | round (opener : Nat) {brackets : List Bracket} {frame : Frame} {outer : List Frame} :
      frame.isCode = true → Stands brackets (frame :: outer) →
      Stands (.round :: brackets) (frame.withParens (opener :: frame.parens) :: outer)
  | square (opener : Nat) {brackets : List Bracket} {frame : Frame} {outer : List Frame} :
      frame.isCode = true → Stands brackets (frame :: outer) →
      Stands (.square :: brackets) (.content opener :: frame :: outer)
  | curly (opener : Nat) {brackets : List Bracket} {frame : Frame} {outer : List Frame} :
      frame.isCode = true → Stands brackets (frame :: outer) →
      Stands (.curly :: brackets) (.code opener [] :: frame :: outer)

/-- The brackets in which a scan stands, if the statement goes on; else it stands in the text of the file. -/
def StandsIn : Option (List Bracket) → List Frame → Prop
  | some brackets, frames => Stands brackets frames
  | none, frames => frames = []

namespace Stands

theorem isCode_withParens {frame : Frame} (parens : List Nat) :
    (frame.withParens parens).isCode = frame.isCode := by
  cases frame <;> rfl

/-- The code around is a statement and no expression. -/
theorem isStatement_of_isEmbedded (h : Stands brackets (frame :: outer)) :
    frame.isEmbedded = true → frame.isStatement = true := by
  generalize hframes : frame :: outer = frames at h
  induction h generalizing frame outer with
  | statement =>
    obtain ⟨rfl, -⟩ := List.cons.inj hframes
    exact fun _ => rfl
  | @round opener _ inner _ _ _ ih =>
    obtain ⟨rfl, -⟩ := List.cons.inj hframes
    have := ih rfl
    cases inner with
    | content | math | code => exact id
    | embed => exact this
  | square | curly =>
    obtain ⟨rfl, -⟩ := List.cons.inj hframes
    exact fun h => by cases h

/-- Within square brackets there is text, else there is code. -/
theorem exists_isCode (h : Stands brackets frames) (hsquare : brackets.head? ≠ some .square) :
    ∃ frame outer, frames = frame :: outer ∧ frame.isCode = true := by
  cases h with
  | statement => exact ⟨_, _, rfl, rfl⟩
  | round opener hcode => exact ⟨_, _, rfl, (isCode_withParens _).trans hcode⟩
  | square => exact absurd rfl hsquare
  | curly => exact ⟨_, _, rfl, rfl⟩

/-- A character of a block of text. -/
theorem runs_content {opener : Nat} (hcode : frame.isCode = true) (h : Stands brackets (frame :: outer))
    (hc : IsEquationText (c :: text)) :
    ∃ frames', Runs ⟨.between past (c :: rest), .content opener :: frame :: outer⟩ []
        ⟨.between (c :: past) rest, frames'⟩
      ∧ StandsIn (bracketsBehind (.square :: brackets) c) frames' := by
  by_cases hclose : c = ']'
  · subst hclose
    exact ⟨frame :: outer, .one rfl rfl, h⟩
  · refine ⟨.content opener :: frame :: outer, .one rfl ?_, ?_⟩
    · exact textStep_equationChar hc (by simp [hclose])
    · simp only [bracketsBehind, List.head?_cons, hclose, if_true, if_false]
      exact .square opener hcode h

/-- A character of code that is no bracket and does not end a statement is passed over. -/
theorem runs_codeChar (hcode : frame.isCode = true) (h : Stands brackets (frame :: outer))
    (hc : IsEquationText (c :: text)) (hident : isIdentStart c = false)
    (hbracket : c ∉ "()[]\x7b\x7d;".toList) :
    Runs ⟨.between past (c :: rest), frame :: outer⟩ [] ⟨.between (c :: past) rest, frame :: outer⟩ := by
  have hne : ∀ d ∈ "()[]\x7b\x7d;".toList, (c == d) = false :=
    fun d hd => beq_false_of_ne fun heq => hbracket (heq ▸ hd)
  have hexpression : (frame.parens.isEmpty && frame.isEmbedded && !frame.isStatement) = false := by
    have hstatement := h.isStatement_of_isEmbedded
    cases hembedded : frame.isEmbedded with
    | false => simp
    | true => simp [hstatement hembedded]
  refine .one rfl ?_
  rw [step_eq_codeStep hcode]
  simp only [codeStep, Cursor.rest_between, hc.regionKind_eq, hne '(' (by decide), hne '[' (by decide),
    hne '\x7b' (by decide), hne ')' (by decide), hne '\x7d' (by decide), hne ']' (by decide),
    hne ';' (by decide), hc.ne (d := '\n') (by decide), hident, hexpression, Bool.and_false, Bool.or_self,
    Bool.false_eq_true, if_false]
  rfl

/-- A closing bracket or a semicolon in code. -/
theorem runs_close (h : Stands brackets frames) (hsquare : brackets.head? ≠ some .square)
    (hc : c = ')' ∨ c = ']' ∨ c = '\x7d' ∨ c = ';') :
    ∃ frames', Runs ⟨.between past (c :: rest), frames⟩ [] ⟨.between (c :: past) rest, frames'⟩
      ∧ StandsIn (bracketsBehind brackets c) frames' := by
  have hpass : ∀ {brackets frames}, bracketsBehind brackets c = some brackets → Stands brackets frames →
      State.step c ⟨.between past (c :: rest), frames⟩ = plain ⟨.between (c :: past) rest, frames⟩ →
      ∃ frames', Runs ⟨.between past (c :: rest), frames⟩ [] ⟨.between (c :: past) rest, frames'⟩
        ∧ StandsIn (bracketsBehind brackets c) frames' := by
    intro brackets frames hbehind hstands hstep
    exact ⟨frames, .one rfl hstep, hbehind ▸ hstands⟩
  cases h with
  | statement =>
    -- the statement ends, and what ended it is a character of the text behind it
    refine ⟨[], ?_, ?_⟩
    · rcases hc with rfl | rfl | rfl | rfl
      · exact (Runs.one (t := ⟨.between past (')' :: rest), []⟩) rfl rfl).thenFind (.one rfl rfl)
      · exact (Runs.one (t := ⟨.between past (']' :: rest), []⟩) rfl rfl).thenFind (.one rfl rfl)
      · exact (Runs.one (t := ⟨.between past ('\x7d' :: rest), []⟩) rfl rfl).thenFind (.one rfl rfl)
      · exact .one rfl rfl
    · rcases hc with rfl | rfl | rfl | rfl <;> rfl
  | @round opener brackets frame outer hcode h =>
    have hround := h.round opener hcode
    rcases hc with rfl | rfl | rfl | rfl
    · refine ⟨frame :: outer, .one rfl ?_, h⟩
      rw [step_eq_codeStep ((isCode_withParens _).trans hcode)]
      cases frame with
      | content | math => cases hcode
      | code | embed => rfl
    all_goals
      refine hpass rfl hround ?_
      rw [step_eq_codeStep ((isCode_withParens _).trans hcode)]
      cases frame with
      | content | math => cases hcode
      | code | embed => rfl
  | square => exact absurd rfl hsquare
  | curly opener hcode h =>
    have hcurly := h.curly opener hcode
    rcases hc with rfl | rfl | rfl | rfl
    · exact hpass rfl hcurly rfl
    · exact hpass rfl hcurly rfl
    · exact ⟨_, .one rfl rfl, h⟩
    · exact hpass rfl hcurly rfl

/-- A character that starts no word. -/
theorem runs_char (h : Stands brackets frames) (hc : IsEquationText (c :: text))
    (hident : brackets.head? ≠ some .square → isIdentStart c = false) (past rest : List Char) :
    ∃ frames', Runs ⟨.between past (c :: rest), frames⟩ [] ⟨.between (c :: past) rest, frames'⟩
      ∧ StandsIn (bracketsBehind brackets c) frames' := by
  by_cases hsquare : brackets.head? = some .square
  · cases h with
    | statement | round | curly => cases hsquare
    | square opener hcode h => exact h.runs_content hcode hc
  · obtain ⟨frame, outer, rfl, hcode⟩ := h.exists_isCode hsquare
    by_cases hclose : c = ')' ∨ c = ']' ∨ c = '\x7d' ∨ c = ';'
    · exact h.runs_close hsquare hclose
    · by_cases hopen : c = '(' ∨ c = '[' ∨ c = '\x7b'
      · rcases hopen with rfl | rfl | rfl
        · refine ⟨_, runs_open_round hcode, ?_⟩
          simp only [bracketsBehind, hsquare, if_false, if_true]
          exact h.round _ hcode
        · refine ⟨_, runs_open_square hcode, ?_⟩
          simp only [bracketsBehind, hsquare, if_false, if_true]
          exact h.square _ hcode
        · refine ⟨_, runs_open_curly hcode, ?_⟩
          simp only [bracketsBehind, hsquare, if_false, if_true]
          exact h.curly _ hcode
      · have hbracket : c ∉ "()[]\x7b\x7d;".toList := by
          simp only [String.reduceToList, List.mem_cons, List.not_mem_nil, or_false]
          tauto
        refine ⟨_, h.runs_codeChar hcode hc (hident hsquare) hbracket, ?_⟩
        rw [bracketsBehind_eq_self hbracket]
        exact h

end Stands

/-! ## The text of the equation -/

/-- A word other than `let` is passed over, or starts a directive without a target. -/
theorem exists_runs_word {word : List Char} (hcode : frame.isCode = true) (hword : IsIdent word)
    (hlet : word ≠ "let".toList) (hrest : ∀ c ∈ rest.head?, isIdentContinue c = false)
    (hquote : '\x22' ∉ rest) (past : List Char) (outer : List Frame) :
    ∃ found, Runs ⟨.between past (word ++ rest), frame :: outer⟩ found
        ⟨.between (word.reverse ++ past) rest, frame :: outer⟩
      ∧ IsClean found := by
  obtain ⟨c, more, hcons, hc, -⟩ := hword.exists_start
  have hident : identOf (word ++ rest) = word := hword.identOf_append hrest
  have hhead : word ++ rest = c :: (more ++ rest) := by rw [hcons, List.cons_append]
  have hlet' : (word == "let".toList) = false := beq_false_of_ne hlet
  have hstep : State.step c ⟨.between past (word ++ rest), frame :: outer⟩
      = wordStep frame ⟨.between past (word ++ rest), frame :: outer⟩ := by
    rw [step_eq_codeStep hcode, codeStep_of_isIdentStart _ hhead hc]
  have hread : ∃ found, wordStep frame ⟨.between past (word ++ rest), frame :: outer⟩
      = .ok (⟨.between (word.reverse ++ past) rest, frame :: outer⟩, found) ∧ IsClean found := by
    simp only [wordStep, Cursor.rest_between, hident, Cursor.advance_over, hlet', Bool.false_eq_true,
      if_false]
    split
    · exact ⟨[], rfl, rfl⟩
    · split
      · rw [readDirective_of_no_quote _ _ hquote]
        exact ⟨_, rfl, rfl⟩
      · exact ⟨[], rfl, rfl⟩
  obtain ⟨found, hread, hclean⟩ := hread
  exact ⟨found, .one (s := ⟨.between past (word ++ rest), _⟩) hhead (hstep.trans hread), hclean⟩

/-- The brackets that are open behind a text are those in which a scan stands there. -/
theorem StandsIn.exists_runs {brackets? : Option (List Bracket)} (h : StandsIn brackets? frames)
    (htext : IsEquationText text) (hlet : ¬ "let".toList <:+: text)
    (hrest : ∀ c ∈ rest.head?, isIdentContinue c = false) (hquote : '\x22' ∉ rest) (past : List Char) :
    ∃ found frames', Runs ⟨.between past (text ++ rest), frames⟩ found
        ⟨.between (text.reverse ++ past) rest, frames'⟩
      ∧ IsClean found ∧ StandsIn (brackets?.bind (openBehind · text)) frames' := by
  induction hlength : text.length using Nat.strongRecOn generalizing text brackets? frames past with
  | ind length ih =>
  subst hlength
  cases brackets? with
  | none => exact ⟨[], frames, runs_equationText htext (.inl h), rfl, h⟩
  | some brackets =>
    cases text with
    | nil => exact ⟨[], frames, .refl _, rfl, h⟩
    | cons c text =>
      by_cases hident : brackets.head? ≠ some .square ∧ isIdentStart c = true
      · -- a word of code is read in one step
        obtain ⟨frame, outer, rfl, hcode⟩ := Stands.exists_isCode h hident.1
        obtain ⟨more, hsplit, hlt, hmore⟩ := exists_behind_identOf hident.2 text
        have hword := isIdent_identOf hident.2 text
        generalize identOf (c :: text) = word at hsplit hword
        have hmoreText : IsEquationText more := fun d hd => htext d (hsplit ▸ List.mem_append_right _ hd)
        have hmoreLet : ¬ "let".toList <:+: more := fun hmem =>
          hlet (hsplit ▸ hmem.trans (List.suffix_append word more).isInfix)
        have hwordLet : word ≠ "let".toList := fun heq =>
          hlet (hsplit ▸ heq ▸ (List.prefix_append word more).isInfix)
        have hhead : ∀ d ∈ (more ++ rest).head?, isIdentContinue d = false := by
          cases more with
          | nil => exact hrest
          | cons => exact hmore
        have hquote' : '\x22' ∉ more ++ rest := fun hmem => by
          rcases List.mem_append.mp hmem with hmem | hmem
          · exact hmoreText _ hmem (by decide)
          · exact hquote hmem
        obtain ⟨new, hruns, hnew⟩ := exists_runs_word hcode hword hwordLet hhead hquote' past outer
        obtain ⟨found, frames', hlater, hfound, hstands⟩ :=
          ih more.length hlt h hmoreText hmoreLet (word.reverse ++ past) rfl
        refine ⟨new ++ found, frames', ?_, isClean_append.mpr ⟨hnew, hfound⟩, ?_⟩
        · rw [hsplit, List.append_assoc, List.reverse_append, List.append_assoc]
          exact hruns.trans hlater
        · rw [hsplit, Option.bind_some, openBehind_append, openBehind_word hword]
          exact hstands
      · have hchar : brackets.head? ≠ some .square → isIdentStart c = false := by simpa using hident
        obtain ⟨frames₁, hruns, h₁⟩ := Stands.runs_char h htext hchar past (text ++ rest)
        have htailLet : ¬ "let".toList <:+: text := fun hmem =>
          hlet (hmem.trans (List.suffix_cons c text).isInfix)
        obtain ⟨found, frames', hlater, hfound, hstands⟩ :=
          ih text.length (Nat.lt_succ_self _) h₁ htext.tail htailLet (c :: past) rfl
        refine ⟨found, frames', ?_, hfound, ?_⟩
        · rw [List.reverse_cons, List.append_assoc]
          exact hruns.thenFind hlater
        · rw [Option.bind_some, openBehind_cons]
          exact hstands

/-! ## The end of the line -/

theorem issues_open_frame (hframe : frame.parens ≠ [] ∨ frame.isEmbedded = false) (past : List Char)
    (outer : List Frame) :
    ∃ outline, outlineFrom ⟨.between past [], frame :: outer⟩ = .ok outline ∧ outline.issues ≠ [] := by
  refine ⟨_, outlineFrom_of_nil rfl, fun hnil => ?_⟩
  have hissues : ((frame :: outer).reverse.flatMap Frame.issues) = [] :=
    (filterMap_issue?_issues _).symm.trans hnil
  rw [List.flatMap_eq_nil_iff] at hissues
  exact Frame.issues_ne_nil hframe (hissues frame (by simp))

/-- At the end of the line with the equation nothing is open if no bracket is and the statement goes on. -/
theorem StandsIn.issues_lineEnd {brackets? : Option (List Bracket)} (h : StandsIn brackets? frames)
    (past : List Char) : ∃ outline, outlineFrom ⟨.between past ['$', '\n'], frames⟩ = .ok outline
      ∧ (outline.issues = [] ↔ brackets? = some []) := by
  have hopen : ∀ {past frame outer frames}, Runs ⟨.between past ['$', '\n'], frames⟩ []
        ⟨.between ('\n' :: '$' :: past) [], frame :: outer⟩ →
      (frame.parens ≠ [] ∨ frame.isEmbedded = false) → brackets? ≠ some [] →
      ∃ outline, outlineFrom ⟨.between past ['$', '\n'], frames⟩ = .ok outline
        ∧ (outline.issues = [] ↔ brackets? = some []) := by
    intro past frame outer frames hruns hframe hne
    obtain ⟨outline, hok, hissues⟩ := issues_open_frame hframe ('\n' :: '$' :: past) outer
    exact ⟨outline, hruns.outlineFrom_eq_of_nil.trans hok, iff_of_false hissues hne⟩
  have hpass : ∀ {past frames}, State.step '$' ⟨.between past ['$', '\n'], frames⟩
        = plain ⟨.between ('$' :: past) ['\n'], frames⟩ →
      State.step '\n' ⟨.between ('$' :: past) ['\n'], frames⟩
        = plain ⟨.between ('\n' :: '$' :: past) [], frames⟩ →
      Runs ⟨.between past ['$', '\n'], frames⟩ [] ⟨.between ('\n' :: '$' :: past) [], frames⟩ :=
    fun hdollar hline => (Runs.one rfl hdollar).thenFind (.one rfl hline)
  cases brackets? with
  | none =>
    obtain rfl : frames = [] := h
    have hempty : IsEquationText [] := by simp [IsEquationText]
    obtain ⟨outline, hok, hissues⟩ := issues_unpaired_dollar hempty past
    exact ⟨outline, hok, iff_of_false hissues (by simp)⟩
  | some brackets =>
    cases h with
    | statement =>
      have hruns : Runs ⟨.between past ['$', '\n'], [.embed 0 true true []]⟩ []
          ⟨.between ('\n' :: '$' :: past) [], []⟩ :=
        (Runs.one (t := ⟨.between ('$' :: past) ['\n'], [.embed 0 true true []]⟩) rfl rfl).thenFind
          ((Runs.one (t := ⟨.between ('$' :: past) ['\n'], []⟩) rfl rfl).thenFind (.one rfl rfl))
      rw [hruns.outlineFrom_eq_of_nil, outlineFrom_of_nil rfl]
      exact ⟨_, rfl, iff_of_true rfl rfl⟩
    | @round opener brackets frame outer hcode h =>
      cases frame with
      | content | math => cases hcode
      | code => exact hopen (hpass rfl rfl) (.inr rfl) (by simp)
      | embed => exact hopen (hpass rfl rfl) (.inl (List.cons_ne_nil _ _)) (by simp)
    | @square opener _ inner outer =>
      have hruns : Runs ⟨.between past ['$', '\n'], .content opener :: inner :: outer⟩ []
          ⟨.between ('\n' :: '$' :: past) [], .math past.length :: .content opener :: inner :: outer⟩ :=
        (Runs.one (t := ⟨.between ('$' :: past) ['\n'], _⟩) rfl rfl).thenFind (.one rfl rfl)
      exact hopen hruns (.inr rfl) (by simp)
    | curly opener => exact hopen (hpass rfl rfl) (.inr rfl) (by simp)

/-! ## A binding to an equation -/

/-- The line of a binding up to the equation. -/
theorem runs_let_dollar {word : List Char} (hword : IsIdent word) :
    Runs ⟨.between [] ("#let ".toList ++ (word ++ (" = $".toList ++ rest))), []⟩
      [.binding ⟨String.ofList word, .ofLength 5 word.length, [], false⟩]
      ⟨.between (" = $".toList.reverse ++ (word.reverse ++ "#let ".toList.reverse)) rest,
        [.embed 0 true true []]⟩ := by
  exact (runs_let_equals hword [] ('$' :: rest)).trans (.one rfl rfl)

/-- An equation in text holds nothing. The line of a binding to an equation can be scanned and holds this
binding, and no issue exactly if the equation leaves no bracket open as code and does not end the statement,
provided that nothing is bound in it. -/
theorem scan_equation {word : List Char} (hword : IsIdent word) (htext : IsEquationText text) :
    scan ('$' :: (text ++ ['$', '\n'])) = .ok ⟨[], [], []⟩
      ∧ ∃ outline, scan ("#let ".toList ++ (word ++ (" = $".toList ++ (text ++ ['$', '\n']))))
          = .ok outline
        ∧ outline.bindings = [⟨String.ofList word, .ofLength 5 word.length, [], false⟩]
        ∧ (¬ "let".toList <:+: text → (outline.issues = [] ↔ openBehind [] text = some [])) := by
  refine ⟨scan_dollars htext, ?_⟩
  have hnotMem : ∀ c ∈ "$\x22#\\\x60/\n".toList, c ∉ ['$', '\n'] → c ∉ text ++ ['$', '\n'] := by
    intro c hc hend hmem
    rcases List.mem_append.mp hmem with hmem | hmem
    · exact htext c hmem hc
    · exact hend hmem
  rw [scan_eq_outlineFrom, (runs_let_dollar hword).outlineFrom_eq]
  generalize hpast : " = $".toList.reverse ++ (word.reverse ++ "#let ".toList.reverse) = past
  have hlength : 0 + 1 < past.length := by
    rw [← hpast]
    simp
  obtain ⟨inner, hinner, hbindings⟩ := exists_outlineFrom
    (s := ⟨.between past (text ++ ['$', '\n']), [.embed 0 true true []]⟩)
    (hnotMem '\x22' (by decide) (by decide))
    ⟨hnotMem '#' (by decide) (by decide), fun opener statement topLevel parens hmem => by
      obtain ⟨rfl, -⟩ := Frame.embed.inj (List.mem_singleton.mp hmem)
      exact hlength⟩
  refine ⟨_, by rw [hinner]; rfl, ?_, fun hlet => ?_⟩
  · exact congrArg (_ :: ·) hbindings
  · have hstart : StandsIn (some []) [.embed 0 true true []] := .statement
    have hdollar : ∀ c ∈ ['$', '\n'].head?, isIdentContinue c = false := by
      rintro c ⟨rfl⟩
      decide
    obtain ⟨found, frames', hruns, hclean, hstands⟩ :=
      hstart.exists_runs htext hlet hdollar (by decide) past
    obtain ⟨last, hlast, hissues⟩ := hstands.issues_lineEnd (text.reverse ++ past)
    rw [hruns.outlineFrom_eq, hlast] at hinner
    obtain rfl := Except.ok.inj hinner
    show found.filterMap Finding.issue? ++ last.issues = [] ↔ _
    rw [hclean, List.nil_append]
    exact hissues

/-- An interval whose brackets are closed by their own kind leaves nothing open. -/
theorem scan_equation_interval :
    IsIdent ['x'] ∧ IsEquationText "[0, 1]".toList ∧ ¬ "let".toList <:+: "[0, 1]".toList
      ∧ openBehind [] "[0, 1]".toList = some []
      ∧ scan "$[0, 1]$\n".toList = .ok ⟨[], [], []⟩
      ∧ ∃ outline, scan "#let x = $[0, 1]$\n".toList = .ok outline
        ∧ outline.bindings = [⟨"x", ⟨5, 6⟩, [], false⟩] ∧ outline.issues = [] := by
  have hword : IsIdent ['x'] := by decide
  have htext : IsEquationText "[0, 1]".toList := by decide
  have hletter : 'l' ∉ "[0, 1]".toList := by decide
  have hlet : ¬ "let".toList <:+: "[0, 1]".toList := fun hmem =>
    hletter (hmem.subset List.mem_cons_self)
  have hopen : openBehind [] "[0, 1]".toList = some [] := by decide
  obtain ⟨hdollars, outline, hscan, hbindings, hissues⟩ := scan_equation hword htext
  exact ⟨hword, htext, hlet, hopen, hdollars, outline, hscan, hbindings, (hissues hlet).mpr hopen⟩

/-- A half-open interval leaves a bracket open in code, but not in text. -/
theorem scan_equation_halfOpen :
    IsEquationText "[0, 1)".toList ∧ scan "$[0, 1)$\n".toList = .ok ⟨[], [], []⟩
      ∧ ∃ outline, scan "#let x = $[0, 1)$\n".toList = .ok outline ∧ outline.issues ≠ [] := by
  refine ⟨by decide, by decide +kernel, ?_⟩
  refine ⟨⟨[], [⟨"x", ⟨5, 6⟩, [], false⟩], [.unclosedAt '[' 10, .unclosedAt '$' 16]⟩, ?_, by simp⟩
  decide +kernel

end TypstLint.Markup
