import TypstLint.Proofs.Markup.LineEnd
import TypstLint.Proofs.Markup.Spelling

set_option autoImplicit false

/-! # Lists of parameters

The list of a closure is read twice: for its end, where only round brackets count, and at its commas, where
brackets of all kinds do. Both readings pass over a text with its brackets in pairs, whatever the literals in
it hold. So the parts are the entries of the list, and the names in them are the parameters
(`scan_params`). -/

namespace TypstLint.Markup

variable {c : Char} {text body rest name list blanks front entry : List Char} {pos depth : Nat}
  {commas : Bool} {param : Option Param} {params : List Param}

/-! ## Literals with escapes -/

/-- What a literal holds, with its escapes, none of which has a number. -/
inductive IsLiteralBody : List Char → Prop
  | nil : IsLiteralBody []
  | char {c : Char} {body : List Char} (hquote : c ≠ '\x22') (hbackslash : c ≠ '\\')
      (hbody : IsLiteralBody body) : IsLiteralBody (c :: body)
  | escape {c : Char} {body : List Char} (hnumber : c = 'u' → body.head? ≠ some '\x7b')
      (hbody : IsLiteralBody body) : IsLiteralBody ('\\' :: c :: body)

theorem bracedNumber?_eq_none (h : c = 'u' → rest.head? ≠ some '\x7b') : bracedNumber? (c :: rest) = none := by
  unfold bracedNumber?
  split
  · next heq =>
    obtain ⟨rfl, rfl⟩ := List.cons.inj heq
    exact absurd rfl (h rfl)
  · rfl

/-- An escape without a number stands for one character, whatever stands behind it. -/
theorem exists_decodeEscape (c : Char) :
    ∃ d, ∀ rest, (c = 'u' → rest.head? ≠ some '\x7b') → decodeEscape (c :: rest) = .ok (d, 1) := by
  cases hletter : letterEscape? c with
  | some d =>
    refine ⟨d, fun rest _ => ?_⟩
    simp only [decodeEscape, List.headD_cons, hletter]
  | none =>
    refine ⟨c, fun rest h => ?_⟩
    simp only [decodeEscape, List.headD_cons, hletter, bracedNumber?_eq_none h]

/-- The characters of a literal are read up to its quote. -/
theorem IsLiteralBody.exists_readLiteralFrom (h : IsLiteralBody body) :
    ∃ text : List Char, ∀ n done rest, readLiteralFrom 0 n done (body ++ '\x22' :: rest)
      = readLiteralFrom 0 (n + body.length) (text.reverse ++ done) ('\x22' :: rest) := by
  induction h with
  | nil => exact ⟨[], fun n done rest => rfl⟩
  | @char c body hquote hbackslash _ ih =>
    obtain ⟨text, ih⟩ := ih
    refine ⟨c :: text, fun n done rest => ?_⟩
    have hchar : readLiteralFrom 0 n done (c :: (body ++ '\x22' :: rest))
        = readLiteralFrom 0 (n + 1) (c :: done) (body ++ '\x22' :: rest) :=
      (SpellsChar.itself hquote hbackslash).readLiteralFrom_eq n done _
    rw [List.cons_append, hchar, ih, List.length_cons, Nat.add_right_comm n 1, Nat.add_assoc]
    simp
  | @escape c body hnumber _ ih =>
    obtain ⟨text, ih⟩ := ih
    obtain ⟨d, hdecode⟩ := exists_decodeEscape c
    refine ⟨d :: text, fun n done rest => ?_⟩
    have hnumber' : c = 'u' → (body ++ '\x22' :: rest).head? ≠ some '\x7b' := by
      cases body with
      | nil => exact fun _ => by simp
      | cons => exact hnumber
    have hescape : readLiteralFrom 0 n done ('\\' :: c :: (body ++ '\x22' :: rest))
        = readLiteralFrom 0 (n + 2) (d :: done) (body ++ '\x22' :: rest) :=
      readLiteralFrom_escape (List.cons_ne_nil c []) (hdecode _ hnumber')
    rw [List.cons_append, List.cons_append, hescape, ih, List.length_cons, List.length_cons,
      Nat.add_right_comm n 2, Nat.add_assoc]
    simp

/-- So the literal is read to its end. -/
theorem IsLiteralBody.exists_readLiteral (h : IsLiteralBody body) :
    ∃ contents, ∀ rest, readLiteral (quoted body ++ rest) = .ok (some contents, (quoted body).length) := by
  obtain ⟨text, hread⟩ := h.exists_readLiteralFrom
  exact ⟨text, fun rest => readLiteral_quoted fun n done => hread n done rest⟩

/-! ## Brackets in pairs -/

/-- The brackets of code. -/
def bracketPairs : List (Char × Char) := [('(', ')'), ('[', ']'), ('\x7b', '\x7d')]

/-- The characters that mean something in a list of parameters. -/
def listMarks : List Char := "()[]\x7b\x7d\x22/,".toList

/-- A text with its brackets in pairs, with closed literals and without comments. If `commas` is false,
there are commas in the brackets and in the literals only. -/
inductive IsBracketed : Bool → List Char → Prop
  | nil {commas : Bool} : IsBracketed commas []
  | char {commas : Bool} {c : Char} {text : List Char} (hc : c ∉ listMarks) (htext : IsBracketed commas text) :
      IsBracketed commas (c :: text)
  | comma {text : List Char} (htext : IsBracketed true text) : IsBracketed true (',' :: text)
  | slash {commas : Bool} {text : List Char} (hhead : ∀ d ∈ text.head?, d ≠ '/' ∧ d ≠ '*')
      (htext : IsBracketed commas text) : IsBracketed commas ('/' :: text)
  | literal {commas : Bool} {body text : List Char} (hbody : IsLiteralBody body)
      (htext : IsBracketed commas text) : IsBracketed commas (quoted body ++ text)
  | pair {commas : Bool} {opening closing : Char} {inner text : List Char}
      (hpair : (opening, closing) ∈ bracketPairs) (hinner : IsBracketed true inner)
      (htext : IsBracketed commas text) : IsBracketed commas (opening :: (inner ++ closing :: text))

namespace IsBracketed

theorem plain_append (hfront : ∀ c ∈ front, c ∉ listMarks) (h : IsBracketed commas text) :
    IsBracketed commas (front ++ text) := by
  induction front with
  | nil => exact h
  | cons c front ih =>
    obtain ⟨hc, hfront⟩ := List.forall_mem_cons.mp hfront
    exact .char hc (ih hfront)

theorem plain (htext : ∀ c ∈ text, c ∉ listMarks) : IsBracketed commas text := by
  have h : IsBracketed commas (text ++ []) := plain_append htext .nil
  rwa [List.append_nil] at h

/-- The search for the end of the list passes over it. -/
theorem findClose_eq (h : IsBracketed commas text) (hrest : ∀ d ∈ rest.head?, d ≠ '/' ∧ d ≠ '*')
    (hdepth : 0 < depth) (pos : Nat) :
    findClose pos 0 depth (text ++ rest) = findClose (pos + text.length) 0 depth rest := by
  have hlength : ∀ (pos : Nat) (c : Char) (text : List Char),
      pos + 1 + text.length = pos + (c :: text).length := fun pos c text => by
    rw [List.length_cons, Nat.add_right_comm, Nat.add_assoc]
  induction h generalizing pos depth rest with
  | nil => rfl
  | @char _ c text hc _ ih =>
    have hne : ∀ d ∈ listMarks, c ≠ d := fun d hd heq => hc (heq ▸ hd)
    rw [List.cons_append, findClose_char ⟨hne '(' (by decide), hne ')' (by decide)⟩
      (regionKind_filter_eq_none ⟨hne '/' (by decide), hne '\x22' (by decide)⟩ _), ih hrest hdepth, hlength]
  | comma _ ih =>
    rw [List.cons_append, findClose_char (by decide) (regionKind_filter_eq_none (by decide) _),
      ih hrest hdepth, hlength]
  | @slash _ text hhead _ ih =>
    have hhead' : ∀ d ∈ (text ++ rest).head?, d ≠ '/' ∧ d ≠ '*' := by
      cases text with
      | nil => exact hrest
      | cons => exact hhead
    rw [List.cons_append, findClose_slash hhead', ih hrest hdepth, hlength]
  | literal hbody _ ih =>
    obtain ⟨contents, hread⟩ := hbody.exists_readLiteral
    rw [List.append_assoc, findClose_literal rfl hread, ih hrest hdepth, List.length_append, Nat.add_assoc]
  | @pair _ opening closing inner text hpair _ _ ihinner ih =>
    have hclosing : ∀ d ∈ (closing :: (text ++ rest)).head?, d ≠ '/' ∧ d ≠ '*' := by
      have hpairs : ∀ pair ∈ bracketPairs, pair.2 ≠ '/' ∧ pair.2 ≠ '*' := by decide
      rintro d ⟨rfl⟩
      exact hpairs _ hpair
    -- round brackets change the depth, and the others do not
    obtain ⟨depth', hdepth', hopen, hclose⟩ : ∃ depth', 0 < depth'
        ∧ (∀ rest, findClose pos 0 depth (opening :: rest) = findClose (pos + 1) 0 depth' rest)
        ∧ ∀ pos rest, findClose pos 0 depth' (closing :: rest) = findClose (pos + 1) 0 depth rest := by
      obtain ⟨depth, rfl⟩ := Nat.exists_eq_succ_of_ne_zero hdepth.ne'
      simp only [bracketPairs, List.mem_cons, Prod.mk.injEq, List.not_mem_nil, or_false] at hpair
      rcases hpair with ⟨rfl, rfl⟩ | ⟨rfl, rfl⟩ | ⟨rfl, rfl⟩
      · exact ⟨depth + 2, Nat.succ_pos _, fun rest => rfl, fun pos rest => rfl⟩
      · exact ⟨depth + 1, hdepth, fun rest => rfl, fun pos rest => rfl⟩
      · exact ⟨depth + 1, hdepth, fun rest => rfl, fun pos rest => rfl⟩
    have htext : opening :: (inner ++ closing :: text) ++ rest
        = opening :: (inner ++ closing :: (text ++ rest)) := by simp
    have hend : pos + 1 + inner.length + 1 + text.length
        = pos + (opening :: (inner ++ closing :: text)).length := by
      simp only [List.length_cons, List.length_append]
      omega
    rw [htext, hopen, ihinner hclosing hdepth', hclose, ih hrest hdepth, hend]

end IsBracketed

/-! ## Parts of a list -/

/-- A text that the split of a list adds to the current part, inside of `level` brackets. -/
def IsPart (level : Int) (text : List Char) : Prop :=
  ∀ (left pos : Nat) (segments : Segments) (rest : List Char),
    splitSegments (text.length + left) pos 0 level segments (text ++ rest)
      = splitSegments left (pos + text.length) 0 level (segments.append text) rest

namespace IsPart

variable {level : Int} {inner more : List Char} {opening closing : Char}

theorem nil : IsPart level [] := by
  intro left pos segments rest
  simp [Segments.append]

theorem append (h : IsPart level text) (h' : IsPart level more) : IsPart level (text ++ more) := by
  intro left pos segments rest
  rw [List.append_assoc, List.length_append, Nat.add_assoc, h, h', Segments.append_append, Nat.add_assoc]

theorem cons (hquote : c ≠ '\x22') (hcomma : (c == ',' && level == 0) = false) (hchange : bracketChange c = 0)
    (h : IsPart level text) : IsPart level (c :: text) := by
  intro left pos segments rest
  rw [List.length_cons, Nat.add_right_comm, List.cons_append, splitSegments_push hquote hcomma, hchange,
    Int.add_zero, h, Segments.append_cons, Nat.add_right_comm pos, Nat.add_assoc]

theorem pair (hpair : (opening, closing) ∈ bracketPairs) (h : IsPart (level + 1) inner) :
    IsPart level (opening :: (inner ++ [closing])) := by
  have hpairs : ∀ pair ∈ bracketPairs, (pair.1 ≠ '\x22' ∧ pair.1 ≠ ',' ∧ bracketChange pair.1 = 1)
      ∧ pair.2 ≠ '\x22' ∧ pair.2 ≠ ',' ∧ bracketChange pair.2 = -1 := by decide
  obtain ⟨⟨hopening, hcomma, hopen⟩, hclosing, hcomma', hclose⟩ := hpairs _ hpair
  intro left pos segments rest
  have htext : opening :: (inner ++ [closing]) ++ rest = opening :: (inner ++ closing :: rest) := by simp
  have hlength : (opening :: (inner ++ [closing])).length + left = inner.length + (left + 1) + 1 := by
    simp only [List.length_cons, List.length_append, List.length_nil]
    omega
  have hend : pos + 1 + inner.length + 1 = pos + (opening :: (inner ++ [closing])).length := by
    simp only [List.length_cons, List.length_append, List.length_nil]
    omega
  have hsegments : ((segments.push opening).append inner).push closing
      = segments.append (opening :: (inner ++ [closing])) := by simp [Segments.append, Segments.push]
  rw [htext, hlength, splitSegments_push hopening (by simp [hcomma]), hopen, h,
    splitSegments_push hclosing (by simp [hcomma']), hclose, Int.add_neg_cancel_right, hend, hsegments]

end IsPart

/-- The split of the list adds it to one part inside of brackets, and outside if it has no commas there. -/
theorem IsBracketed.isPart {level : Int} (h : IsBracketed commas text) (hlevel : 0 ≤ level)
    (hcommas : commas = true → 0 < level) : IsPart level text := by
  induction h generalizing level with
  | nil => exact .nil
  | @char _ c text hc _ ih =>
    have hne : ∀ d ∈ listMarks, (c == d) = false := fun d hd => beq_false_of_ne fun heq => hc (heq ▸ hd)
    refine .cons ?_ ?_ ?_ (ih hlevel hcommas)
    · exact ne_of_beq_false (hne '\x22' (by decide))
    · rw [hne ',' (by decide), Bool.false_and]
    · simp [bracketChange, hne '(' (by decide), hne '[' (by decide), hne '\x7b' (by decide),
        hne ')' (by decide), hne ']' (by decide), hne '\x7d' (by decide)]
  | comma _ ih =>
    have hinside : (level == 0) = false := beq_false_of_ne (Int.ne_of_gt (hcommas rfl))
    exact .cons (by decide) (by rw [hinside, Bool.and_false]) (by decide) (ih hlevel hcommas)
  | slash _ _ ih => exact .cons (by decide) rfl (by decide) (ih hlevel hcommas)
  | literal hbody _ ih =>
    obtain ⟨contents, hread⟩ := hbody.exists_readLiteral
    refine IsPart.append (fun left pos segments rest => ?_) (ih hlevel hcommas)
    exact splitSegments_literal rfl hread left pos level segments rest
  | @pair _ opening closing inner text hpair _ _ ihinner ih =>
    have hinner : IsPart (level + 1) inner := ihinner (by omega) (fun _ => by omega)
    have htext : opening :: (inner ++ closing :: text) = opening :: (inner ++ [closing]) ++ text := by simp
    rw [htext]
    exact (IsPart.pair hpair hinner).append (ih hlevel hcommas)

/-! ## Entries -/

/-- An entry of a list of parameters that starts at `pos`, and the parameter that it binds: a name, a name with
a default, the rest of the arguments or a pattern, with blanks around its parts. It may be left out. -/
inductive IsEntry (pos : Nat) : Option Param → List Char → Prop
  | blank {blanks : List Char} (hblanks : ∀ c ∈ blanks, isCodeBlank c = true) : IsEntry pos none blanks
  | positional {blanks name blanks' : List Char} (hblanks : ∀ c ∈ blanks, isCodeBlank c = true)
      (hname : IsIdent name) (hblanks' : ∀ c ∈ blanks', isCodeBlank c = true) :
      IsEntry pos (some ⟨String.ofList name, .ofLength (pos + blanks.length) name.length, false⟩)
        (blanks ++ (name ++ blanks'))
  | named {blanks name blanks' value : List Char} (hblanks : ∀ c ∈ blanks, isCodeBlank c = true)
      (hname : IsIdent name) (hblanks' : ∀ c ∈ blanks', isCodeBlank c = true)
      (hvalue : IsBracketed false value) :
      IsEntry pos (some ⟨String.ofList name, .ofLength (pos + blanks.length) name.length, true⟩)
        (blanks ++ (name ++ (blanks' ++ ':' :: value)))
  | spread {blanks rest : List Char} (hblanks : ∀ c ∈ blanks, isCodeBlank c = true)
      (hrest : IsBracketed false rest) : IsEntry pos none (blanks ++ '.' :: '.' :: rest)
  | pattern {blanks inner blanks' : List Char} (hblanks : ∀ c ∈ blanks, isCodeBlank c = true)
      (hinner : IsBracketed true inner) (hblanks' : ∀ c ∈ blanks', isCodeBlank c = true) :
      IsEntry pos none (blanks ++ '(' :: (inner ++ ')' :: blanks'))

theorem eq_of_isCodeBlank (h : isCodeBlank c = true) : c = ' ' ∨ c = '\t' ∨ c = '\r' ∨ c = '\n' := by
  simpa [isCodeBlank, isInlineBlank, or_assoc] using h

theorem isIdentContinue_of_isCodeBlank (h : isCodeBlank c = true) : isIdentContinue c = false := by
  rcases eq_of_isCodeBlank h with rfl | rfl | rfl | rfl
  all_goals decide

theorem notMem_listMarks_of_isCodeBlank (h : isCodeBlank c = true) : c ∉ listMarks := by
  rcases eq_of_isCodeBlank h with rfl | rfl | rfl | rfl
  all_goals decide

theorem IsIdent.notMem_listMarks (h : IsIdent name) : ∀ c ∈ name, c ∉ listMarks := by
  have hmarks : ∀ c ∈ listMarks, ¬ isIdentContinue c = true := List.any_eq_false.mp (by decide)
  exact fun c hc hmem => hmarks c hmem (h.isIdentContinue_of_mem hc)

namespace IsEntry

/-- The brackets of an entry are in pairs, and there are no commas outside of them. -/
theorem isBracketed (h : IsEntry pos param text) : IsBracketed false text := by
  have hplain : ∀ {blanks : List Char}, (∀ c ∈ blanks, isCodeBlank c = true) → ∀ c ∈ blanks, c ∉ listMarks :=
    fun hblanks c hc => notMem_listMarks_of_isCodeBlank (hblanks c hc)
  cases h with
  | blank hblanks => exact .plain (hplain hblanks)
  | positional hblanks hname hblanks' =>
    exact .plain_append (hplain hblanks) (.plain_append hname.notMem_listMarks (.plain (hplain hblanks')))
  | named hblanks hname hblanks' hvalue =>
    exact .plain_append (hplain hblanks) (.plain_append hname.notMem_listMarks
      (.plain_append (hplain hblanks') (.char (by decide) hvalue)))
  | spread hblanks hrest => exact .plain_append (hplain hblanks) (.char (by decide) (.char (by decide) hrest))
  | pattern hblanks hinner hblanks' =>
    exact .plain_append (hplain hblanks) (.pair (by decide) hinner (.plain (hplain hblanks')))

theorem dropWhile_blanks (hblanks : ∀ c ∈ blanks, isCodeBlank c = true)
    (hrest : ∀ c ∈ rest.head?, isCodeBlank c = false) : (blanks ++ rest).dropWhile isCodeBlank = rest := by
  rw [List.dropWhile_append_of_pos hblanks]
  cases rest with
  | nil => rfl
  | cons c rest => rw [List.dropWhile_cons_of_neg (by simp [hrest c rfl])]

/-- A part that starts with no name binds none. -/
theorem param?_eq_none (hblanks : ∀ c ∈ blanks, isCodeBlank c = true)
    (hblank : ∀ c ∈ rest.head?, isCodeBlank c = false) (hstart : ∀ c ∈ rest.head?, isIdentStart c = false)
    (pos : Nat) : Segment.param? ⟨pos, blanks ++ rest⟩ = none := by
  have hident : identOf rest = [] := by
    cases rest with
    | nil => rfl
    | cons c rest => simp [identOf, hstart c rfl]
  simp [Segment.param?, dropWhile_blanks hblanks hblank, hident]

/-- A part that starts with a name binds it, if nothing or a colon stands behind the name. -/
theorem param?_name {blanks' : List Char} (hblanks : ∀ c ∈ blanks, isCodeBlank c = true) (hname : IsIdent name)
    (hblanks' : ∀ c ∈ blanks', isCodeBlank c = true) (hrest : ∀ c ∈ rest.head?, c = ':') (pos : Nat) :
    Segment.param? ⟨pos, blanks ++ (name ++ (blanks' ++ rest))⟩
      = some ⟨String.ofList name, .ofLength (pos + blanks.length) name.length, !rest.isEmpty⟩ := by
  have hstart : ∀ c ∈ (name ++ (blanks' ++ rest)).head?, isCodeBlank c = false := by
    obtain ⟨c, more, rfl, hc, -⟩ := hname.exists_start
    rintro d ⟨rfl⟩
    rw [← Bool.not_eq_true]
    intro hblank
    have hcontinue := isIdentContinue_of_isIdentStart hc
    rw [isIdentContinue_of_isCodeBlank hblank] at hcontinue
    cases hcontinue
  have hbody := dropWhile_blanks hblanks hstart
  have hbehind : ∀ c ∈ (blanks' ++ rest).head?, isIdentContinue c = false := by
    cases blanks' with
    | nil =>
      intro c hc
      rw [hrest c hc]
      decide
    | cons d blanks' =>
      rintro c ⟨rfl⟩
      exact isIdentContinue_of_isCodeBlank (hblanks' d List.mem_cons_self)
  have hrest' : (blanks' ++ rest).dropWhile isCodeBlank = rest := by
    refine dropWhile_blanks hblanks' fun c hc => ?_
    rw [hrest c hc]
    decide
  have hempty : name.isEmpty = false := by simpa using hname.1
  simp only [Segment.param?, hbody, hname.identOf_append hbehind, hempty, List.drop_left, hrest',
    List.length_append, Nat.add_sub_cancel, Bool.false_eq_true, if_false]
  cases rest with
  | nil => rfl
  | cons c rest =>
    rw [hrest c rfl]
    rfl

theorem param?_eq (h : IsEntry pos param text) : Segment.param? ⟨pos, text⟩ = param := by
  cases h with
  | blank hblanks =>
    rw [← List.append_nil text]
    exact param?_eq_none hblanks (by simp) (by simp) pos
  | @positional blanks name blanks' hblanks hname hblanks' =>
    have hparam := @param?_name [] name blanks blanks' hblanks hname hblanks' (by simp) pos
    rwa [List.append_nil] at hparam
  | named hblanks hname hblanks' =>
    refine param?_name hblanks hname hblanks' ?_ pos
    rintro c ⟨rfl⟩
    rfl
  | spread hblanks =>
    refine param?_eq_none hblanks ?_ ?_ pos
    all_goals
      rintro c ⟨rfl⟩
      decide
  | pattern hblanks =>
    refine param?_eq_none hblanks ?_ ?_ pos
    all_goals
      rintro c ⟨rfl⟩
      decide

end IsEntry

/-! ## Lists -/

/-- The text of a list of parameters that starts at `pos`, and its parameters in order. -/
inductive IsParamList : Nat → List Param → List Char → Prop
  | last {pos : Nat} {param : Option Param} {entry : List Char} (hentry : IsEntry pos param entry) :
      IsParamList pos param.toList entry
  | cons {pos : Nat} {param : Option Param} {params : List Param} {entry text : List Char}
      (hentry : IsEntry pos param entry) (htext : IsParamList (pos + entry.length + 1) params text) :
      IsParamList pos (param.toList ++ params) (entry ++ ',' :: text)

namespace IsParamList

/-- The list ends at the parenthesis behind it. -/
theorem findClose_eq (h : IsParamList pos params list) (p : Nat) (rest : List Char) :
    findClose p 0 1 (list ++ ')' :: rest) = .ok (some (p + list.length), []) := by
  induction h generalizing p with
  | last hentry =>
    rw [hentry.isBracketed.findClose_eq (by simp) Nat.one_pos]
    rfl
  | @cons _ _ _ entry text hentry _ ih =>
    have hcomma : findClose (p + entry.length) 0 1 (',' :: (text ++ ')' :: rest))
        = findClose (p + entry.length + 1) 0 1 (text ++ ')' :: rest) := rfl
    have hend : p + entry.length + 1 + text.length = p + (entry ++ ',' :: text).length := by
      simp only [List.length_append, List.length_cons]
      omega
    rw [List.append_assoc, List.cons_append, hentry.isBracketed.findClose_eq (by simp) Nat.one_pos, hcomma, ih,
      hend]

/-- The parts of the list bind its parameters. -/
theorem exists_parts (h : IsParamList pos params list) :
    ∃ parts : List Segment, parts.filterMap Segment.param? = params ∧ ∀ before rest,
      splitSegments list.length pos 0 0 { start := pos, before } (list ++ rest)
        = .ok (before.reverse ++ parts, []) := by
  induction h with
  | @last pos param entry hentry =>
    refine ⟨[⟨pos, entry⟩], ?_, fun before rest => ?_⟩
    · rw [List.filterMap_cons, hentry.param?_eq]
      cases param <;> rfl
    · have hpart : IsPart 0 entry := hentry.isBracketed.isPart (Int.le_refl 0) (by simp)
      have hentry := hpart 0 pos { start := pos, before } rest
      rw [Nat.add_zero] at hentry
      rw [hentry, splitSegments_zero]
      simp [Segments.toList, Segments.split, Segments.append]
  | @cons pos param params entry text hentry _ ih =>
    obtain ⟨parts, hparams, hsplit⟩ := ih
    refine ⟨⟨pos, entry⟩ :: parts, ?_, fun before rest => ?_⟩
    · rw [List.filterMap_cons, hentry.param?_eq, hparams]
      cases param <;> rfl
    · have hpart : IsPart 0 entry := hentry.isBracketed.isPart (Int.le_refl 0) (by simp)
      have hbefore : ((Segments.mk pos [] before).append entry).split (pos + entry.length + 1)
          = { start := pos + entry.length + 1, before := ⟨pos, entry⟩ :: before } := by
        simp [Segments.append, Segments.split]
      rw [List.length_append, List.append_assoc, hpart, List.length_cons, List.cons_append, splitSegments_comma,
        hbefore, hsplit]
      simp

end IsParamList

/-! ## Closures -/

/-- A closure is read with the parameters of its list, up to the parenthesis behind the list. -/
theorem readBinding_params {past : List Char} (topLevel : Bool)
    (hblanks : ∀ c ∈ blanks, isInlineBlank c = true) (hname : IsIdent name)
    (hlist : IsParamList ('(' :: (name.reverse ++ (blanks.reverse ++ past))).length params list)
    (rest : List Char) :
    readBinding topLevel (.between past (blanks ++ (name ++ '(' :: (list ++ ')' :: rest))))
      = .ok (.between (')' :: (list.reverse ++ '(' :: (name.reverse ++ (blanks.reverse ++ past)))) rest,
        if topLevel then
          [.binding ⟨String.ofList name, .ofLength (blanks.reverse ++ past).length name.length, params, true⟩]
        else []) := by
  rw [readBinding_closure topLevel hblanks hname]
  revert hlist
  generalize hbefore : name.reverse ++ (blanks.reverse ++ past) = before
  intro hlist
  obtain ⟨parts, hparams, hsplit⟩ := hlist.exists_parts
  have hclose : findClose before.length 0 0 ('(' :: (list ++ ')' :: rest))
      = .ok (some (before.length + 1 + list.length), []) :=
    hlist.findClose_eq (before.length + 1) rest
  rw [Group.read_of_closed hclose]
  simp only [Except.bind, closureResult, hsplit, Except.map, List.reverse_nil, List.nil_append, hparams,
    if_true]
  rfl

/-- Behind the list of a closure the line holds nothing. -/
theorem outlineFrom_body (past : List Char) :
    outlineFrom ⟨.between past " = 1\n".toList, [.embed 0 true true []]⟩ = .ok ⟨[], [], []⟩ := by
  have hruns : Runs ⟨.between past " = 1\n".toList, [.embed 0 true true []]⟩ []
      ⟨.between (" = 1".toList.reverse ++ past) ['\n'], [.embed 0 true true []]⟩ :=
    (Runs.one (t := ⟨.between (' ' :: past) "= 1\n".toList, _⟩) rfl rfl).thenFind
      ((Runs.one (t := ⟨.between ('=' :: ' ' :: past) " 1\n".toList, _⟩) rfl rfl).thenFind
        ((Runs.one (t := ⟨.between (' ' :: '=' :: ' ' :: past) "1\n".toList, _⟩) rfl rfl).thenFind
          (.one rfl rfl)))
  rw [hruns.outlineFrom_eq_of_nil, outlineFrom_lineEnd]

/-- The line of a closure holds one binding, which has the parameters of its list, and no issue. -/
theorem scan_params (hname : IsIdent name) (hlist : IsParamList (name.length + 6) params list) :
    scan ("#let ".toList ++ (name ++ '(' :: (list ++ ") = 1\n".toList)))
      = .ok ⟨[], [⟨String.ofList name, .ofLength 5 name.length, params, true⟩], []⟩ := by
  have henter : Runs ⟨.between [] ("#let ".toList ++ (name ++ '(' :: (list ++ ") = 1\n".toList))), []⟩ []
      ⟨.between ['#'] ("let".toList ++ ([' '] ++ (name ++ '(' :: (list ++ ") = 1\n".toList)))),
        [.embed 0 true true []]⟩ :=
    .one rfl rfl
  have hstarts : startsStatement (.embed 0 true true []) (.between ['#'] []) = true := rfl
  have hblanks : ∀ c ∈ [' '], isInlineBlank c = true := List.forall_mem_singleton.mpr rfl
  have hblank : ∀ text, ∀ c ∈ ([' '] ++ text).head?, isIdentContinue c = false := by
    rintro text c ⟨rfl⟩
    decide
  have hstart : ('(' :: (name.reverse ++ ([' '].reverse ++ ("let".toList.reverse ++ ['#'])))).length
      = name.length + 6 := by simp
  have hlist' : IsParamList ('(' :: (name.reverse ++ ([' '].reverse ++ ("let".toList.reverse ++ ['#'])))).length
      params list := hstart ▸ hlist
  have hread := readBinding_params true hblanks hname hlist' " = 1\n".toList
  rw [scan_eq_outlineFrom, henter.outlineFrom_eq_of_nil, outlineFrom_let rfl hstarts (hblank _)]
  refine (congrArg (Except.bind · _) hread).trans ?_
  show (outlineFrom ⟨.between _ " = 1\n".toList, [.embed 0 true true []]⟩).map _ = _
  rw [outlineFrom_body]
  rfl

/-- A name, a default with commas and brackets in a literal and in brackets, a pattern and the rest of the
arguments, on two lines and with a comma at the end. -/
theorem scan_params_sample :
    IsParamList 7 [⟨"a", ⟨7, 8⟩, false⟩, ⟨"b", ⟨11, 12⟩, true⟩]
      "a,\n b : g(\x22x,)\\\x22\x22, [c, \x7bd\x7d]) / 2 ,(p, q), ..rest,\n".toList
    ∧ scan "#let f(a,\n b : g(\x22x,)\\\x22\x22, [c, \x7bd\x7d]) / 2 ,(p, q), ..rest,\n) = 1\n".toList
      = .ok ⟨[], [⟨"f", ⟨5, 6⟩, [⟨"a", ⟨7, 8⟩, false⟩, ⟨"b", ⟨11, 12⟩, true⟩], true⟩], []⟩ := by
  have hplain : ∀ text : List Char, text.all (!listMarks.contains ·) = true → ∀ c ∈ text, c ∉ listMarks := by
    intro text htext c hc
    simpa using List.all_eq_true.mp htext c hc
  have hblanks : ∀ blanks : List Char, blanks.all isCodeBlank = true → ∀ c ∈ blanks, isCodeBlank c = true :=
    fun blanks => List.all_eq_true.mp
  have hbody : IsLiteralBody "x,)\\\x22".toList :=
    .char (by decide) (by decide) (.char (by decide) (by decide) (.char (by decide) (by decide)
      (.escape (by decide) .nil)))
  have hcurly : IsBracketed true ('\x7b' :: (['d'] ++ ['\x7d'])) :=
    .pair (by decide) (.plain (hplain _ rfl)) .nil
  have hsquare : IsBracketed true ('[' :: ("c, \x7bd\x7d".toList ++ [']'])) :=
    .pair (by decide) (.char (by decide) (.comma (.char (by decide) hcurly))) .nil
  have hround : IsBracketed true (quoted "x,)\\\x22".toList ++ ", [c, \x7bd\x7d]".toList) :=
    .literal hbody (.comma (.char (by decide) hsquare))
  have hslash : IsBracketed false "/ 2 ".toList := by
    refine .slash ?_ (.plain (hplain _ rfl))
    rintro d ⟨rfl⟩
    decide
  have hcall : IsBracketed false
      ('(' :: (quoted "x,)\\\x22".toList ++ ", [c, \x7bd\x7d]".toList ++ ')' :: " / 2 ".toList)) :=
    .pair (by decide) hround (.char (by decide) hslash)
  have hvalue : IsBracketed false (" g".toList
      ++ '(' :: (quoted "x,)\\\x22".toList ++ ", [c, \x7bd\x7d]".toList ++ ')' :: " / 2 ".toList)) :=
    .plain_append (hplain _ rfl) hcall
  have ha : IsEntry 7 (some ⟨"a", ⟨7, 8⟩, false⟩) ['a'] :=
    @IsEntry.positional 7 [] ['a'] [] (hblanks _ rfl) (by decide) (hblanks _ rfl)
  have hb : IsEntry 9 (some ⟨"b", ⟨11, 12⟩, true⟩) ("\n b : g".toList
      ++ '(' :: (quoted "x,)\\\x22".toList ++ ", [c, \x7bd\x7d]".toList ++ ')' :: " / 2 ".toList)) :=
    @IsEntry.named 9 "\n ".toList ['b'] [' '] _ (hblanks _ rfl) (by decide) (hblanks _ rfl) hvalue
  have hpattern : ∀ pos, IsEntry pos none ([] ++ '(' :: ("p, q".toList ++ ')' :: [])) := fun pos =>
    .pattern (hblanks _ rfl) (.char (by decide) (.comma (.plain (hplain _ rfl)))) (hblanks _ rfl)
  have hspread : ∀ pos, IsEntry pos none ([' '] ++ '.' :: '.' :: "rest".toList) := fun pos =>
    .spread (hblanks _ rfl) (.plain (hplain _ rfl))
  have hend : ∀ pos, IsEntry pos none ['\n'] := fun pos => .blank (hblanks _ rfl)
  have hname : IsIdent ['f'] := by decide
  have hlist := IsParamList.cons ha (.cons hb (.cons (hpattern _) (.cons (hspread _) (.last (hend _)))))
  constructor
  · refine Eq.mp (congrArg (IsParamList 7 _) ?_) hlist
    decide
  · refine Eq.trans (congrArg scan ?_) (scan_params hname hlist)
    decide

end TypstLint.Markup
