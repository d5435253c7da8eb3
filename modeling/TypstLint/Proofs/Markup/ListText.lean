import TypstLint.Proofs.Markup.Comment

set_option autoImplicit false

/-! # The text of a list

The text of a list in parentheses is read twice: once for its end, where comments do not count, and once
at its commas, where they do. `ListText` is a part of such a text that the first reading has passed when it
comes to its end (`ListText.findClose_eq`), and the second one, too, if there is no quote in its comments
(`ListText.splitsOver`). -/

namespace TypstLint.Markup

variable {cs text rest past : List Char} {c : Char} {pos depth depth' : Nat}

/-! ## The end of a group -/

/-- What is left of a region is passed over. -/
theorem findClose_skip (text rest : List Char) (pos depth : Nat) :
    findClose pos text.length depth (text ++ rest) = findClose (pos + text.length) 0 depth rest := by
  induction text generalizing pos with
  | nil => rfl
  | cons c text ih =>
    rw [List.cons_append, List.length_cons, findClose, ih, Nat.add_right_comm, Nat.add_assoc]

/-- A region that is closed is passed over, if it is no raw text. -/
theorem findClose_region (kind : RegionKind) (hkind : RegionKind.at? (text ++ rest) = some kind)
    (hraw : kind ≠ .raw) (hread : Region.read kind (text ++ rest) = .ok ⟨text.length, none⟩) :
    findClose pos 0 depth (text ++ rest) = findClose (pos + text.length) 0 depth rest := by
  have hpos := (Region.read_length hkind hread).1
  cases text with
  | nil => cases hpos
  | cons c text =>
    rw [List.cons_append] at hkind hread ⊢
    have hfilter : (RegionKind.at? (c :: (text ++ rest))).filter (· != .raw) = some kind := by
      rw [hkind, Option.filter_some, if_pos (bne_iff_ne.mpr hraw)]
    rw [findClose, hfilter]
    simp only [hread, Option.isSome_none, Bool.false_eq_true, if_false]
    rw [List.length_cons, Nat.add_sub_cancel, findClose_skip, Nat.add_right_comm, Nat.add_assoc]

/-- So is a character that is no parenthesis and starts no region. -/
theorem findClose_char (hc : c ≠ '(' ∧ c ≠ ')')
    (hregion : (RegionKind.at? (c :: rest)).filter (· != .raw) = none) :
    findClose pos 0 depth (c :: rest) = findClose (pos + 1) 0 depth rest := by
  have hopen : (c == '(') = false := beq_false_of_ne hc.1
  have hclose : (c == ')') = false := beq_false_of_ne hc.2
  rw [findClose, hregion]
  simp only [hopen, hclose, Bool.false_eq_true, if_false]

theorem regionKind_filter_eq_none (hc : c ≠ '/' ∧ c ≠ '\x22') (rest : List Char) :
    (RegionKind.at? (c :: rest)).filter (· != .raw) = none := by
  unfold RegionKind.at?
  split
  · next h => exact absurd (List.cons.inj h).1 hc.1
  · next h => exact absurd (List.cons.inj h).1 hc.1
  · rfl
  · next h => exact absurd (List.cons.inj h).1 hc.2
  · rfl

/-- A slash alone starts no region. -/
theorem findClose_slash (hrest : ∀ d ∈ rest.head?, d ≠ '/' ∧ d ≠ '*') :
    findClose pos 0 depth ('/' :: rest) = findClose (pos + 1) 0 depth rest := by
  refine findClose_char (by decide) ?_
  unfold RegionKind.at?
  split
  · next h => exact absurd rfl (hrest '/' (by rw [(List.cons.inj h).2]; rfl)).1
  · next h => exact absurd rfl (hrest '*' (by rw [(List.cons.inj h).2]; rfl)).2
  · next h => cases (List.cons.inj h).1
  · next h => cases (List.cons.inj h).1
  · rfl

/-- A literal that is closed is passed over. -/
theorem findClose_literal {literal contents : List Char} (hopen : literal.head? = some '\x22')
    (hread : ∀ rest, readLiteral (literal ++ rest) = .ok (some contents, literal.length)) (rest : List Char) :
    findClose pos 0 depth (literal ++ rest) = findClose (pos + literal.length) 0 depth rest := by
  have hregion : Region.read .string (literal ++ rest) = .ok ⟨literal.length, none⟩ := by
    rw [Region.read, hread]
    rfl
  have hkind : RegionKind.at? (literal ++ rest) = some .string := by
    obtain ⟨more, rfl⟩ := List.head?_eq_some_iff.mp hopen
    rfl
  exact findClose_region .string hkind (by decide) hregion

theorem findClose_comment (hcs : IsComment cs) :
    findClose pos 0 depth (cs ++ rest) = findClose (pos + cs.length) 0 depth rest := by
  cases hcs with
  | line body hbody =>
    have hregion : findClose pos 0 depth ('/' :: '/' :: body ++ '\n' :: rest)
        = findClose (pos + ('/' :: '/' :: body).length) 0 depth ('\n' :: rest) :=
      findClose_region .lineComment rfl (by decide) (read_lineComment hbody rest)
    have hline : ∀ pos, findClose pos 0 depth ('\n' :: rest) = findClose (pos + 1) 0 depth rest :=
      fun pos => findClose_char (by decide) (regionKind_filter_eq_none (by decide) rest)
    simpa [Nat.add_assoc] using hregion.trans (hline _)
  | block body hbody =>
    exact findClose_region .blockComment rfl (by decide) (read_blockComment hbody rest)

theorem findClose_blankOut (cs : List Char) :
    findClose pos 0 depth (blankOut cs ++ rest) = findClose (pos + cs.length) 0 depth rest := by
  induction cs generalizing pos with
  | nil => rfl
  | cons c cs ih =>
    have hchar : ∀ d, d = ' ' ∨ d = '\n' → findClose pos 0 depth (d :: (blankOut cs ++ rest))
        = findClose (pos + 1) 0 depth (blankOut cs ++ rest) := by
      rintro d (rfl | rfl)
      · exact findClose_char (by decide) (regionKind_filter_eq_none (by decide) _)
      · exact findClose_char (by decide) (regionKind_filter_eq_none (by decide) _)
    have hcons : blankOut (c :: cs) ++ rest
        = (if c = '\n' then c else ' ') :: (blankOut cs ++ rest) := rfl
    have hmem : (if c = '\n' then c else ' ') ∈ blankOut (c :: cs) := List.mem_cons_self
    rw [hcons, hchar _ (mem_blankOut hmem), ih, List.length_cons, Nat.add_right_comm, Nat.add_assoc]

/-- A group that is closed ends at a parenthesis. -/
theorem exists_of_findClose {skip close : Nat} {issues : List Issue}
    (h : findClose pos skip depth cs = .ok (some close, issues)) :
    ∃ body rest, cs = body ++ ')' :: rest ∧ close = pos + body.length := by
  induction cs generalizing pos skip depth with
  | nil => cases h
  | cons c more ih =>
    have hnext : ∀ {skip depth}, findClose (pos + 1) skip depth more = .ok (some close, issues) →
        ∃ body rest, c :: more = body ++ ')' :: rest ∧ close = pos + body.length := by
      intro skip depth h
      obtain ⟨body, rest, rfl, rfl⟩ := ih h
      exact ⟨c :: body, rest, rfl, by rw [List.length_cons, Nat.add_right_comm, Nat.add_assoc]⟩
    cases skip with
    | succ skip => exact hnext h
    | zero =>
      unfold findClose at h
      simp only at h
      split at h
      · split at h
        · cases h
        · split at h
          · cases (Prod.mk.inj (Except.ok.inj h)).1
          · exact hnext h
      · split at h
        · exact hnext h
        · split at h
          · next hclose =>
            split at h
            · obtain rfl := Option.some.inj (Prod.mk.inj (Except.ok.inj h)).1
              obtain rfl : c = ')' := beq_iff_eq.mp hclose
              exact ⟨[], more, rfl, rfl⟩
            · exact hnext h
          · exact hnext h

/-! ## The parts of a list -/

variable {left : Nat} {level : Int} {segments : Segments}

/-- Adds a text to the current part. -/
def Segments.append (segments : Segments) (text : List Char) : Segments :=
  { segments with text := text.reverse ++ segments.text }

theorem Segments.append_cons (segments : Segments) (c : Char) (text : List Char) :
    segments.append (c :: text) = (segments.push c).append text := by
  simp [append, push]

theorem Segments.append_append (segments : Segments) (text more : List Char) :
    (segments.append text).append more = segments.append (text ++ more) := by
  simp [append]

theorem splitSegments_skip (text : List Char) (left pos : Nat) (level : Int) (segments : Segments)
    (rest : List Char) :
    splitSegments (text.length + left) pos text.length level segments (text ++ rest)
      = splitSegments left (pos + text.length) 0 level (segments.append text) rest := by
  induction text generalizing pos segments with
  | nil => simp [Segments.append]
  | cons c text ih =>
    rw [List.length_cons, List.cons_append, Nat.add_right_comm, splitSegments, ih, Segments.append_cons,
      Nat.add_right_comm pos, Nat.add_assoc]

/-- A literal that is closed belongs to the current part. -/
theorem splitSegments_literal {literal contents : List Char} (hopen : literal.head? = some '\x22')
    (hread : ∀ rest, readLiteral (literal ++ rest) = .ok (some contents, literal.length)) (left pos : Nat)
    (level : Int) (segments : Segments) (rest : List Char) :
    splitSegments (literal.length + left) pos 0 level segments (literal ++ rest)
      = splitSegments left (pos + literal.length) 0 level (segments.append literal) rest := by
  obtain ⟨more, rfl⟩ := List.head?_eq_some_iff.mp hopen
  have hregion : Region.read .string ('\x22' :: (more ++ rest)) = .ok ⟨more.length + 1, none⟩ := by
    rw [Region.read, ← List.cons_append, hread]
    rfl
  rw [List.length_cons, List.cons_append, Nat.add_right_comm, splitSegments]
  simp only [beq_self_eq_true, if_true, hregion, Option.isSome_none, Bool.false_eq_true, if_false,
    Nat.add_sub_cancel]
  rw [splitSegments_skip, Segments.append_cons, Nat.add_right_comm pos, Nat.add_assoc]

/-- How many brackets a character opens. One that closes a bracket opens minus one. -/
def bracketChange (c : Char) : Int :=
  if c == '(' || c == '[' || c == '\x7b' then 1
  else if c == ')' || c == ']' || c == '\x7d' then -1
  else 0

/-- A character belongs to the current part if it is no quote and no comma outside brackets. -/
theorem splitSegments_push (hc : c ≠ '\x22') (hcomma : (c == ',' && level == 0) = false) (left pos : Nat)
    (segments : Segments) (rest : List Char) :
    splitSegments (left + 1) pos 0 level segments (c :: rest)
      = splitSegments left (pos + 1) 0 (level + bracketChange c) (segments.push c) rest := by
  have hquote : (c == '\x22') = false := beq_false_of_ne hc
  simp only [splitSegments, hquote, hcomma, Bool.false_eq_true, if_false, bracketChange]

/-- A comma outside brackets ends the current part. -/
theorem splitSegments_comma (left pos : Nat) (segments : Segments) (rest : List Char) :
    splitSegments (left + 1) pos 0 0 segments (',' :: rest)
      = splitSegments left (pos + 1) 0 0 (segments.split (pos + 1)) rest := rfl

theorem splitSegments_char (hc : c ≠ '\x22') (pos : Nat) (level : Int) (segments : Segments) :
    ∃ level' segments', ∀ left rest, splitSegments (left + 1) pos 0 level segments (c :: rest)
      = splitSegments left (pos + 1) 0 level' segments' rest := by
  cases hcomma : c == ',' && level == 0 with
  | true =>
    obtain ⟨rfl, rfl⟩ : c = ',' ∧ level = 0 := by simpa using hcomma
    exact ⟨0, segments.split (pos + 1), fun left rest => splitSegments_comma left pos segments rest⟩
  | false =>
    exact ⟨level + bracketChange c, segments.push c, fun left rest =>
      splitSegments_push hc hcomma left pos segments rest⟩

/-- The split of a list passes over a text, whatever stands behind it. -/
def SplitsOver (text : List Char) : Prop :=
  ∀ (pos : Nat) (level : Int) (segments : Segments), ∃ level' segments', ∀ left rest,
    splitSegments (text.length + left) pos 0 level segments (text ++ rest)
      = splitSegments left (pos + text.length) 0 level' segments' rest

namespace SplitsOver

theorem nil : SplitsOver [] := fun pos level segments => ⟨level, segments, fun left rest => by simp⟩

theorem append {more : List Char} (h : SplitsOver text) (h' : SplitsOver more) : SplitsOver (text ++ more) := by
  intro pos level segments
  obtain ⟨level₁, segments₁, hfirst⟩ := h pos level segments
  obtain ⟨level', segments', hlater⟩ := h' (pos + text.length) level₁ segments₁
  refine ⟨level', segments', fun left rest => ?_⟩
  rw [List.append_assoc, List.length_append, Nat.add_assoc, hfirst, hlater, Nat.add_assoc]

theorem cons (hc : c ≠ '\x22') (h : SplitsOver text) : SplitsOver (c :: text) := by
  have hfirst : SplitsOver [c] := by
    intro pos level segments
    obtain ⟨level', segments', hchar⟩ := splitSegments_char hc pos level segments
    refine ⟨level', segments', fun left rest => ?_⟩
    rw [List.length_singleton, Nat.add_comm 1 left, List.singleton_append, hchar]
  exact hfirst.append h

end SplitsOver

theorem splitsOver_of_no_quote (h : '\x22' ∉ text) : SplitsOver text := by
  induction text with
  | nil => exact .nil
  | cons c text ih =>
    rw [List.mem_cons, not_or] at h
    exact .cons (Ne.symm h.1) (ih h.2)

/-- A literal that is closed is passed over. -/
theorem splitsOver_literal {literal contents : List Char} (hopen : literal.head? = some '\x22')
    (hread : ∀ rest, readLiteral (literal ++ rest) = .ok (some contents, literal.length)) :
    SplitsOver literal :=
  fun pos level segments => ⟨level, segments.append literal, fun left rest =>
    splitSegments_literal hopen hread left pos level segments rest⟩

/-- What is wrong in the parts does not depend on where they are split. -/
theorem splitSegments_agree (left pos skip : Nat) (level level' : Int) (segments segments' : Segments)
    (cs : List Char) :
    Agree (fun parts parts' : List Segment × List Issue => parts.2 = parts'.2)
      (splitSegments left pos skip level segments cs)
      (splitSegments left pos skip level' segments' cs) := by
  induction cs generalizing left pos skip level level' segments segments' with
  | nil =>
    rw [splitSegments, splitSegments]
    exact .ok rfl
  | cons c rest ih =>
    cases left with
    | zero =>
      rw [splitSegments, splitSegments]
      exact .ok rfl
    | succ left =>
      cases skip with
      | succ skip => exact ih _ _ _ _ _ _ _
      | zero =>
        by_cases hquote : c = '\x22'
        · subst hquote
          simp only [splitSegments, beq_self_eq_true, if_true]
          cases Region.read .string ('\x22' :: rest) with
          | error fault => exact .error fault
          | ok region =>
            dsimp only
            split
            · exact .ok rfl
            · exact ih _ _ _ _ _ _ _
        · obtain ⟨level₁, segments₁, h⟩ := splitSegments_char hquote pos level segments
          obtain ⟨level₁', segments₁', h'⟩ := splitSegments_char hquote pos level' segments'
          rw [h, h']
          exact ih _ _ _ _ _ _ _

/-! ## The text before a comment -/

/-- A text in a group that is read from one depth of open parentheses to another one: characters,
parentheses, literals, and comments that are admitted. -/
inductive ListText (admits : List Char → Prop) : Nat → List Char → Nat → Prop
  | nil (depth : Nat) : ListText admits depth [] depth
  | char {depth depth' : Nat} {text : List Char} (c : Char) : c ∉ "()/\x22".toList →
      ListText admits depth text depth' → ListText admits depth (c :: text) depth'
  | slash {depth depth' : Nat} {text : List Char} (d : Char) : d ≠ '/' → d ≠ '*' →
      ListText admits depth (d :: text) depth' → ListText admits depth ('/' :: d :: text) depth'
  | opening {depth depth' : Nat} {text : List Char} :
      ListText admits (depth + 1) text depth' → ListText admits depth ('(' :: text) depth'
  | closing {depth depth' : Nat} {text : List Char} :
      ListText admits (depth + 1) text depth' → ListText admits (depth + 2) (')' :: text) depth'
  | literal {depth depth' : Nat} {text : List Char} (literal contents : List Char) :
      literal.head? = some '\x22' →
      (∀ rest, readLiteral (literal ++ rest) = .ok (some contents, literal.length)) →
      ListText admits depth text depth' → ListText admits depth (literal ++ text) depth'
  | comment {depth depth' : Nat} {text : List Char} (cs : List Char) : IsComment cs → admits cs →
      ListText admits depth text depth' → ListText admits depth (cs ++ text) depth'

variable {admits : List Char → Prop}

/-- A text without parentheses, quotes and slashes is read at one depth. -/
theorem listText_of_notMem (htext : ∀ c ∈ text, c ∉ "()/\x22".toList) (depth : Nat) :
    ListText admits depth text depth := by
  induction text with
  | nil => exact .nil depth
  | cons c text ih =>
    obtain ⟨hc, htext⟩ := List.forall_mem_cons.mp htext
    exact .char c hc (ih htext)

/-- The search for the end of the group passes over it. -/
theorem ListText.findClose_eq (h : ListText admits depth text depth') (pos : Nat) (rest : List Char) :
    findClose pos 0 depth (text ++ rest) = findClose (pos + text.length) 0 depth' rest := by
  have hlength : ∀ (pos : Nat) (c : Char) (text : List Char),
      pos + 1 + text.length = pos + (c :: text).length := fun pos c text => by
    rw [List.length_cons, Nat.add_right_comm, Nat.add_assoc]
  induction h generalizing pos with
  | nil => rfl
  | char c hc _ ih =>
    have hne : ∀ d ∈ "()/\x22".toList, c ≠ d := fun d hd heq => hc (heq ▸ hd)
    rw [List.cons_append, findClose_char ⟨hne '(' (by decide), hne ')' (by decide)⟩
      (regionKind_filter_eq_none ⟨hne '/' (by decide), hne '\x22' (by decide)⟩ _), ih, hlength]
  | @slash _ _ text d hd hd' _ ih =>
    have hhead : ∀ e ∈ (d :: text ++ rest).head?, e ≠ '/' ∧ e ≠ '*' := by
      rintro e ⟨rfl⟩
      exact ⟨hd, hd'⟩
    rw [List.cons_append, findClose_slash hhead, ih, hlength]
  | @opening depth _ text _ ih =>
    have hopen : findClose pos 0 depth ('(' :: (text ++ rest))
        = findClose (pos + 1) 0 (depth + 1) (text ++ rest) := rfl
    rw [List.cons_append, hopen, ih, hlength]
  | @closing depth _ text _ ih =>
    have hclose : findClose pos 0 (depth + 2) (')' :: (text ++ rest))
        = findClose (pos + 1) 0 (depth + 1) (text ++ rest) := rfl
    rw [List.cons_append, hclose, ih, hlength]
  | literal literal contents hopen hread _ ih =>
    rw [List.append_assoc, findClose_literal hopen hread, ih, List.length_append, Nat.add_assoc]
  | comment cs hcs _ _ ih =>
    rw [List.append_assoc, findClose_comment hcs, ih, List.length_append, Nat.add_assoc]

/-- So does the split of the list, if there is no quote in its comments. -/
theorem ListText.splitsOver (h : ListText ('\x22' ∉ ·) depth text depth') : SplitsOver text := by
  induction h with
  | nil => exact .nil
  | char c hc _ ih =>
    refine .cons (fun heq => hc ?_) ih
    rw [heq]
    decide
  | slash d _ _ _ ih => exact .cons (by decide) ih
  | opening _ ih => exact .cons (by decide) ih
  | closing _ ih => exact .cons (by decide) ih
  | literal literal contents hopen hread _ ih => exact (splitsOver_literal hopen hread).append ih
  | comment cs _ hquote _ ih => exact (splitsOver_of_no_quote hquote).append ih

end TypstLint.Markup
