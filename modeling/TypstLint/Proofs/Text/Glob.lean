import Mathlib.Tactic.ByContra
import TypstLint.Text.Glob

set_option autoImplicit false

/-! # What file name patterns match

A pattern with an open end, which is a star with nothing behind it that could refuse a character, goes on
matching when the text goes on (`HasOpenEnd.matchTokens_append`). Every other pattern can be stopped: behind
some end it matches no longer text than it did (`exists_not_matchTokens`). A pattern without wildcards
matches itself only. -/

namespace TypstLint.Text.Glob

variable {t : Token} {ts us : List Token} {cs more : List Char}

theorem anySuffix_iff {p : List Char → Bool} :
    anySuffix p cs = true ↔ ∃ a b, cs = a ++ b ∧ p b = true := by
  induction cs with
  | nil =>
    constructor
    · exact fun h => ⟨[], [], rfl, h⟩
    · rintro ⟨a, b, hab, h⟩
      rwa [(List.append_eq_nil_iff.mp hab.symm).2] at h
  | cons c cs ih =>
    rw [anySuffix, Bool.or_eq_true, ih]
    constructor
    · rintro (h | ⟨a, b, rfl, h⟩)
      · exact ⟨[], c :: cs, rfl, h⟩
      · exact ⟨c :: a, b, rfl, h⟩
    · rintro ⟨a, b, hab, h⟩
      cases a with
      | nil => exact .inl (hab ▸ h)
      | cons d a => exact .inr ⟨a, b, (List.cons.inj hab).2, h⟩

theorem matchTokens_star : matchTokens (.star :: ts) cs = true
    ↔ ∃ a b, cs = a ++ b ∧ matchTokens ts b = true := by
  rw [← anySuffix_iff]
  cases cs with
  | nil => rfl
  | cons => rfl

theorem matchTokens_cons (ht : t ≠ .star) : matchTokens (t :: ts) cs = true
    ↔ ∃ c rest, cs = c :: rest ∧ t.admits c = true ∧ matchTokens ts rest = true := by
  have hcons : ∀ c rest, matchTokens (t :: ts) (c :: rest) = (t.admits c && matchTokens ts rest) := by
    intro c rest
    cases t with
    | star => exact absurd rfl ht
    | anyChar | literal | oneOf => rfl
  have hnil : matchTokens (t :: ts) [] = false := by
    cases t with
    | star => exact absurd rfl ht
    | anyChar | literal | oneOf => rfl
  cases cs with
  | nil =>
    rw [hnil]
    exact ⟨nofun, fun ⟨_, _, heq, _⟩ => nomatch heq⟩
  | cons c rest =>
    rw [hcons, Bool.and_eq_true]
    constructor
    · exact fun h => ⟨c, rest, rfl, h⟩
    · rintro ⟨c', rest', heq, h⟩
      obtain ⟨rfl, rfl⟩ := List.cons.inj heq
      exact h

/-- One pattern behind another matches a text behind another. -/
theorem matchTokens_append : matchTokens (ts ++ us) cs = true
    ↔ ∃ a b, cs = a ++ b ∧ matchTokens ts a = true ∧ matchTokens us b = true := by
  induction ts generalizing cs with
  | nil =>
    constructor
    · exact fun h => ⟨[], cs, rfl, rfl, h⟩
    · rintro ⟨a, b, rfl, ha, hb⟩
      rwa [List.isEmpty_iff.mp ha]
  | cons t ts ih =>
    by_cases ht : t = .star
    · subst ht
      rw [List.cons_append, matchTokens_star]
      constructor
      · rintro ⟨a, b, rfl, h⟩
        obtain ⟨b, b', rfl, hb, hb'⟩ := ih.mp h
        exact ⟨a ++ b, b', (List.append_assoc a b b').symm, matchTokens_star.mpr ⟨a, b, rfl, hb⟩, hb'⟩
      · rintro ⟨a, b', rfl, ha, hb'⟩
        obtain ⟨a, b, rfl, hb⟩ := matchTokens_star.mp ha
        exact ⟨a, b ++ b', List.append_assoc a b b', ih.mpr ⟨b, b', rfl, hb, hb'⟩⟩
    · rw [List.cons_append, matchTokens_cons ht]
      constructor
      · rintro ⟨c, rest, rfl, hc, h⟩
        obtain ⟨a, b, rfl, ha, hb⟩ := ih.mp h
        exact ⟨c :: a, b, rfl, (matchTokens_cons ht).mpr ⟨c, a, rfl, hc, ha⟩, hb⟩
      · rintro ⟨a, b, rfl, ha, hb⟩
        obtain ⟨c, a, rfl, hc, ha⟩ := (matchTokens_cons ht).mp ha
        exact ⟨c, a ++ b, rfl, hc, ih.mpr ⟨a, b, rfl, ha, hb⟩⟩

/-- Without a star every element stands for one character. -/
theorem length_eq_of_matchTokens (hstar : .star ∉ ts) (h : matchTokens ts cs = true) :
    cs.length = ts.length := by
  induction ts generalizing cs with
  | nil => exact congrArg List.length (List.isEmpty_iff.mp h)
  | cons t ts ih =>
    obtain ⟨ht, hts⟩ := not_or.mp (mt List.mem_cons.mpr hstar)
    obtain ⟨c, rest, rfl, -, hrest⟩ := (matchTokens_cons (Ne.symm ht)).mp h
    rw [List.length_cons, List.length_cons, ih hts hrest]

/-! ## Open ends -/

/-- A pattern that ends in a star, with nothing behind it that could refuse a character. -/
def HasOpenEnd (ts : List Token) : Prop :=
  ∃ before behind, ts = before ++ .star :: behind ∧ ∀ t ∈ behind, ∀ c, t.admits c = true

theorem star_notMem_of_admits (h : ∀ t ∈ ts, ∀ c, t.admits c = true) : .star ∉ ts := by
  intro hmem
  have hstar : Token.star.admits 'x' = true := h _ hmem 'x'
  cases hstar

theorem matchTokens_of_admits (h : ∀ t ∈ ts, ∀ c, t.admits c = true) (hlength : cs.length = ts.length) :
    matchTokens ts cs = true := by
  induction ts generalizing cs with
  | nil => rw [List.length_eq_zero_iff.mp hlength]; rfl
  | cons t ts ih =>
    have ht : t ≠ .star := fun heq => star_notMem_of_admits h (heq ▸ List.mem_cons_self)
    obtain ⟨c, rest, rfl⟩ := List.exists_cons_of_length_eq_add_one hlength
    refine (matchTokens_cons ht).mpr ⟨c, rest, rfl, h t List.mem_cons_self c, ?_⟩
    exact ih (fun u hu => h u (List.mem_cons_of_mem t hu)) (Nat.succ.inj hlength)

/-- Behind a star it only matters that there are enough characters. -/
theorem matchTokens_star_iff_of_admits (h : ∀ t ∈ ts, ∀ c, t.admits c = true) :
    matchTokens (.star :: ts) cs = true ↔ ts.length ≤ cs.length := by
  rw [matchTokens_star]
  constructor
  · rintro ⟨a, b, rfl, hb⟩
    rw [← length_eq_of_matchTokens (star_notMem_of_admits h) hb, List.length_append]
    exact Nat.le_add_left _ _
  · intro hle
    refine ⟨_, _, (List.take_append_drop (cs.length - ts.length) cs).symm, matchTokens_of_admits h ?_⟩
    rw [List.length_drop]
    omega

/-- What matches a pattern with an open end can go on anyhow. -/
theorem HasOpenEnd.matchTokens_append (hopen : HasOpenEnd ts) (h : matchTokens ts cs = true)
    (more : List Char) : matchTokens ts (cs ++ more) = true := by
  obtain ⟨before, behind, rfl, hadmits⟩ := hopen
  obtain ⟨a, b, rfl, ha, hb⟩ := Glob.matchTokens_append.mp h
  have hle := (matchTokens_star_iff_of_admits hadmits).mp hb
  refine Glob.matchTokens_append.mpr ⟨a, b ++ more, List.append_assoc a b more, ha, ?_⟩
  rw [matchTokens_star_iff_of_admits hadmits, List.length_append]
  exact Nat.le_add_right_of_le hle

/-- Without an open end, some element behind the last star refuses a character. -/
theorem exists_refuses (hopen : ¬ HasOpenEnd ts) (hstar : .star ∈ ts) :
    ∃ before t behind c, ts = before ++ t :: behind ∧ .star ∉ t :: behind ∧ t.admits c = false := by
  obtain ⟨behind, before, hsplit, hbehind⟩ := List.eq_append_cons_of_mem (List.mem_reverse.mpr hstar)
  have hts : ts = before.reverse ++ .star :: behind.reverse := by
    rw [← List.reverse_reverse ts, hsplit, List.reverse_append, List.reverse_cons, List.append_assoc]
    rfl
  have hrefuses : ∃ t ∈ behind.reverse, ∃ c, t.admits c = false := by
    by_contra hall
    push Not at hall
    exact hopen ⟨_, _, hts, fun t ht c => (Bool.not_eq_false _).mp (hall t ht c)⟩
  obtain ⟨t, ht, c, hc⟩ := hrefuses
  obtain ⟨between, behind', hbehind'⟩ := List.append_of_mem ht
  have hnone : .star ∉ between ++ t :: behind' := hbehind' ▸ mt List.mem_reverse.mp hbehind
  refine ⟨before.reverse ++ .star :: between, t, behind', c, ?_, ?_, hc⟩
  · rw [hts, hbehind', List.append_assoc, List.cons_append]
  · exact fun hmem => hnone (List.mem_append_right between hmem)

/-- Without an open end, what matches cannot go on anyhow: there is an end that no longer text with it
matches. -/
theorem exists_not_matchTokens (hopen : ¬ HasOpenEnd ts) (h : matchTokens ts cs = true) :
    ∃ more, ∀ text : List Char, cs.length < text.length → matchTokens ts (text ++ more) = false := by
  by_cases hstar : .star ∈ ts
  · -- the end puts the character that is refused where the element looks at it
    obtain ⟨before, t, behind, c, rfl, hnone, hc⟩ := exists_refuses hopen hstar
    have ht : t ≠ .star := fun heq => hnone (heq ▸ List.mem_cons_self)
    refine ⟨c :: List.replicate behind.length 'x', fun text _ => Bool.eq_false_iff.mpr fun hmatch => ?_⟩
    obtain ⟨a, b, hab, -, hb⟩ := matchTokens_append.mp hmatch
    have hlength := length_eq_of_matchTokens hnone hb
    obtain ⟨-, rfl⟩ := List.append_inj' hab (by simp [hlength])
    obtain ⟨d, rest, heq, hd, -⟩ := (matchTokens_cons ht).mp hb
    rw [← (List.cons.inj heq).1, hc] at hd
    cases hd
  · refine ⟨[], fun text hlt => Bool.eq_false_iff.mpr fun hmatch => ?_⟩
    rw [List.append_nil] at hmatch
    have hlength := length_eq_of_matchTokens hstar h
    have hlength' := length_eq_of_matchTokens hstar hmatch
    omega

/-! ## Patterns without wildcards -/

/-- A text in which nothing stands for other characters. -/
def IsPlain (cs : List Char) : Prop := ∀ c ∈ cs, c ≠ '*' ∧ c ≠ '?' ∧ c ≠ '['

instance (cs : List Char) : Decidable (IsPlain cs) := List.decidableBAll _ cs

theorem tokens_of_isPlain (h : IsPlain cs) : tokens cs = cs.map .literal := by
  unfold tokens
  induction cs with
  | nil => rfl
  | cons c cs ih =>
    obtain ⟨⟨hstar, hany, hclass⟩, hcs⟩ := List.forall_mem_cons.mp h
    simp [tokensFrom, hstar, hany, hclass, ih hcs]

theorem matchTokens_map_literal {text : List Char} :
    matchTokens (cs.map .literal) text = true ↔ text = cs := by
  induction cs generalizing text with
  | nil => exact List.isEmpty_iff
  | cons c cs ih =>
    rw [List.map_cons, matchTokens_cons (by simp)]
    constructor
    · rintro ⟨d, rest, rfl, hd, hrest⟩
      rw [ih.mp hrest, ← beq_iff_eq.mp hd]
    · rintro rfl
      exact ⟨c, cs, rfl, beq_self_eq_true c, ih.mpr rfl⟩

end TypstLint.Text.Glob
