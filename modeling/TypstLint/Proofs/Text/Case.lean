import TypstLint.Text.Case

set_option autoImplicit false

/-! # Lowercase and ASCII

The lowercase form of a character above ASCII has a character above ASCII in it, but for one that
becomes a `k`. So a text whose lowercase form is plain ASCII, without a `k`, is ASCII itself, and was
lowercased letter by letter (`toLower_eq_iff`). -/

namespace TypstLint.Text

variable {c : Char} {cs w before : List Char}

/-- Characters that only ASCII characters have in their lowercase forms. -/
def IsBasic (c : Char) : Prop := c.toNat < 128 ∧ c ≠ 'k' ∧ c ≠ '\x00'

instance (c : Char) : Decidable (IsBasic c) := inferInstanceAs (Decidable (_ ∧ _ ∧ _))

theorem forall_isBasic_of_all (h : cs.all (IsBasic ·) = true) : ∀ c ∈ cs, IsBasic c :=
  fun c hc => of_decide_eq_true (List.all_eq_true.mp h c hc)

theorem toNat_ofNat {n : Nat} (h : n.isValidChar) : (Char.ofNat n).toNat = n := by
  rw [Char.ofNat, dif_pos h]
  rfl

/-- The shifts of the table lead to characters above ASCII, but for that of the Kelvin sign. -/
theorem lowerRows_spec : ∀ row ∈ lowerRows, row = (0x212A, 0x212A, 1, -8383)
    ∨ 128 ≤ (row.1 + row.2.2.2 : Int)
      ∧ ((row.2.1 + row.2.2.2 : Int) < 0xD800
        ∨ 0xDFFF < (row.1 + row.2.2.2 : Int) ∧ (row.2.1 + row.2.2.2 : Int) < 0x110000) := by
  decide +kernel

theorem lowerChar_kelvin : lowerChar '\u212a' = ['k'] := by decide +kernel

/-- A character that has no lowercase form in ASCII: one above ASCII that is not the Kelvin sign. -/
def IsForeign (c : Char) : Prop := 128 ≤ c.toNat ∧ c ≠ '\u212a'

instance (c : Char) : Decidable (IsForeign c) := inferInstanceAs (Decidable (_ ∧ _))

theorem exists_of_isForeign (h : IsForeign c) : ∃ x ∈ lowerChar c, 128 ≤ x.toNat := by
  unfold lowerChar
  rw [if_neg (Nat.not_lt.mpr h.1)]
  unfold mapByTable
  split
  · next image himage =>
    have hmem := List.mem_of_find?_eq_some himage
    simp only [lowerExpansions, List.mem_singleton, Prod.mk.injEq] at hmem
    obtain ⟨-, rfl⟩ := hmem
    exact ⟨Char.ofNat 0x307, by simp, by decide⟩
  · split
    · next hshift =>
      refine ⟨_, List.mem_singleton_self _, ?_⟩
      obtain ⟨⟨lo, hi, step, shift⟩, hrow, rfl⟩ := Option.map_eq_some_iff.mp hshift
      have hfound := List.find?_some hrow
      simp only [Bool.and_eq_true, decide_eq_true_eq] at hfound
      obtain ⟨⟨hlo, hhi⟩, -⟩ := hfound
      rcases lowerRows_spec _ (List.mem_of_find?_eq_some hrow) with hkelvin | ⟨hge, hvalid⟩
      · obtain ⟨rfl, rfl, -⟩ := Prod.mk.inj hkelvin
        exact absurd (Char.ofNat_toNat c ▸ congrArg Char.ofNat (Nat.le_antisymm hhi hlo)) h.2
      · dsimp only at hge hvalid ⊢
        rw [toNat_ofNat]
        · omega
        · unfold Nat.isValidChar
          omega
    · exact ⟨c, List.mem_singleton_self c, h.1⟩

theorem exists_of_lowerChar (h : 128 ≤ c.toNat) : ∃ x ∈ lowerChar c, ¬ IsBasic x := by
  by_cases hkelvin : c = '\u212a'
  · rw [hkelvin, lowerChar_kelvin]
    exact ⟨'k', List.mem_singleton_self _, fun hbasic => hbasic.2.1 rfl⟩
  · obtain ⟨x, hx, hge⟩ := exists_of_isForeign ⟨h, hkelvin⟩
    exact ⟨x, hx, fun hbasic => Nat.not_lt.mpr hge hbasic.1⟩

/-- ASCII texts are lowercased letter by letter. -/
theorem lowerAfter_of_ascii (h : ∀ c ∈ cs, c.toNat < 128) :
    lowerAfter before cs = cs.map Char.toLower := by
  induction cs generalizing before with
  | nil => rfl
  | cons c cs ih =>
    have hc := h c List.mem_cons_self
    have hsigma : (c == '\u03a3') = false := by
      refine beq_eq_false_iff_ne.mpr ?_
      rintro rfl
      exact absurd hc (by decide)
    rw [lowerAfter, hsigma, ih fun d hd => h d (List.mem_cons_of_mem c hd), lowerChar, if_pos hc]
    rfl

/-- What the lowercase form of a character has, that of a text with the character has, too. -/
theorem exists_of_lowerAfter {p : Char → Prop} (hsigma : p '\u03c2' ∧ p '\u03c3') (hmem : c ∈ cs)
    (hc : ∃ x ∈ lowerChar c, p x) : ∃ x ∈ lowerAfter before cs, p x := by
  induction cs generalizing before with
  | nil => cases hmem
  | cons d cs ih =>
    rw [lowerAfter]
    rcases List.mem_cons.mp hmem with rfl | hmem
    · have hhead : ∃ x ∈ (if c == '\u03a3' then
          if meetsCased before && !meetsCased cs then ['\u03c2'] else ['\u03c3']
          else lowerChar c), p x := by
        split
        · split
          · exact ⟨'\u03c2', List.mem_singleton_self _, hsigma.1⟩
          · exact ⟨'\u03c3', List.mem_singleton_self _, hsigma.2⟩
        · exact hc
      obtain ⟨x, hx, hp⟩ := hhead
      exact ⟨x, List.mem_append_left _ hx, hp⟩
    · obtain ⟨x, hx, hp⟩ := ih hmem
      exact ⟨x, List.mem_append_right _ hx, hp⟩

theorem ascii_of_lowerChar (h : ¬ IsForeign c) : ∀ x ∈ lowerChar c, x.toNat < 128 := by
  intro x hx
  by_cases hc : c.toNat < 128
  · have hascii : ∀ n < 128, (Char.ofNat n).toLower.toNat < 128 := by decide
    rw [lowerChar, if_pos hc] at hx
    have hlower := hascii c.toNat hc
    rwa [Char.ofNat_toNat, ← List.mem_singleton.mp hx] at hlower
  · obtain rfl : c = '\u212a' :=
      Decidable.byContradiction fun hne => h ⟨Nat.not_lt.mp hc, hne⟩
    rw [lowerChar_kelvin] at hx
    rw [List.mem_singleton.mp hx]
    decide

theorem ascii_of_lowerAfter (h : ∀ c ∈ cs, ¬ IsForeign c) :
    ∀ x ∈ lowerAfter before cs, x.toNat < 128 := by
  induction cs generalizing before with
  | nil => simp [lowerAfter]
  | cons c cs ih =>
    have hsigma : (c == '\u03a3') = false := by
      refine beq_eq_false_iff_ne.mpr ?_
      rintro rfl
      exact h _ List.mem_cons_self (by decide)
    intro x hx
    rw [lowerAfter, hsigma] at hx
    rcases List.mem_append.mp hx with hx | hx
    · exact ascii_of_lowerChar (h c List.mem_cons_self) x hx
    · exact ih (fun d hd => h d (List.mem_cons_of_mem c hd)) x hx

/-- The lowercase form of a text is ASCII unless a character has none in ASCII. -/
theorem exists_not_ascii_toLower_iff :
    (∃ x ∈ toLower cs, 128 ≤ x.toNat) ↔ ∃ c ∈ cs, IsForeign c := by
  constructor
  · rintro ⟨x, hx, hge⟩
    refine Classical.byContradiction fun hnone => ?_
    have hascii := ascii_of_lowerAfter (fun c hc hforeign => hnone ⟨c, hc, hforeign⟩) x hx
    exact Nat.not_lt.mpr hge hascii
  · rintro ⟨c, hc, hforeign⟩
    exact exists_of_lowerAfter ⟨by decide, by decide⟩ hc (exists_of_isForeign hforeign)

theorem toLower_of_not_ascii (h : 128 ≤ c.toNat) : c.toLower = c := by
  unfold Char.toLower
  rw [dif_neg]
  rintro ⟨-, hz⟩
  exact Nat.not_lt.mpr (Nat.le_trans h hz) (by decide)

/-- A text is lowercased to a basic one exactly if its ASCII letters are, and it has no others. -/
theorem toLower_eq_iff (h : ∀ x ∈ w, IsBasic x) : toLower cs = w ↔ cs.map Char.toLower = w := by
  by_cases hascii : ∀ c ∈ cs, c.toNat < 128
  · rw [toLower, lowerAfter_of_ascii hascii]
  · obtain ⟨c, hmem, hc⟩ : ∃ c ∈ cs, 128 ≤ c.toNat := by simpa using hascii
    refine iff_of_false ?_ ?_
    · rintro rfl
      have hsigma : ¬ IsBasic '\u03c2' ∧ ¬ IsBasic '\u03c3' := by decide
      obtain ⟨x, hx, hbasic⟩ := exists_of_lowerAfter hsigma hmem (exists_of_lowerChar hc)
      exact hbasic (h x hx)
    · rintro rfl
      have hlower := h _ (List.mem_map_of_mem hmem)
      rw [toLower_of_not_ascii hc] at hlower
      exact Nat.not_lt.mpr hc hlower.1

end TypstLint.Text
