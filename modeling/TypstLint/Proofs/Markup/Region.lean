import TypstLint.Markup.Region
import TypstLint.Proofs.Except

set_option autoImplicit false

/-! # The lengths of regions

A region that a text starts with has at least one character and lies within the text
(`Region.read_length`). -/

namespace TypstLint.Markup

variable {cs : List Char} {region : Region}

theorem readComment_length (depth n : Nat) (cs : List Char) :
    n ≤ (readComment depth n cs).length ∧ (readComment depth n cs).length ≤ n + cs.length := by
  fun_induction readComment depth n cs with
  | case1 => simp
  | case2 => simp
  | case3 n rest depth ih =>
    simp only [List.length_cons]
    omega
  | case4 depth n rest ih =>
    simp only [List.length_cons]
    omega
  | case5 depth n c rest _ _ ih =>
    simp only [List.length_cons]
    omega

theorem readRaw_length (ticks run n : Nat) (cs : List Char) :
    n ≤ (readRaw ticks run n cs).length ∧ (readRaw ticks run n cs).length ≤ n + cs.length := by
  induction cs generalizing run n with
  | nil => simp [readRaw]
  | cons c rest ih =>
    have hnext := fun run => ih run (n + 1)
    unfold readRaw
    simp only [List.length_cons]
    split
    · split
      · simp
      · have := hnext (run + 1)
        omega
    · have := hnext 0
      omega

theorem readLiteralFrom_length {skip n m : Nat} {done : List Char} {text? : Option (List Char)}
    (h : readLiteralFrom skip n done cs = .ok (text?, m)) : n ≤ m ∧ m ≤ n + cs.length := by
  induction cs generalizing skip n done with
  | nil =>
    simp only [readLiteralFrom, Except.ok.injEq, Prod.mk.injEq] at h
    simp [h.2]
  | cons c rest ih =>
    have hnext : ∀ {skip done}, readLiteralFrom skip (n + 1) done rest = .ok (text?, m) →
        n ≤ m ∧ m ≤ n + (rest.length + 1) := by
      intro skip done h
      have := ih h
      omega
    rw [List.length_cons]
    unfold readLiteralFrom at h
    split at h
    · exact hnext h
    · split at h
      · split at h
        · cases h
        · exact hnext h
      · split at h
        · simp only [Except.ok.injEq, Prod.mk.injEq] at h
          omega
        · exact hnext h

theorem readLiteral_length {m : Nat} {text? : Option (List Char)} (hcs : cs ≠ [])
    (h : readLiteral cs = .ok (text?, m)) : 0 < m ∧ m ≤ cs.length := by
  have hlength := readLiteralFrom_length h
  have hpos := List.length_pos_iff.mpr hcs
  rw [List.length_drop] at hlength
  omega

/-- How the text of a region starts. -/
def RegionKind.opening : RegionKind → List Char
  | .lineComment => ['/', '/']
  | .blockComment => ['/', '*']
  | .raw => ['\x60']
  | .string => ['\x22']

theorem RegionKind.exists_of_at? {kind : RegionKind} (h : RegionKind.at? cs = some kind) :
    ∃ rest, cs = kind.opening ++ rest := by
  unfold RegionKind.at? at h
  split at h
  · obtain rfl := Option.some.inj h
    exact ⟨_, rfl⟩
  · obtain rfl := Option.some.inj h
    exact ⟨_, rfl⟩
  · obtain rfl := Option.some.inj h
    exact ⟨_, rfl⟩
  · obtain rfl := Option.some.inj h
    exact ⟨_, rfl⟩
  · cases h

/-- A region has a character, and does not reach beyond the text. -/
theorem Region.read_length {kind : RegionKind} (hkind : RegionKind.at? cs = some kind)
    (h : Region.read kind cs = .ok region) : 0 < region.length ∧ region.length ≤ cs.length := by
  obtain ⟨rest, hcs⟩ := RegionKind.exists_of_at? hkind
  have hne : cs ≠ [] := by
    rintro rfl
    cases hkind
  have htake : ∀ p : Char → Bool, (cs.takeWhile p).length ≤ cs.length :=
    fun p => (List.takeWhile_sublist p).length_le
  cases kind with
  | lineComment =>
    obtain rfl := Except.ok.inj h
    refine ⟨?_, htake _⟩
    rw [hcs]
    simp [RegionKind.opening]
  | blockComment =>
    obtain rfl := Except.ok.inj h
    have hlength := readComment_length 0 2 (cs.drop 2)
    have htwo : 2 ≤ cs.length := by simp [hcs, RegionKind.opening]
    rw [List.length_drop] at hlength
    exact ⟨Nat.lt_of_lt_of_le Nat.two_pos hlength.1, by omega⟩
  | raw =>
    obtain rfl := Except.ok.inj h
    have hticks : 0 < (cs.takeWhile (· == '\x60')).length := by simp [hcs, RegionKind.opening]
    have hle := htake (· == '\x60')
    generalize (cs.takeWhile (· == '\x60')).length = ticks at hticks hle ⊢
    split
    · next htwo => exact ⟨Nat.two_pos, beq_iff_eq.mp htwo ▸ hle⟩
    · have hlength := readRaw_length ticks 0 ticks (cs.drop ticks)
      rw [List.length_drop] at hlength
      omega
  | string =>
    obtain ⟨⟨text?, m⟩, hliteral, rfl⟩ := map_eq_ok.mp h
    exact readLiteral_length hne hliteral

end TypstLint.Markup
