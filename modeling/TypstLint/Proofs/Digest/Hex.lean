import TypstLint.Digest.Block
import TypstLint.Proofs.Text.Blank
import TypstLint.Proofs.Text.Case
import TypstLint.Text.Numeral

set_option autoImplicit false

/-! # Hexadecimal digits

Digits in either letter case are read as bytes, and a text that is read is, in lower case, what its
bytes are written as. As a number they are read as the number that they write (`IsHexNumeral.readInt_eq`). -/

namespace TypstLint.Digest

open Text (digitValue?)

variable {c : Char} {cs : List Char} {n : Nat}

/-- The bytes that hexadecimal digits stand for, two digits for each. -/
def ofHex? : List Char → Option (List UInt8)
  | [] => some []
  | [_] => none
  | high :: low :: cs => do
    let h ← digitValue? 16 high
    let l ← digitValue? 16 low
    return UInt8.ofNat (16 * h + l) :: (← ofHex? cs)

theorem toHex_cons (b : UInt8) (bytes : List UInt8) :
    (toHex (b :: bytes)).toList =
      Nat.digitChar (b.toNat / 16) :: Nat.digitChar (b.toNat % 16) :: (toHex bytes).toList := by
  simp [toHex]

theorem isBasic_digitChar : ∀ n < 16, Text.IsBasic (Nat.digitChar n) := by decide

theorem isBasic_of_mem_toHex {bytes : List UInt8} (h : c ∈ (toHex bytes).toList) : Text.IsBasic c := by
  induction bytes with
  | nil => simp [toHex] at h
  | cons b bytes ih =>
    have hb := b.toNat_lt
    rw [toHex_cons] at h
    rcases List.mem_cons.mp h with rfl | h
    · exact isBasic_digitChar _ (by omega)
    · rcases List.mem_cons.mp h with rfl | h
      · exact isBasic_digitChar _ (by omega)
      · exact ih h

theorem digitValue?_lt (h : digitValue? 16 c = some n) : n < 16 :=
  of_decide_eq_true (Option.filter_eq_some_iff.mp h).2

theorem digitValue?_of_not_ascii (h : 128 ≤ c.toNat) (base : Nat) : digitValue? base c = none := by
  have hle : ∀ d : Char, d.toNat < 128 → ¬ c ≤ d := fun d hd hcd =>
    Nat.not_lt.mpr h (Nat.lt_of_le_of_lt hcd hd)
  simp [digitValue?, hle '9' (by decide), hle 'f' (by decide), hle 'F' (by decide)]

/-- A digit is written, in lower case, as the one with its value. -/
theorem digitValue?_eq_some_iff (hn : n < 16) :
    digitValue? 16 c = some n ↔ c.toLower = Nat.digitChar n := by
  have hascii : ∀ m < 128, ∀ n < 16,
      (digitValue? 16 (Char.ofNat m) = some n ↔ (Char.ofNat m).toLower = Nat.digitChar n) := by
    decide +kernel
  by_cases hc : c.toNat < 128
  · have h := hascii c.toNat hc n hn
    rwa [Char.ofNat_toNat] at h
  · refine iff_of_false ?_ ?_
    · rw [digitValue?_of_not_ascii (Nat.not_lt.mp hc)]
      exact Option.some_ne_none n ∘ Eq.symm
    · intro h
      rw [Text.toLower_of_not_ascii (Nat.not_lt.mp hc)] at h
      exact hc (h ▸ (isBasic_digitChar n hn).1)

theorem ofHex?_cons_cons_eq_some_iff {high low : Char} {b : UInt8} {bytes : List UInt8} :
    ofHex? (high :: low :: cs) = some (b :: bytes) ↔
      digitValue? 16 high = some (b.toNat / 16) ∧ digitValue? 16 low = some (b.toNat % 16) ∧
        ofHex? cs = some bytes := by
  have hb := b.toNat_lt
  simp only [ofHex?, bind, pure, Option.bind_eq_some_iff, Option.some.injEq, List.cons.injEq]
  constructor
  · rintro ⟨h, hhigh, l, hlow, bytes', hrest, rfl, rfl⟩
    have hh := digitValue?_lt hhigh
    have hl := digitValue?_lt hlow
    have hvalue : (UInt8.ofNat (16 * h + l)).toNat = 16 * h + l := Nat.mod_eq_of_lt (by omega)
    rw [hvalue, show (16 * h + l) / 16 = h by omega, show (16 * h + l) % 16 = l by omega]
    exact ⟨hhigh, hlow, hrest⟩
  · rintro ⟨hhigh, hlow, hrest⟩
    refine ⟨_, hhigh, _, hlow, bytes, hrest, ?_, rfl⟩
    rw [Nat.div_add_mod, UInt8.ofNat_toNat]

/-- The bytes of a text are those that are written as it, up to capitals. -/
theorem ofHex?_eq_some_iff {bytes : List UInt8} :
    ofHex? cs = some bytes ↔ cs.map Char.toLower = (toHex bytes).toList := by
  induction bytes generalizing cs with
  | nil => rcases cs with _ | ⟨high, _ | ⟨low, cs⟩⟩ <;> simp [ofHex?, toHex, Option.bind_eq_some_iff]
  | cons b bytes ih =>
    rcases cs with _ | ⟨high, _ | ⟨low, cs⟩⟩
    · simp [ofHex?, toHex]
    · simp [ofHex?, toHex]
    · have hb := b.toNat_lt
      rw [ofHex?_cons_cons_eq_some_iff, digitValue?_eq_some_iff (by omega),
        digitValue?_eq_some_iff (by omega), ih, toHex_cons]
      simp only [List.map_cons, List.cons.injEq]

example : ofHex? "0aFF".toList = some [10, 255] := by decide

end TypstLint.Digest

namespace TypstLint.Text

/-! ## Numbers in base 16 -/

variable {c : Char} {cs digits : List Char} {ds : List Nat} {n d : Nat}

/-- Whether digits write a number in base 16, in either letter case and with any number of zeros in front. -/
def IsHexNumeral (n : Nat) (digits : List Char) : Prop :=
  ∃ zeros, digits.map Char.toLower = List.replicate zeros '0' ++ Nat.toDigits 16 n

/-- The number that digits of base 16 stand for, behind the digits of another one. -/
def hexValue (n : Nat) (ds : List Nat) : Nat := ds.foldl (fun n d => n * 16 + d) n

theorem exists_hexDigits (n : Nat) :
    ∃ ds : List Nat, Nat.toDigits 16 n = ds.map Nat.digitChar ∧ (∀ d ∈ ds, d < 16) ∧ ds ≠ []
      ∧ hexValue 0 ds = n := by
  induction n using Nat.strongRecOn with
  | ind n ih =>
    by_cases hn : n < 16
    · have htext : Nat.toDigits 16 n = [n].map Nat.digitChar := by
        rw [Nat.toDigits_of_lt_base hn]
        rfl
      exact ⟨[n], htext, by simpa using hn, List.cons_ne_nil _ _, by simp [hexValue]⟩
    · obtain ⟨ds, htext, hds, -, hvalue⟩ := ih (n / 16) (by omega)
      have hlast : n % 16 < 16 := Nat.mod_lt n (by decide)
      have hsplit : Nat.toDigits 16 n = Nat.toDigits 16 (n / 16) ++ Nat.toDigits 16 (n % 16) := by
        rw [Nat.toDigits_append_toDigits (by decide) (by omega) hlast, Nat.div_add_mod]
      refine ⟨ds ++ [n % 16], ?_, ?_, by simp, ?_⟩
      · rw [hsplit, htext, Nat.toDigits_of_lt_base hlast, List.map_append]
        rfl
      · exact List.forall_mem_append.mpr ⟨hds, by simpa using hlast⟩
      · have hfirst : ds.foldl (fun n d => n * 16 + d) 0 = n / 16 := hvalue
        rw [hexValue, List.foldl_append, hfirst]
        exact Nat.div_add_mod' n 16

theorem hexValue_zeros (zeros : Nat) (ds : List Nat) : hexValue 0 (List.replicate zeros 0 ++ ds) = hexValue 0 ds := by
  induction zeros with
  | zero => rfl
  | succ zeros ih => exact ih

/-- The digits of a numeral and their values. -/
theorem IsHexNumeral.exists_digits (h : IsHexNumeral n digits) :
    ∃ ds : List Nat, digits.map Char.toLower = ds.map Nat.digitChar ∧ (∀ d ∈ ds, d < 16) ∧ ds ≠ []
      ∧ hexValue 0 ds = n := by
  obtain ⟨zeros, htext⟩ := h
  obtain ⟨ds, hdigits, hds, hne, hvalue⟩ := exists_hexDigits n
  refine ⟨List.replicate zeros 0 ++ ds, ?_, ?_, List.append_ne_nil_of_right_ne_nil _ hne, ?_⟩
  · rw [htext, hdigits, List.map_append, List.map_replicate]
    rfl
  · refine List.forall_mem_append.mpr ⟨fun d hd => ?_, hds⟩
    rw [List.eq_of_mem_replicate hd]
    decide
  · rw [hexValue_zeros, hvalue]

theorem readDigits_eq {afterDigit : Bool} (htext : digits.map Char.toLower = ds.map Nat.digitChar)
    (hds : ∀ d ∈ ds, d < 16) (hne : ds ≠ [] ∨ afterDigit = true) (value count : Nat) :
    readDigits 16 afterDigit value count digits = some (hexValue value ds, count + digits.length) := by
  induction ds generalizing digits value count afterDigit with
  | nil =>
    obtain rfl := List.map_eq_nil_iff.mp htext
    obtain rfl := hne.resolve_left fun h => h rfl
    rfl
  | cons d ds ih =>
    obtain ⟨c, digits, rfl, hc, hrest⟩ := List.map_eq_cons_iff.mp htext
    obtain ⟨hd, hds⟩ := List.forall_mem_cons.mp hds
    have hvalue := (Digest.digitValue?_eq_some_iff hd).mpr hc
    have hunderscore : ¬ (c == '_') = true := by
      rw [beq_iff_eq]
      rintro rfl
      cases hvalue
    rw [readDigits, if_neg hunderscore]
    simp only [hvalue]
    rw [ih hrest hds (.inr rfl), List.length_cons, Nat.add_assoc, Nat.add_comm 1]
    rfl

/-- A digit of base 16 is none of the other characters of a numeral. -/
theorem hexDigit_spec (h : digitValue? 16 c = some d) :
    c.toNat < 128 ∧ isAsciiBlank c = false ∧ c ∉ "-+xX\x7d".toList := by
  have hascii : ∀ m < 128, (digitValue? 16 (Char.ofNat m)).isSome = true →
      isAsciiBlank (Char.ofNat m) = false ∧ Char.ofNat m ∉ "-+xX\x7d".toList := by
    decide +kernel
  by_cases hc : c.toNat < 128
  · have hm := hascii c.toNat hc
    rw [Char.ofNat_toNat, h] at hm
    exact ⟨hc, hm rfl⟩
  · rw [Digest.digitValue?_of_not_ascii (Nat.not_lt.mp hc)] at h
    cases h

theorem asciiNumeral_eq_self (h : ∀ c ∈ cs, c.toNat < 128) : asciiNumeral cs = cs := by
  rw [asciiNumeral, List.map_congr_left fun c hc => if_pos (h c hc)]
  exact List.map_id' cs

theorem readSign_eq (h : ∀ c ∈ cs, c ∉ "-+xX\x7d".toList) : readSign cs = (false, cs) := by
  unfold readSign
  split
  · exact absurd (by decide) (h '-' List.mem_cons_self)
  · exact absurd (by decide) (h '+' List.mem_cons_self)
  · rfl

theorem dropHexMark_eq_self (h : ∀ c ∈ cs, c ∉ "-+xX\x7d".toList) : dropHexMark cs = cs := by
  have hmark : ∀ d ∈ cs, d ≠ 'x' ∧ d ≠ 'X' := by
    intro d hd
    constructor
    · rintro rfl
      exact h 'x' hd (by decide)
    · rintro rfl
      exact h 'X' hd (by decide)
  unfold dropHexMark
  split
  · simp at hmark
  · simp at hmark
  · simp at hmark
  · simp at hmark
  · rfl

theorem IsHexNumeral.notMem (h : IsHexNumeral n digits) :
    ∀ c ∈ digits, c.toNat < 128 ∧ isAsciiBlank c = false ∧ c ∉ "-+xX\x7d".toList := by
  obtain ⟨ds, htext, hds, -, -⟩ := h.exists_digits
  intro c hc
  obtain ⟨d, hd, heq⟩ := List.mem_map.mp (htext ▸ List.mem_map_of_mem hc)
  exact hexDigit_spec ((Digest.digitValue?_eq_some_iff (hds d hd)).mpr heq.symm)

/-- The digits of a number are read as the number. -/
theorem IsHexNumeral.readInt_eq (h : IsHexNumeral n digits) : readInt 16 digits = .ok n := by
  have hchars := h.notMem
  obtain ⟨ds, htext, hds, hne, hvalue⟩ := h.exists_digits
  have hplain : ∀ c ∈ digits, c ∉ "-+xX\x7d".toList := fun c hc => (hchars c hc).2.2
  have hread : readDigits 16 false 0 0 digits = some (n, 0 + digits.length) := by
    rw [readDigits_eq htext hds (.inl hne), hvalue]
  unfold readInt
  rw [asciiNumeral_eq_self fun c hc => (hchars c hc).1, trimWhile_eq_self fun c hc => (hchars c hc).2.1,
    readSign_eq hplain]
  simp only [dropHexMark_eq_self hplain, beq_self_eq_true, if_true, hread]
  rfl

end TypstLint.Text
