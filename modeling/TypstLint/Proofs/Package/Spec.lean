import TypstLint.Package.Spec
import TypstLint.Proofs.Distinct
import TypstLint.Proofs.Except
import TypstLint.Proofs.Text.Blank

set_option autoImplicit false

/-! # Specifications and versions, read and printed

No point stands in the numbers of a version, and no colon in a version: different versions of packages
have different texts, as long as no slash stands in their namespaces. A version that was read is printed as
it was written, without the blanks around it (`Version.toList_render_of_parse`): its numbers are written
without leading zeros. What is read are the texts of versions whose numbers are not too long
(`Version.parse_eq_ok_iff`). -/

namespace TypstLint

/-! ## Texts tell specifications apart -/

section

variable {α : Type} [BEq α] [LawfulBEq α] {x : α} {xs ys xs' ys' : List α}

/-- Texts that are cut at their first separators are the same in both parts. -/
theorem append_cons_inj_of_first (hxs : x ∉ xs) (hys : x ∉ ys) (h : xs ++ x :: xs' = ys ++ x :: ys') :
    xs = ys ∧ xs' = ys' := by
  have hfirst : xs = ys := by
    rw [← takeWhile_ne_append xs' hxs, h, takeWhile_ne_append ys' hys]
  subst hfirst
  exact ⟨rfl, List.cons_inj_right x |>.mp (List.append_cancel_left h)⟩

/-- Texts that are cut at their last separators are the same in both parts. -/
theorem append_cons_inj_of_last (hxs : x ∉ xs') (hys : x ∉ ys') (h : xs ++ x :: xs' = ys ++ x :: ys') :
    xs = ys ∧ xs' = ys' := by
  have hreverse : xs'.reverse ++ x :: xs.reverse = ys'.reverse ++ x :: ys.reverse := by
    simpa using congrArg List.reverse h
  obtain ⟨hlast, hfirst⟩ := append_cons_inj_of_first (mt List.mem_reverse.mp hxs)
    (mt List.mem_reverse.mp hys) hreverse
  exact ⟨List.reverse_injective hfirst, List.reverse_injective hlast⟩

end

theorem isDigit_of_mem_repr {n : Nat} {c : Char} (h : c ∈ n.repr.toList) : c.isDigit = true := by
  rw [Nat.toList_repr] at h
  exact Nat.isDigit_of_mem_toDigits (by decide) (by decide) h

theorem toList_repr_inj {m n : Nat} (h : m.repr.toList = n.repr.toList) : m = n := by
  rw [Nat.toList_repr, Nat.toList_repr] at h
  rw [← Nat.ofDigitChars_toDigits (b := 10) (n := m) (by decide) (by decide), h,
    Nat.ofDigitChars_toDigits (by decide) (by decide)]

theorem Version.toList_render (v : Version) :
    v.render.toList = v.major.repr.toList ++ '.' :: (v.minor.repr.toList ++ '.' :: v.patch.repr.toList) := by
  simp [Version.render, toString]

theorem Version.mem_render {v : Version} {c : Char} (h : c ∈ v.render.toList) :
    c.isDigit = true ∨ c = '.' := by
  rw [toList_render, List.mem_append, List.mem_cons, List.mem_append, List.mem_cons] at h
  rcases h with h | rfl | h | rfl | h
  · exact .inl (isDigit_of_mem_repr h)
  · exact .inr rfl
  · exact .inl (isDigit_of_mem_repr h)
  · exact .inr rfl
  · exact .inl (isDigit_of_mem_repr h)

/-- No other characters stand in the text of a version. -/
theorem Version.notMem_render {c : Char} (hdigit : c.isDigit = false) (hpoint : c ≠ '.') (v : Version) :
    c ∉ v.render.toList := by
  intro hmem
  rcases mem_render hmem with h | h
  · cases hdigit.symm.trans h
  · exact hpoint h

theorem Version.render_inj {v w : Version} (h : v.render = w.render) : v = w := by
  have hpoint (n : Nat) : '.' ∉ n.repr.toList := fun hmem => by cases isDigit_of_mem_repr hmem
  have htext := congrArg String.toList h
  rw [toList_render, toList_render] at htext
  obtain ⟨hmajor, htext⟩ := append_cons_inj_of_first (hpoint _) (hpoint _) htext
  obtain ⟨hminor, hpatch⟩ := append_cons_inj_of_first (hpoint _) (hpoint _) htext
  cases v
  cases w
  rw [Version.mk.injEq]
  exact ⟨toList_repr_inj hmajor, toList_repr_inj hminor, toList_repr_inj hpatch⟩

theorem Spec.toList_render (spec : Spec) :
    spec.render.toList = '@' :: (spec.namespaceName.toList ++ '/' :: spec.name.toList)
      ++ ':' :: spec.version.render.toList := by
  simp [Spec.render, Spec.versionless, toString]

/-- The text of a version of a package tells which one it is. -/
theorem Spec.render_inj {a b : Spec} (ha : '/' ∉ a.namespaceName.toList)
    (hb : '/' ∉ b.namespaceName.toList) (h : a.render = b.render) : a = b := by
  have hcolon (v : Version) : ':' ∉ v.render.toList := v.notMem_render rfl (by decide)
  have htext := congrArg String.toList h
  rw [toList_render, toList_render] at htext
  obtain ⟨hpackage, hversion⟩ := append_cons_inj_of_last (hcolon _) (hcolon _) htext
  obtain ⟨hnamespace, hname⟩ := append_cons_inj_of_first ha hb (List.cons.inj hpackage).2
  cases a
  cases b
  rw [Spec.mk.injEq]
  exact ⟨String.toList_inj.mp hnamespace, String.toList_inj.mp hname,
    Version.render_inj (String.toList_inj.mp hversion)⟩

/-! ## Reading and printing -/

open Text (digitsValue)

variable {digits cs : List Char} {value : String} {v : Version} {n : Nat}

/-! ## Numbers -/

theorem digitChar_of_isDigit {c : Char} (h : c.isDigit = true) :
    c.toNat - 48 < 10 ∧ Nat.digitChar (c.toNat - 48) = c := by
  obtain ⟨hlow, hhigh⟩ : 48 ≤ c.toNat ∧ c.toNat ≤ 57 := Char.isDigit_iff_toNat.mp h
  have hlt : c.toNat - 48 < 10 := by omega
  refine ⟨hlt, Char.toNat_inj.mp ?_⟩
  rw [Nat.toNat_digitChar_of_lt_ten hlt]
  omega

/-- Digits behind a number are those of the number that they make with it. -/
theorem toDigits_append_of_isDigit (h : ∀ c ∈ digits, c.isDigit = true) (hn : 0 < n) :
    Nat.toDigits 10 n ++ digits
      = Nat.toDigits 10 (digits.foldl (fun n c => n * 10 + (c.toNat - 48)) n) := by
  induction digits generalizing n with
  | nil => exact List.append_nil _
  | cons c rest ih =>
    obtain ⟨hlt, hc⟩ := digitChar_of_isDigit (h c List.mem_cons_self)
    have hstep : Nat.toDigits 10 n ++ [c] = Nat.toDigits 10 (n * 10 + (c.toNat - 48)) := by
      rw [Nat.mul_comm, ← Nat.toDigits_append_toDigits (by decide) hn hlt,
        Nat.toDigits_of_lt_base hlt, hc]
    rw [List.foldl_cons, ← ih (fun d hd => h d (List.mem_cons_of_mem c hd)) (by omega), ← hstep,
      List.append_assoc, List.singleton_append]

/-- A number of a version is printed as it is written. -/
theorem toDigits_digitsValue (h : isVersionNumber digits = true) :
    Nat.toDigits 10 (digitsValue digits) = digits := by
  simp only [isVersionNumber, Bool.and_eq_true, Bool.or_eq_true, List.all_eq_true] at h
  obtain ⟨⟨hne, hdigits⟩, hzero⟩ := h
  cases digits with
  | nil => cases hne
  | cons c rest =>
    obtain ⟨hlt, hc⟩ := digitChar_of_isDigit (hdigits c List.mem_cons_self)
    have hfirst : Nat.toDigits 10 (c.toNat - 48) = [c] := by rw [Nat.toDigits_of_lt_base hlt, hc]
    rw [digitsValue, List.foldl_cons, Nat.zero_mul, Nat.zero_add]
    by_cases hpos : 0 < c.toNat - 48
    · rw [← toDigits_append_of_isDigit (fun d hd => hdigits d (List.mem_cons_of_mem c hd)) hpos, hfirst,
        List.singleton_append]
    · -- a zero in front stands alone
      have hc0 : c = '0' := by
        rw [← hc, Nat.eq_zero_of_not_pos hpos]
        rfl
      have hrest : rest = [] := by simpa [hc0] using hzero
      rw [hrest, List.foldl_nil, hfirst]

theorem versionNumber_eq_ok (h : isVersionNumber digits = true) (hn : versionNumber digits = .ok n) :
    n.repr.toList = digits := by
  unfold versionNumber at hn
  split at hn
  · cases hn
  · obtain rfl := Except.ok.inj hn
    rw [Nat.toList_repr, toDigits_digitsValue h]

/-- A number above zero is printed without zeros in front. -/
theorem head?_toDigits_ne_zero (hn : 0 < n) : (Nat.toDigits 10 n).head? ≠ some '0' := by
  induction n using Nat.strongRecOn with
  | ind n ih =>
    by_cases hlt : n < 10
    · rw [Nat.toDigits_of_lt_base hlt]
      intro hzero
      have hdigit : n.digitChar = '0' := Option.some.inj hzero
      have hvalue := Nat.toNat_digitChar_of_lt_ten hlt
      have hzero : '0'.toNat = 48 := rfl
      rw [hdigit] at hvalue
      omega
    · have hsplit : Nat.toDigits 10 n = Nat.toDigits 10 (n / 10) ++ Nat.toDigits 10 (n % 10) := by
        rw [Nat.toDigits_append_toDigits (by decide) (by omega) (by omega), Nat.div_add_mod]
      rw [hsplit, List.head?_append_of_ne_nil _ Nat.toDigits_ne_nil]
      exact ih (n / 10) (by omega) (by omega)

theorem isVersionNumber_repr (n : Nat) : isVersionNumber n.repr.toList = true := by
  rw [Nat.toList_repr, isVersionNumber, Bool.and_eq_true, Bool.and_eq_true, Bool.or_eq_true]
  refine ⟨⟨?_, List.all_eq_true.mpr fun c hc => ?_⟩, ?_⟩
  · simp [Nat.toDigits_ne_nil]
  · exact Nat.isDigit_of_mem_toDigits (by decide) (by decide) hc
  · rcases n.eq_zero_or_pos with rfl | hn
    · exact .inr rfl
    · exact .inl (bne_iff_ne.mpr (head?_toDigits_ne_zero hn))

/-- A number of a version is read as what it is printed from, if it is not too long. -/
theorem versionNumber_repr (n : Nat) : versionNumber n.repr.toList =
    if n.repr.length ≤ Text.maxDigits then .ok n else .error (.numeralTooLong n.repr.length) := by
  have hvalue : Text.digitsValue n.repr.toList = n := by
    refine toList_repr_inj ?_
    rw [Nat.toList_repr, toDigits_digitsValue (isVersionNumber_repr n)]
  rw [versionNumber, hvalue, String.length_toList]
  by_cases hlength : n.repr.length ≤ Text.maxDigits
  · rw [if_pos hlength, if_neg (Nat.not_lt.mpr hlength)]
  · rw [if_neg hlength, if_pos (Nat.not_le.mp hlength)]

/-! ## Versions -/

theorem isBlank_of_isDigit_or_point {c : Char} (h : c.isDigit = true ∨ c = '.') :
    Text.isBlank c = false := by
  rcases h with h | rfl
  · obtain ⟨hlow, hhigh⟩ : 48 ≤ c.toNat ∧ c.toNat ≤ 57 := Char.isDigit_iff_toNat.mp h
    simp [Text.isBlank, Text.inRanges, Text.blankRanges]
    omega
  · rfl

theorem versionParts?_spec {major minor patch : List Char}
    (h : versionParts? cs = some (major, minor, patch)) :
    dropLineFeed cs = major ++ '.' :: (minor ++ '.' :: patch) ∧ isVersionNumber major = true
      ∧ isVersionNumber minor = true ∧ isVersionNumber patch = true := by
  unfold versionParts? at h
  split at h
  · next hsplit =>
    obtain ⟨hnumbers, heq⟩ := Option.ite_none_right_eq_some.mp h
    simp only [Option.some.injEq, Prod.mk.injEq] at heq
    obtain ⟨rfl, rfl, rfl⟩ := heq
    have hjoin : ['.'].intercalate (Text.splitOn '.' (dropLineFeed cs)) = dropLineFeed cs :=
      Text.intercalate_splitOn _
    rw [hsplit] at hjoin
    exact ⟨by simpa [List.intercalate] using hjoin.symm, by simpa [and_assoc] using hnumbers⟩
  · cases h

theorem dropLineFeed_trim (cs : List Char) : dropLineFeed (Text.trim cs) = Text.trim cs := by
  refine if_neg fun hlast => ?_
  have hblank : Text.isBlank '\n' = false :=
    Text.eq_false_of_getLast?_trimWhile (beq_iff_eq.mp hlast)
  cases hblank

/-- A version that was read is printed as it was written between blanks. -/
theorem Version.toList_render_of_parse (h : parse value = .ok v) :
    v.render.toList = Text.trim value.toList := by
  unfold parse at h
  split at h
  · cases h
  · next major minor patch hparts =>
    obtain ⟨htext, hmajor, hminor, hpatch⟩ := versionParts?_spec hparts
    obtain ⟨m, hm, h⟩ := bind_eq_ok.mp h
    obtain ⟨n, hn, h⟩ := bind_eq_ok.mp h
    obtain ⟨k, hk, h⟩ := bind_eq_ok.mp h
    obtain rfl := Except.ok.inj h
    rw [toList_render, versionNumber_eq_ok hmajor hm, versionNumber_eq_ok hminor hn,
      versionNumber_eq_ok hpatch hk, ← htext, dropLineFeed_trim]

/-- No blanks stand around a version that is printed. -/
theorem Version.trim_render (v : Version) : Text.trim v.render.toList = v.render.toList :=
  Text.trimWhile_eq_self fun _ hc => isBlank_of_isDigit_or_point (mem_render hc)

/-- A version that was read can be printed and read again. -/
theorem Version.parse_render (h : parse value = .ok v) : parse v.render = .ok v := by
  have hrender := toList_render_of_parse h
  unfold parse at h ⊢
  rw [trim_render, hrender]
  split at h
  · cases h
  · exact h

/-! ## Texts of versions -/

/-- Whether the numbers of a version have few enough digits. -/
def Version.IsShort (v : Version) : Prop :=
  v.major.repr.length ≤ Text.maxDigits ∧ v.minor.repr.length ≤ Text.maxDigits
    ∧ v.patch.repr.length ≤ Text.maxDigits

theorem versionParts?_render (v : Version) :
    versionParts? v.render.toList = some (v.major.repr.toList, v.minor.repr.toList, v.patch.repr.toList) := by
  have hpoint (n : Nat) : '.' ∉ n.repr.toList := fun hmem => by cases isDigit_of_mem_repr hmem
  have hline : dropLineFeed v.render.toList = v.render.toList := by
    rw [← v.trim_render, dropLineFeed_trim]
  rw [versionParts?, hline, Version.toList_render, Text.splitOn_append, Text.splitOn_append,
    Text.splitOn_of_notMem (hpoint _), Text.splitOn_of_notMem (hpoint _),
    Text.splitOn_of_notMem (hpoint _)]
  have hnumbers : (isVersionNumber v.major.repr.toList && isVersionNumber v.minor.repr.toList
      && isVersionNumber v.patch.repr.toList) = true := by
    rw [isVersionNumber_repr, isVersionNumber_repr, isVersionNumber_repr]
    rfl
  exact if_pos hnumbers

/-- What has the parts of a version is the text of a version. -/
theorem exists_render_of_versionParts? {major minor patch : List Char}
    (h : versionParts? cs = some (major, minor, patch)) : ∃ v : Version, dropLineFeed cs = v.render.toList := by
  obtain ⟨htext, hmajor, hminor, hpatch⟩ := versionParts?_spec h
  have hrepr (w : List Char) (hw : isVersionNumber w = true) : (Text.digitsValue w).repr.toList = w := by
    rw [Nat.toList_repr, toDigits_digitsValue hw]
  refine ⟨⟨Text.digitsValue major, Text.digitsValue minor, Text.digitsValue patch⟩, ?_⟩
  rw [htext, Version.toList_render, hrepr _ hmajor, hrepr _ hminor, hrepr _ hpatch]

namespace Version

/-- The text of a version is read as the version, unless a number in it is too long. -/
theorem parse_of_trim (h : Text.trim value.toList = v.render.toList) :
    v.IsShort ∧ parse value = .ok v ∨ ¬ v.IsShort ∧ ∃ digits, parse value = .error (.numeralTooLong digits) := by
  unfold parse IsShort
  rw [h, versionParts?_render]
  dsimp only
  rw [versionNumber_repr, versionNumber_repr, versionNumber_repr]
  by_cases hmajor : v.major.repr.length ≤ Text.maxDigits
  · by_cases hminor : v.minor.repr.length ≤ Text.maxDigits
    · by_cases hpatch : v.patch.repr.length ≤ Text.maxDigits
      · rw [if_pos hmajor, if_pos hminor, if_pos hpatch]
        exact .inl ⟨⟨hmajor, hminor, hpatch⟩, rfl⟩
      · rw [if_pos hmajor, if_pos hminor, if_neg hpatch]
        exact .inr ⟨fun hshort => hpatch hshort.2.2, _, rfl⟩
    · rw [if_pos hmajor, if_neg hminor]
      exact .inr ⟨fun hshort => hminor hshort.2.1, _, rfl⟩
  · rw [if_neg hmajor]
    exact .inr ⟨fun hshort => hmajor hshort.1, _, rfl⟩

/-- What is no text of a version is not read. -/
theorem parse_of_forall_trim_ne (h : ∀ v : Version, Text.trim value.toList ≠ v.render.toList) :
    parse value = .error (.badVersion value) := by
  unfold parse
  cases hparts : versionParts? (Text.trim value.toList) with
  | none => rfl
  | some parts =>
    obtain ⟨v, hv⟩ := exists_render_of_versionParts? hparts
    rw [dropLineFeed_trim] at hv
    exact absurd hv (h v)

theorem parse_eq_ok_iff :
    parse value = .ok v ↔ v.IsShort ∧ Text.trim value.toList = v.render.toList := by
  constructor
  · intro h
    have htrim := toList_render_of_parse h
    rcases parse_of_trim htrim.symm with ⟨hshort, -⟩ | ⟨-, digits, herror⟩
    · exact ⟨hshort, htrim.symm⟩
    · cases h.symm.trans herror
  · rintro ⟨hshort, htrim⟩
    rcases parse_of_trim htrim with ⟨-, h⟩ | ⟨hlong, -⟩
    · exact h
    · exact absurd hshort hlong

theorem parse_invalid_iff : (∃ e, parse value = .error e ∧ ∀ digits, e ≠ .numeralTooLong digits) ↔
    ¬ ∃ v : Version, Text.trim value.toList = v.render.toList := by
  constructor
  · rintro ⟨e, he, hinvalid⟩ ⟨v, htrim⟩
    rcases parse_of_trim htrim with ⟨-, h⟩ | ⟨-, digits, h⟩
    · cases he.symm.trans h
    · exact hinvalid digits (Except.error.inj (he.symm.trans h))
  · intro h
    exact ⟨_, parse_of_forall_trim_ne fun v hv => h ⟨v, hv⟩, fun _ => SpecError.noConfusion⟩

/-! ## The order of versions -/

section

variable {u w : Version} {vs : List Version}

theorem le_iff : v.le w = true ↔ v.major < w.major
    ∨ v.major = w.major ∧ (v.minor < w.minor ∨ v.minor = w.minor ∧ v.patch ≤ w.patch) := by
  simp [le]

theorem le_trans (huv : u.le v = true) (hvw : v.le w = true) : u.le w = true := by
  rw [le_iff] at huv hvw ⊢
  omega

theorem le_total (v w : Version) : (v.le w || w.le v) = true := by
  rw [Bool.or_eq_true, le_iff, le_iff]
  omega

theorem le_antisymm (hvw : v.le w = true) (hwv : w.le v = true) : v = w := by
  rw [le_iff] at hvw hwv
  cases v
  cases w
  rw [mk.injEq]
  dsimp only at hvw hwv
  omega

theorem le_rfl : v.le v = true := le_iff.mpr (.inr ⟨rfl, .inr ⟨rfl, Nat.le_refl _⟩⟩)

theorem mem_sort : v ∈ sort vs ↔ v ∈ vs := List.mem_mergeSort

theorem pairwise_sort (vs : List Version) : (sort vs).Pairwise fun v w => v.le w = true :=
  @List.pairwise_mergeSort Version le (fun _ _ _ => le_trans) le_total vs

/-- The last one of versions in ascending order is the greatest. -/
theorem greatest_of_getLast? (hsorted : vs.Pairwise fun v w => v.le w = true)
    (h : vs.getLast? = some v) : v ∈ vs ∧ ∀ w ∈ vs, w.le v = true := by
  obtain ⟨front, rfl⟩ := List.getLast?_eq_some_iff.mp h
  refine ⟨List.mem_concat_self, fun w hw => ?_⟩
  rcases List.mem_append.mp hw with hw | hw
  · exact (List.pairwise_append.mp hsorted).2.2 w hw v List.mem_cons_self
  · rw [List.mem_singleton.mp hw]
    exact le_rfl

/-- The last one of versions in ascending order only depends on which versions they are. -/
theorem getLast?_eq_of_mem_iff {ws : List Version} (hvs : vs.Pairwise fun v w => v.le w = true)
    (hws : ws.Pairwise fun v w => v.le w = true) (h : ∀ v, v ∈ vs ↔ v ∈ ws) :
    vs.getLast? = ws.getLast? := by
  cases hv : vs.getLast? with
  | none =>
    have hnil := List.getLast?_eq_none_iff.mp hv
    have hnil' : ws = [] := List.eq_nil_iff_forall_not_mem.mpr fun v hmem => by
      simpa [hnil] using (h v).mpr hmem
    rw [hnil', List.getLast?_nil]
  | some v =>
    obtain ⟨hmem, hgreatest⟩ := greatest_of_getLast? hvs hv
    cases hw : ws.getLast? with
    | none =>
      have hnil := List.getLast?_eq_none_iff.mp hw
      simpa [hnil] using (h v).mp hmem
    | some w =>
      obtain ⟨hmem', hgreatest'⟩ := greatest_of_getLast? hws hw
      rw [le_antisymm (hgreatest' v ((h v).mp hmem)) (hgreatest w ((h w).mpr hmem'))]

end

end Version

end TypstLint
