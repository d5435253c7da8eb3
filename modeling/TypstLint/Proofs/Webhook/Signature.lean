import TypstLint.Proofs.Digest.Hex
import TypstLint.Proofs.Distinct
import TypstLint.Proofs.Text.Blank
import TypstLint.Webhook.Signature

set_option autoImplicit false

/-! # Signed deliveries

What it takes for a delivery to be signed (`IsSigned`), said without the search and the comparison that
decide it (`verify_eq_ok_iff`). The keyed digest is not looked into. -/

namespace TypstLint.Webhook

variable {secret body : ByteArray} {headers : List (String × String)} {name value header : String}
  {alg : Digest.Algorithm}

/-! ## Headers -/

/-- Header names are the same whatever the case of their letters. -/
def SameName (n name : String) : Prop := n.toList.map Char.toLower = name.toList.map Char.toLower

instance (n name : String) : Decidable (SameName n name) :=
  inferInstanceAs (Decidable (_ = _))

/-- The headers have a value under a name: the last one, if there are several. -/
def Holds (headers : List (String × String)) (name value : String) : Prop :=
  ∃ before n after, headers = before ++ (n, value) :: after ∧ SameName n name ∧
    ∀ later ∈ after, ¬ SameName later.1 name

/-- The headers have nothing under a name. -/
def Lacks (headers : List (String × String)) (name : String) : Prop :=
  ∀ header ∈ headers, ¬ SameName header.1 name

section

variable {small : String} (hsmall : name.toList.map Char.toLower = small.toList)
  (hbasic : ∀ c ∈ small.toList, Text.IsBasic c)

include hsmall hbasic

theorem header?_eq : header? headers small =
    (headers.reverse.find? fun header => decide (SameName header.1 name)).map Prod.snd := by
  unfold header?
  congr 2
  funext ⟨n, _⟩
  dsimp only
  rw [beq_eq_decide, decide_eq_decide, SameName, hsmall, ← Text.toLower_eq_iff hbasic]
  constructor
  · rintro rfl
    exact String.toList_ofList.symm
  · intro h
    rw [h, String.ofList_toList]

theorem header?_eq_some_iff : header? headers small = some value ↔ Holds headers name value := by
  rw [header?_eq hsmall hbasic, Option.map_eq_some_iff]
  constructor
  · rintro ⟨⟨n, _⟩, hfind, rfl⟩
    obtain ⟨hname, after, before, hsplit, hafter⟩ := List.find?_eq_some_iff_append.mp hfind
    refine ⟨before.reverse, n, after.reverse, ?_, of_decide_eq_true hname, fun later hlater => ?_⟩
    · rw [← List.reverse_reverse headers, hsplit]
      simp
    · simpa using hafter later (List.mem_reverse.mp hlater)
  · rintro ⟨before, n, after, rfl, hsame, hlast⟩
    refine ⟨(n, value), List.find?_eq_some_iff_append.mpr
      ⟨decide_eq_true hsame, after.reverse, before.reverse, by simp, fun later hlater => ?_⟩, rfl⟩
    simpa using hlast later (List.mem_reverse.mp hlater)

theorem header?_eq_none_iff : header? headers small = none ↔ Lacks headers name := by
  rw [header?_eq hsmall hbasic, Option.map_eq_none_iff, List.find?_eq_none]
  simp only [List.mem_reverse, decide_eq_true_eq, Lacks]

end

/-! ## Signatures -/

/-- A header value is the signature of a body: the name of the hash function, and the keyed digest in
hexadecimal digits of either letter case. Blanks around it do not count. -/
def IsSignature (alg : Digest.Algorithm) (secret body : ByteArray) (value : String) : Prop :=
  ∃ digits, Text.trim value.toList = alg.name.toList ++ '=' :: digits ∧ digits ≠ [] ∧
    Digest.ofHex? digits = some (Digest.hmac alg secret body)

theorem equals_notMem_name (alg : Digest.Algorithm) : '=' ∉ alg.name.toList := by
  cases alg <;> decide

/-- Digits stand for the keyed digest if they are, in lower case, those it is written with. -/
theorem ofHex?_eq_hmac_iff {digits : List Char} :
    Digest.ofHex? digits = some (Digest.hmac alg secret body) ↔
      Text.toLower digits = (signatureOf alg secret body).toList := by
  rw [Digest.ofHex?_eq_some_iff, signatureOf, Text.toLower_eq_iff fun _ => Digest.isBasic_of_mem_toHex]

theorem checkSignature_eq_ok_iff :
    checkSignature secret body header alg value = .ok () ↔ IsSignature alg secret body value := by
  constructor
  · intro h
    unfold checkSignature at h
    split at h
    · next n signature hcut =>
      split at h
      · cases h
      · next hform =>
        dsimp only at h
        split at h
        · cases h
        · split at h
          · next heq =>
            obtain ⟨-, hvalue⟩ := Text.cut_eq_some_iff.mp hcut
            obtain ⟨hname, hne⟩ : String.ofList n = alg.name ∧ signature ≠ [] := by simpa using hform
            refine ⟨signature, ?_, hne, ?_⟩
            · rw [← hname, String.toList_ofList]
              exact hvalue
            · rw [ofHex?_eq_hmac_iff, ← beq_iff_eq.mp heq, String.toList_ofList]
          · cases h
    · cases h
  · rintro ⟨digits, hvalue, hne, hdigest⟩
    have hlower := ofHex?_eq_hmac_iff.mp hdigest
    have hascii : (Text.toLower digits).any (127 < ·.toNat) = false := by
      rw [hlower, List.any_eq_false]
      intro c hc
      have hbasic := Digest.isBasic_of_mem_toHex hc
      simpa using Nat.le_of_lt_succ hbasic.1
    rw [checkSignature, Text.cut_eq_some_iff.mpr ⟨equals_notMem_name alg, hvalue⟩]
    dsimp only
    rw [if_neg (by simp [hne]), if_neg (Bool.eq_false_iff.mp hascii), if_pos (by simp [hlower])]

/-- A delivery is signed: in the preferred header, or in the older one where that is missing. -/
inductive IsSigned (secret body : ByteArray) (headers : List (String × String)) : Prop
  | preferred (value : String) (held : Holds headers "X-Hub-Signature-256" value)
      (signature : IsSignature .sha256 secret body value)
  | older (value : String) (missing : Lacks headers "X-Hub-Signature-256")
      (held : Holds headers "X-Hub-Signature" value)
      (signature : IsSignature .sha1 secret body value)

theorem holds_preferred_iff :
    Holds headers "X-Hub-Signature-256" value ↔ header? headers "x-hub-signature-256" = some value :=
  (header?_eq_some_iff (by decide) (Text.forall_isBasic_of_all (by decide))).symm

theorem lacks_preferred_iff :
    Lacks headers "X-Hub-Signature-256" ↔ header? headers "x-hub-signature-256" = none :=
  (header?_eq_none_iff (by decide) (Text.forall_isBasic_of_all (by decide))).symm

theorem holds_older_iff :
    Holds headers "X-Hub-Signature" value ↔ header? headers "x-hub-signature" = some value :=
  (header?_eq_some_iff (by decide) (Text.forall_isBasic_of_all (by decide))).symm

theorem isSigned_iff_of_some (h : header? headers "x-hub-signature-256" = some value) :
    IsSigned secret body headers ↔ IsSignature .sha256 secret body value := by
  constructor
  · rintro (⟨value', held, signature⟩ | ⟨_, missing, _, _⟩)
    · rw [holds_preferred_iff, h] at held
      rwa [Option.some.inj held]
    · rw [lacks_preferred_iff, h] at missing
      cases missing
  · exact .preferred value (holds_preferred_iff.mpr h)

theorem isSigned_iff_of_none (h : header? headers "x-hub-signature-256" = none) :
    IsSigned secret body headers ↔
      ∃ value, header? headers "x-hub-signature" = some value ∧ IsSignature .sha1 secret body value := by
  constructor
  · rintro (⟨value, held, _⟩ | ⟨value, _, held, signature⟩)
    · rw [holds_preferred_iff, h] at held
      cases held
    · exact ⟨value, holds_older_iff.mp held, signature⟩
  · rintro ⟨value, held, signature⟩
    exact .older value (lacks_preferred_iff.mpr h) (holds_older_iff.mpr held) signature

/-- A delivery passes if there is a secret to sign with and it is signed. -/
theorem verify_eq_ok_iff :
    verify secret body headers = .ok () ↔ secret.isEmpty = false ∧ IsSigned secret body headers := by
  unfold verify
  split
  · next hempty => simp [hempty]
  · next hsecret =>
    rw [Bool.not_eq_true] at hsecret
    simp only [hsecret, true_and, signatureHeaders, List.findSome?]
    cases hpreferred : header? headers "x-hub-signature-256" with
    | some value => exact checkSignature_eq_ok_iff.trans (isSigned_iff_of_some hpreferred).symm
    | none =>
      rw [isSigned_iff_of_none hpreferred]
      cases holder : header? headers "x-hub-signature" with
      | some value => simp [checkSignature_eq_ok_iff]
      | none => simp

end TypstLint.Webhook
