import TypstLint.Proofs.Except
import TypstLint.Proofs.Webhook.Signature
import TypstLint.Webhook.Endpoint

set_option autoImplicit false

/-! # Scheduled checks and refused deliveries

A check is scheduled for a signed delivery whose body asks for one, and for nothing else
(`respond_schedules_iff`). A delivery that is not signed is refused (`receive_refuses_iff`). -/

namespace TypstLint.Webhook

variable {secret : ByteArray} {method : String} {r : Request} {request : CheckRequest}
  {result : Except EndpointError Reply}

/-- A check is to be made after a reply. Where there is no reply, there is nothing to be made. -/
def Schedules (result : Except EndpointError Reply) (request : CheckRequest) : Prop :=
  ∃ reply, result = .ok reply ∧ reply.accepted = some request

/-- The body of a delivery asks for a check, as an event of the kind that its header names. -/
def AsksFor (r : Request) (request : CheckRequest) : Prop :=
  parse ((firstHeader? r.headers "x-github-event").getD "") r.body
    (firstHeader? r.headers "x-github-delivery") = .ok (some request)

/-! ## What schedules nothing -/

theorem schedules_ok_iff {reply : Reply} :
    Schedules (.ok reply) request ↔ reply.accepted = some request := by
  simp [Schedules]

theorem not_schedules_error (e : EndpointError) : ¬ Schedules (.error e) request := by
  rintro ⟨_, h, _⟩
  cases h

theorem not_schedules_refusal (status : Nat) (detail : String) :
    ¬ Schedules (.ok (.refusal status detail)) request := by
  simp [schedules_ok_iff, Reply.refusal]

/-- The body of a reply does not matter. -/
theorem schedules_map_iff {f : Reply → Reply} (hf : ∀ reply, (f reply).accepted = reply.accepted) :
    Schedules (result.map f) request ↔ Schedules result request := by
  cases result with
  | error e => exact iff_of_false (not_schedules_error e) (not_schedules_error e)
  | ok reply => rw [Except.map, schedules_ok_iff, schedules_ok_iff, hf]

/-! ## From the signature to the route -/

theorem receiveSigned_schedules_iff : Schedules (receiveSigned r) request ↔ AsksFor r request := by
  unfold receiveSigned AsksFor
  dsimp only
  split
  · next asked h => simp [h, schedules_ok_iff, Reply.accept]
  · next h => simp [h, schedules_ok_iff, Reply.ignored]
  · next h => simp [h, not_schedules_error]
  · next h => simp [h, not_schedules_error]
  · next h => simp [h, not_schedules_refusal]

theorem receive_schedules_iff : Schedules (receive secret r) request ↔
    verify secret r.body r.headers = .ok () ∧ AsksFor r request := by
  unfold receive
  split
  · next h => simp [h, receiveSigned_schedules_iff]
  · next h => simp [h, not_schedules_error]
  · next h => simp [h, not_schedules_refusal]

theorem not_schedules_route (hhook : routedPath r.path ≠ "/github-hook") :
    ¬ Schedules (route secret method r) request := by
  intro hschedules
  unfold route at hschedules
  dsimp only at hschedules
  split at hschedules
  · exact not_schedules_refusal _ _ hschedules
  · next allowed hlookup =>
    split at hschedules
    · exact not_schedules_refusal _ _ hschedules
    · split at hschedules
      · cases schedules_ok_iff.mp hschedules
      · next hroot =>
        -- there are no paths but the two
        simp [routes, List.lookup_cons, beq_eq_false_iff_ne.mpr hhook, Bool.eq_false_iff.mpr hroot]
          at hlookup

theorem route_schedules_iff : Schedules (route secret method r) request ↔
    routedPath r.path = "/github-hook" ∧ method = "POST" ∧ Schedules (receive secret r) request := by
  by_cases hhook : routedPath r.path = "/github-hook"
  · have hallowed : routes.lookup "/github-hook" = some "POST" := rfl
    simp only [route, hhook, hallowed, true_and]
    split
    · next hmethod =>
      have hne : method ≠ "POST" := by simpa using hmethod
      exact iff_of_false (not_schedules_refusal _ _) fun h => hne h.1
    · next hmethod =>
      have heq : method = "POST" := by simpa using hmethod
      simp [heq]
  · exact iff_of_false (not_schedules_route hhook) fun h => hhook h.1

/-- A request schedules a check exactly if it is posted to the endpoint for deliveries, is signed with
the secret, which may not be empty, and has a body that asks for that check. -/
theorem respond_schedules_iff : Schedules (respond secret r) request ↔
    routedPath r.path = "/github-hook" ∧ r.method.map Char.toUpper = "POST" ∧
      secret.isEmpty = false ∧ IsSigned secret r.body r.headers ∧ AsksFor r request := by
  rw [respond, schedules_map_iff, route_schedules_iff, receive_schedules_iff, verify_eq_ok_iff, and_assoc]
  intro reply
  split <;> rfl

end TypstLint.Webhook

/-! ## Refused deliveries

A delivery that is not signed is refused for one of four reasons, and the endpoint answers 401. The
exception is a signature with a character that has no lowercase form in ASCII: it cannot be compared, and
the endpoint has no reply (`receive_refuses_iff`). -/

namespace TypstLint.Webhook

variable {secret body : ByteArray} {headers : List (String × String)} {header value : String}
  {alg : Digest.Algorithm} {digits : List Char} {error : SignatureError} {r : Request}

/-! ### The header that counts -/

/-- The headers present a value as the signature: the preferred one or, where that is missing, the older
one. -/
inductive Presents (headers : List (String × String)) : String → Digest.Algorithm → String → Prop
  | preferred (value : String) (held : Holds headers "X-Hub-Signature-256" value) :
      Presents headers "x-hub-signature-256" .sha256 value
  | older (value : String) (missing : Lacks headers "X-Hub-Signature-256")
      (held : Holds headers "X-Hub-Signature" value) : Presents headers "x-hub-signature" .sha1 value

theorem lacks_older_iff :
    Lacks headers "X-Hub-Signature" ↔ header? headers "x-hub-signature" = none :=
  (header?_eq_none_iff (by decide) (Text.forall_isBasic_of_all (by decide))).symm

theorem presents_or_lacks (headers : List (String × String)) :
    (∃ header alg value, Presents headers header alg value)
      ∨ Lacks headers "X-Hub-Signature-256" ∧ Lacks headers "X-Hub-Signature" := by
  rw [lacks_preferred_iff, lacks_older_iff]
  cases hpreferred : header? headers "x-hub-signature-256" with
  | some value => exact .inl ⟨_, _, value, .preferred value (holds_preferred_iff.mpr hpreferred)⟩
  | none =>
    have hmissing := lacks_preferred_iff.mpr hpreferred
    cases holder : header? headers "x-hub-signature" with
    | some value => exact .inl ⟨_, _, value, .older value hmissing (holds_older_iff.mpr holder)⟩
    | none => exact .inr ⟨rfl, rfl⟩

theorem verify_of_presents (hsecret : secret.isEmpty = false)
    (h : Presents headers header alg value) :
    verify secret body headers = checkSignature secret body header alg value := by
  unfold verify
  rw [hsecret]
  cases h with
  | preferred value held =>
    simp [signatureHeaders, holds_preferred_iff.mp held]
  | older value missing held =>
    simp [signatureHeaders, lacks_preferred_iff.mp missing, holds_older_iff.mp held]

theorem verify_of_lacks (hsecret : secret.isEmpty = false)
    (hpreferred : Lacks headers "X-Hub-Signature-256") (holder : Lacks headers "X-Hub-Signature") :
    verify secret body headers = .error .unsigned := by
  unfold verify
  rw [hsecret]
  simp [signatureHeaders, lacks_preferred_iff.mp hpreferred, lacks_older_iff.mp holder]

/-! ### The value that is presented -/

/-- A header value has the form of a signature: the name of the hash function, and something behind an
equals sign. Blanks around it do not count. -/
def HasForm (alg : Digest.Algorithm) (value : String) (digits : List Char) : Prop :=
  Text.trim value.toList = alg.name.toList ++ '=' :: digits ∧ digits ≠ []

theorem checkSignature_of_hasForm (h : HasForm alg value digits) :
    checkSignature secret body header alg value =
      if (Text.toLower digits).any (127 < ·.toNat) then .error .notAscii
      else if String.ofList (Text.toLower digits) == signatureOf alg secret body then .ok ()
      else .error .mismatch := by
  rw [checkSignature, Text.cut_eq_some_iff.mpr ⟨equals_notMem_name alg, h.1⟩]
  dsimp only
  rw [if_neg (by simp [h.2])]

theorem checkSignature_of_not_hasForm (h : ∀ digits, ¬ HasForm alg value digits) :
    checkSignature secret body header alg value = .error (.malformed header) := by
  unfold checkSignature
  split
  · next name digits hcut =>
    refine if_pos ?_
    obtain ⟨-, hvalue⟩ := Text.cut_eq_some_iff.mp hcut
    by_contra hform
    obtain ⟨hname, hne⟩ : String.ofList name = alg.name ∧ digits ≠ [] := by simpa using hform
    rw [← String.toList_ofList (l := name), hname] at hvalue
    exact h digits ⟨hvalue, hne⟩
  · rfl

theorem any_not_ascii_iff :
    (Text.toLower digits).any (127 < ·.toNat) = true ↔ ∃ c ∈ digits, Text.IsForeign c := by
  rw [List.any_eq_true, ← Text.exists_not_ascii_toLower_iff]
  simp only [decide_eq_true_eq]
  rfl

/-! ### Reasons -/

/-- Why a delivery is not let in. -/
inductive Refuses (secret body : ByteArray) (headers : List (String × String)) :
    SignatureError → Prop
  | noSecret (isEmpty : secret.isEmpty = true) : Refuses secret body headers .noSecret
  | unsigned (hsecret : secret.isEmpty = false) (preferred : Lacks headers "X-Hub-Signature-256")
      (older : Lacks headers "X-Hub-Signature") : Refuses secret body headers .unsigned
  | malformed (hsecret : secret.isEmpty = false) (header : String) (alg : Digest.Algorithm)
      (value : String) (presents : Presents headers header alg value)
      (form : ∀ digits, ¬ HasForm alg value digits) : Refuses secret body headers (.malformed header)
  | notAscii (hsecret : secret.isEmpty = false) (header : String) (alg : Digest.Algorithm)
      (value : String) (digits : List Char) (presents : Presents headers header alg value)
      (form : HasForm alg value digits) (foreign : ∃ c ∈ digits, Text.IsForeign c) :
      Refuses secret body headers .notAscii
  | mismatch (hsecret : secret.isEmpty = false) (header : String) (alg : Digest.Algorithm)
      (value : String) (digits : List Char) (presents : Presents headers header alg value)
      (form : HasForm alg value digits) (plain : ¬ ∃ c ∈ digits, Text.IsForeign c)
      (differs : ¬ IsSignature alg secret body value) : Refuses secret body headers .mismatch

theorem verify_of_refuses (h : Refuses secret body headers error) :
    verify secret body headers = .error error := by
  cases h with
  | noSecret isEmpty => rw [verify, if_pos isEmpty]
  | unsigned hsecret preferred older => exact verify_of_lacks hsecret preferred older
  | malformed hsecret header alg value presents form =>
    rw [verify_of_presents hsecret presents, checkSignature_of_not_hasForm form]
  | notAscii hsecret header alg value digits presents form foreign =>
    rw [verify_of_presents hsecret presents, checkSignature_of_hasForm form,
      if_pos (any_not_ascii_iff.mpr foreign)]
  | mismatch hsecret header alg value digits presents form plain differs =>
    have hcheck : checkSignature secret body header alg value = _ := checkSignature_of_hasForm form
    rw [if_neg fun hany => plain (any_not_ascii_iff.mp hany)] at hcheck
    rw [verify_of_presents hsecret presents, hcheck]
    refine if_neg fun heq => ?_
    rw [if_pos heq] at hcheck
    exact differs (checkSignature_eq_ok_iff.mp hcheck)

/-- Every delivery passes, or there is a reason to refuse it. -/
theorem passes_or_refuses (secret body : ByteArray) (headers : List (String × String)) :
    verify secret body headers = .ok () ∨ ∃ error, Refuses secret body headers error := by
  cases hsecret : secret.isEmpty with
  | true => exact .inr ⟨_, .noSecret hsecret⟩
  | false =>
    rcases presents_or_lacks headers with ⟨header, alg, value, hpresents⟩ | ⟨hpreferred, holder⟩
    · by_cases hform : ∃ digits, HasForm alg value digits
      · obtain ⟨digits, hform⟩ := hform
        by_cases hforeign : ∃ c ∈ digits, Text.IsForeign c
        · exact .inr ⟨_, .notAscii hsecret header alg value digits hpresents hform hforeign⟩
        · by_cases hsignature : IsSignature alg secret body value
          · rw [verify_of_presents hsecret hpresents]
            exact .inl (checkSignature_eq_ok_iff.mpr hsignature)
          · exact .inr ⟨_, .mismatch hsecret header alg value digits hpresents hform hforeign hsignature⟩
      · exact .inr ⟨_, .malformed hsecret header alg value hpresents (not_exists.mp hform)⟩
    · exact .inr ⟨_, .unsigned hsecret hpreferred holder⟩

theorem verify_eq_error_iff :
    verify secret body headers = .error error ↔ Refuses secret body headers error := by
  refine ⟨fun h => ?_, verify_of_refuses⟩
  rcases passes_or_refuses secret body headers with hpass | ⟨error', hrefuses⟩
  · rw [h] at hpass
    cases hpass
  · rw [verify_of_refuses hrefuses] at h
    exact Except.error.inj h ▸ hrefuses

theorem exists_refuses_iff : (∃ error, Refuses secret body headers error) ↔
    ¬ (secret.isEmpty = false ∧ IsSigned secret body headers) := by
  rw [← verify_eq_ok_iff]
  constructor
  · rintro ⟨error, h⟩ hpass
    rw [verify_of_refuses h] at hpass
    cases hpass
  · intro h
    exact (passes_or_refuses secret body headers).resolve_left h

/-! ### Replies -/

/-- A delivery with a good signature is never answered like one without. -/
theorem receiveSigned_ne (detail : String) (error : SignatureError) :
    receiveSigned r ≠ .ok (.refusal 401 detail) ∧ receiveSigned r ≠ .error (.signature error) := by
  unfold receiveSigned
  dsimp only
  split
  · simp [Reply.accept, Reply.refusal]
  · simp [Reply.ignored, Reply.refusal]
  · simp
  · simp
  · simp [Reply.refusal]

theorem receive_of_refuses (h : Refuses secret r.body r.headers error) :
    receive secret r =
      if error = .notAscii then .error (.signature .notAscii) else .ok (.refusal 401 error.message) := by
  unfold receive
  rw [verify_of_refuses h]
  cases error <;> rfl

theorem receive_eq_refusal_iff {detail : String} : receive secret r = .ok (.refusal 401 detail) ↔
    ∃ error, Refuses secret r.body r.headers error ∧ error ≠ .notAscii ∧ detail = error.message := by
  constructor
  · intro h
    rcases passes_or_refuses secret r.body r.headers with hpass | ⟨error, hrefuses⟩
    · rw [receive, hpass] at h
      exact absurd h (receiveSigned_ne detail .notAscii).1
    · rw [receive_of_refuses hrefuses] at h
      split at h
      · cases h
      · next hne =>
        refine ⟨error, hrefuses, hne, ?_⟩
        simpa [Reply.refusal] using h.symm
  · rintro ⟨error, hrefuses, hne, rfl⟩
    rw [receive_of_refuses hrefuses, if_neg hne]

theorem receive_eq_error_iff : receive secret r = .error (.signature error) ↔
    error = .notAscii ∧ Refuses secret r.body r.headers .notAscii := by
  constructor
  · intro h
    rcases passes_or_refuses secret r.body r.headers with hpass | ⟨reason, hrefuses⟩
    · rw [receive, hpass] at h
      exact absurd h (receiveSigned_ne "" error).2
    · rw [receive_of_refuses hrefuses] at h
      split at h
      · next hreason =>
        refine ⟨?_, hreason ▸ hrefuses⟩
        simpa using h.symm
      · cases h
  · rintro ⟨rfl, hrefuses⟩
    rw [receive_of_refuses hrefuses, if_pos rfl]

/-- A delivery is refused exactly if it is not signed, and for the reason that fits. The endpoint then
answers 401 with that reason, unless the signature cannot be compared: then it has no reply. -/
theorem receive_refuses_iff (secret : ByteArray) (r : Request) :
    ((∃ error, Refuses secret r.body r.headers error) ↔
        ¬ (secret.isEmpty = false ∧ IsSigned secret r.body r.headers))
      ∧ (∀ error, verify secret r.body r.headers = .error error ↔
        Refuses secret r.body r.headers error)
      ∧ (∀ detail, receive secret r = .ok (.refusal 401 detail) ↔
        ∃ error, Refuses secret r.body r.headers error ∧ error ≠ .notAscii ∧ detail = error.message)
      ∧ ∀ error, receive secret r = .error (.signature error) ↔
        error = .notAscii ∧ Refuses secret r.body r.headers .notAscii :=
  ⟨exists_refuses_iff, fun _ => verify_eq_error_iff, fun _ => receive_eq_refusal_iff,
    fun _ => receive_eq_error_iff⟩

/-- A delivery whose signature has an accented letter. -/
def accentedDelivery : Request where
  method := "POST"
  path := "/github-hook"
  headers := [("X-Hub-Signature-256", "sha256=\u00e9")]
  body := "\x7b\x7d".toUTF8

/-- The delivery is not refused like the others: its signature cannot be compared, and there is no reply. -/
theorem receive_accentedDelivery :
    verify "secret".toUTF8 accentedDelivery.body accentedDelivery.headers = .error .notAscii
      ∧ ¬ ∃ reply, receive "secret".toUTF8 accentedDelivery = .ok reply := by
  have hrefuses : Refuses "secret".toUTF8 accentedDelivery.body accentedDelivery.headers .notAscii := by
    refine .notAscii rfl _ _ "sha256=\u00e9" ['\u00e9'] (.preferred _ ⟨[], _, [], rfl, ?_, ?_⟩) ?_ ?_
    · decide
    · simp
    · exact ⟨by decide, by decide⟩
    · exact ⟨'\u00e9', by decide, by decide⟩
  refine ⟨verify_of_refuses hrefuses, ?_⟩
  rintro ⟨reply, h⟩
  rw [receive_eq_error_iff.mpr ⟨rfl, hrefuses⟩] at h
  cases h

end TypstLint.Webhook
