import TypstLint.GitHub.Client

set_option autoImplicit false

/-! # Exchanges over the wire

What an exchange comes to is told by its outcome and by what went over the wire meanwhile: the requests, each
with what came back for it (`Wire.Carries`). A request that only reads is made again as long as what comes
back is a failure that may go away, and the last outcome counts. -/

namespace TypstLint.GitHub

variable {α β : Type} {w w' w₁ w₂ : Wire} {log log' : List (Request × Outcome)}
variable {c : Client} {q : Client.Query} {request : Request} {f : Failure}

/-! ## The wire -/

/-- What goes over the wire between two times: requests, each with what came back for it. -/
inductive Wire.Carries : Wire → List (Request × Outcome) → Wire → Prop where
  | refl (w : Wire) : Carries w [] w
  | send {w w' : Wire} {log : List (Request × Outcome)} (r : Request)
      (h : Carries (w.send r).2 log w') : Carries w ((r, (w.send r).1) :: log) w'
  | pause {w w' : Wire} {log : List (Request × Outcome)} (delay : Nat)
      (h : Carries (w.pause delay) log w') : Carries w log w'

theorem Wire.Carries.trans (h : w.Carries log w₁) (h' : w₁.Carries log' w') :
    w.Carries (log ++ log') w' := by
  induction h with
  | refl => exact h'
  | send r _ ih => exact .send r (ih h')
  | pause delay _ ih => exact .pause delay (ih h')

theorem Wire.carries_send (w : Wire) (r : Request) : w.Carries [(r, (w.send r).1)] (w.send r).2 :=
  .send r (.refl _)

namespace Exchange

/-- What an exchange comes to on a wire, and the wire behind it. -/
def on (x : Exchange α) (w : Wire) : Except Failure α × Wire := x.run w

theorem on_bind (x : Exchange α) (f : α → Exchange β) :
    (x >>= f).on w = (match x.on w with
      | (.ok a, w') => (f a).on w'
      | (.error e, w') => (.error e, w')) := by
  unfold on
  rw [ExceptT.run_bind]
  simp only [bind, StateT.bind]
  rcases x.run w with ⟨a | e, w'⟩
  · rfl
  · rfl

theorem on_bind_ok {x : Exchange α} {f : α → Exchange β} {a : α} (h : x.on w = (.ok a, w')) :
    (x >>= f).on w = (f a).on w' := by
  rw [on_bind, h]

theorem on_bind_error {x : Exchange α} {f : α → Exchange β} {e : Failure}
    (h : x.on w = (.error e, w')) : (x >>= f).on w = (.error e, w') := by
  rw [on_bind, h]

theorem on_outcome (x : Exchange α) : (outcome x).on w = (.ok (x.on w).1, (x.on w).2) := rfl

end Exchange

/-! ## What came back -/

/-- Whether what came back is a failure that may go away. -/
def Outcome.isTransient : Outcome → Bool
  | .broken _ => true
  | .response r => 500 ≤ r.status
  | .garbled _ => false

namespace Client

theorem isSuccess_eq_false {r : Response} (h : 300 ≤ r.status) : r.isSuccess = false := by
  have hnot : ¬ r.status < 300 := by omega
  simp [Response.isSuccess, hnot]

theorem status_of_isRateLimit {r : Response} (h : r.isRateLimit = true) :
    400 ≤ r.status ∧ r.status < 500 := by
  simp only [Response.isRateLimit, Bool.or_eq_true, Bool.and_eq_true, beq_iff_eq] at h
  omega

theorem verdict_of_success {r : Response} (h : r.isSuccess = true) :
    verdict q (.response r) = .ok r := by
  simp [verdict, h]

theorem verdict_of_refused {r : Response} (h : r.isSuccess = false) :
    verdict q (.response r) = .error (refusal q r) := by
  simp [verdict, h]

/-- A response that is a failure does not tell of success. -/
theorem refused_of_verdict {r : Response} (h : verdict q (.response r) = .error f) :
    r.isSuccess = false ∧ f = refusal q r := by
  cases hsuccess : r.isSuccess with
  | true => simp [verdict_of_success hsuccess] at h
  | false =>
    rw [verdict_of_refused hsuccess] at h
    exact ⟨rfl, (Except.error.inj h).symm⟩

theorem verdict_eq_ok_iff {o : Outcome} {r : Response} :
    verdict q o = .ok r ↔ o = .response r ∧ r.isSuccess = true := by
  constructor
  · intro h
    cases o with
    | broken | garbled => cases h
    | response r' =>
      rw [verdict] at h
      split at h
      · next hsuccess =>
        obtain rfl := Except.ok.inj h
        exact ⟨rfl, hsuccess⟩
      · cases h
  · rintro ⟨rfl, hsuccess⟩
    exact verdict_of_success hsuccess

theorem isTransient_refusal (q : Query) (r : Response) :
    isTransient (refusal q r) = (Outcome.response r).isTransient := by
  rw [refusal, Outcome.isTransient]
  split
  · next hlimit =>
    have hstatus : ¬ 500 ≤ r.status := by
      have := status_of_isRateLimit hlimit
      omega
    rw [decide_eq_false hstatus]
    split <;> rfl
  · rfl

/-- A failure may go away if what came back is one that may. -/
theorem isTransient_of_verdict {o : Outcome} (h : verdict q o = .error f) :
    isTransient f = o.isTransient := by
  cases o with
  | broken | garbled =>
    obtain rfl := Except.error.inj h
    rfl
  | response r =>
    obtain ⟨-, rfl⟩ := refused_of_verdict h
    exact isTransient_refusal q r

theorem exists_verdict_of_isTransient {o : Outcome} (h : o.isTransient = true) :
    ∃ f, verdict q o = .error f := by
  cases o with
  | broken | garbled => exact ⟨_, rfl⟩
  | response r =>
    have hstatus : 500 ≤ r.status := of_decide_eq_true h
    exact ⟨_, verdict_of_refused (isSuccess_eq_false (by omega))⟩

/-! ## Requests that are made once -/

/-- What keeps a request from being made is nothing that may go away. -/
theorem exists_other_of_request (h : c.request q = .error f) : ∃ kind message, f = .other kind message := by
  rw [request] at h
  split at h
  · exact ⟨_, _, (Except.error.inj h).symm⟩
  split at h
  · exact ⟨_, _, (Except.error.inj h).symm⟩
  split at h
  · exact ⟨_, _, (Except.error.inj h).symm⟩
  · cases h

/-- Nothing is sent if there is no request. -/
theorem on_send_of_error (h : c.request q = .error f) : (c.send q).on w = (.error f, w) := by
  rw [send, h]
  rfl

theorem on_send (h : c.request q = .ok request) :
    (c.send q).on w = (verdict q (w.send request).1, (w.send request).2) := by
  rw [send, h]
  rfl

/-! ## Requests that are made again -/

/-- Nothing is sent if there is no request, also not later. -/
theorem on_sendAgain_of_error (h : c.request q = .error f) (delay more : Nat) :
    (c.sendAgain q delay more).on w = (.error f, w) := by
  cases more with
  | zero => exact on_send_of_error h
  | succ more =>
    obtain ⟨kind, message, rfl⟩ := exists_other_of_request h
    rw [sendAgain, Exchange.on_bind_ok (Exchange.on_outcome _), on_send_of_error h]
    rfl

/-- An outcome that is not transient ends a request, and so does any one when it is not made again. -/
theorem on_sendAgain_last (hrequest : c.request q = .ok request) {delay more : Nat}
    (hlast : more = 0 ∨ (w.send request).1.isTransient = false) :
    (c.sendAgain q delay more).on w = (verdict q (w.send request).1, (w.send request).2) := by
  cases more with
  | zero => exact on_send hrequest
  | succ more =>
    have hfinal : (w.send request).1.isTransient = false := by simpa using hlast
    rw [sendAgain, Exchange.on_bind_ok (Exchange.on_outcome _), on_send hrequest]
    cases hverdict : verdict q (w.send request).1 with
    | ok r => rfl
    | error f =>
      have hf : isTransient f = false := (isTransient_of_verdict hverdict).trans hfinal
      simp only [hf]
      rfl

/-- A transient failure is followed by another try. -/
theorem on_sendAgain_next (hrequest : c.request q = .ok request) {delay more : Nat}
    (hfailed : (w.send request).1.isTransient = true) :
    (c.sendAgain q delay (more + 1)).on w =
      (c.sendAgain q (2 * delay) more).on ((w.send request).2.pause delay) := by
  obtain ⟨f, hverdict⟩ := exists_verdict_of_isTransient (q := q) hfailed
  have hf : isTransient f = true := (isTransient_of_verdict hverdict).trans hfailed
  rw [sendAgain, Exchange.on_bind_ok (Exchange.on_outcome _), on_send hrequest, hverdict]
  simp only [hf]
  rfl

end Client

end TypstLint.GitHub
