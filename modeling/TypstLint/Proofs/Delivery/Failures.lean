import TypstLint.Proofs.Delivery.Steps

set_option autoImplicit false

/-! # Failed attempts

An attempt without a token asks for nothing but one (`noToken_of_getToken`). After a failure with a token
the last thing that each check run gets is a neutral conclusion, unless an update fails in a way that is
not expected (`EndsFailed`, `runs_fail`). -/

namespace TypstLint.Delivery

open GitHub (Call Failure)

variable {s : Service} {c : Case} {d d' : Desk} {log : List Exchange} {state : State}
  {runs : List (String × Int)} {token : String}

/-! ## Tokens -/

theorem leaves_exchange (installation : Int) :
    Attempt.Leaves c.serial Exchange.IsAside (s.exchange installation) := by
  refine Attempt.leaves_bind (Attempt.leaves_lift (Task.leaves_read _)) fun now => ?_
  refine Attempt.leaves_bind (Attempt.leaves_ofExcept _) fun claim => ?_
  refine Attempt.leaves_bind (Attempt.leaves_call fun _ => ⟨rfl, rfl, rfl⟩) fun token => ?_
  refine Attempt.leaves_bind (Attempt.leaves_lift ?_) fun _ => Attempt.leaves_pure _
  exact Task.leaves_modify fun _ _ _ h => h

theorem leaves_getToken (installation : Int) :
    Attempt.Leaves c.serial Exchange.IsAside (s.getToken installation) := by
  refine Attempt.leaves_locked_tokens ?_
  refine Attempt.leaves_bind (Attempt.leaves_lift (Task.leaves_read _)) fun token => ?_
  split
  · exact Attempt.leaves_pure _
  · exact leaves_exchange installation

theorem noToken_of_exchange {installation : Int} {f : Failure} {others : Wait → Desk → Desk → Prop}
    (h : Attempt.Runs others (s.exchange installation) d log (.error f) d') :
    ∀ e ∈ log, ¬ e.HasToken := by
  rw [Service.exchange, Attempt.runs_lift_bind] at h
  obtain ⟨_, now, _, _, rfl, hnow, h⟩ := h
  obtain ⟨rfl, -, rfl⟩ := Task.runs_read.mp hnow
  rw [List.nil_append]
  rw [Attempt.runs_bind] at h
  rcases h with ⟨_, -, h⟩ | ⟨_, claim, _, _, rfl, hmint, h⟩
  · obtain ⟨rfl, -, -⟩ := Attempt.runs_ofExcept.mp h
    exact List.forall_mem_nil _
  obtain ⟨rfl, -, rfl⟩ := Attempt.runs_ofExcept.mp hmint
  rw [Attempt.runs_bind] at h
  rcases h with ⟨_, -, h⟩ | ⟨_, token, _, _, rfl, -, h⟩
  · obtain ⟨rfl, -⟩ := Attempt.runs_call.mp h
    exact List.forall_mem_singleton.mpr id
  -- what follows the exchange does not fail
  rw [Attempt.runs_lift_bind] at h
  obtain ⟨_, _, _, _, -, -, h⟩ := h
  obtain ⟨-, he, -⟩ := Attempt.runs_pure.mp h
  cases he

/-- Who gets no token has asked for nothing but a token. -/
theorem noToken_of_getToken {installation : Int} {f : Failure}
    (h : Attempt.Runs (Undisturbed c.serial) (s.getToken installation) d log (.error f) d') :
    ∀ e ∈ log, ¬ e.HasToken := by
  obtain ⟨log₁, d₁, log₂, d₂, log₃, rfl, hacquire, hget, hrelease⟩ := Attempt.runs_locked.mp h
  obtain rfl := List.eq_nil_iff_forall_not_mem.mpr (Task.leaves_acquire_tokens hacquire).1
  obtain rfl := List.eq_nil_iff_forall_not_mem.mpr (Task.leaves_release_tokens hrelease).1
  rw [List.nil_append, List.append_nil]
  rw [Attempt.runs_lift_bind] at hget
  obtain ⟨_, fresh, _, _, rfl, hfresh, hget⟩ := hget
  obtain ⟨rfl, -, rfl⟩ := Task.runs_read.mp hfresh
  split at hget
  · obtain ⟨-, he, -⟩ := Attempt.runs_pure.mp hget
    cases he
  · exact noToken_of_exchange hget

theorem runs_authenticate {result : Except Failure String} (hd : d.Holds c.serial .received runs)
    (h : Attempt.Runs (Undisturbed c.serial) (authenticate s c) d log result d') :
    d'.Holds c.serial .authenticating runs ∧ (∀ e ∈ log, e.IsAside)
      ∧ ∀ f, result = .error f → ∀ e ∈ log, ¬ e.HasToken := by
  rw [authenticate, Attempt.runs_bind] at h
  rcases h with ⟨e, -, h⟩ | ⟨_, _, d₁, _, rfl, hadvance, h⟩
  · obtain ⟨-, hok, -⟩ := c.runs_advance hd rfl (by decide) h
    cases hok
  · obtain ⟨rfl, -, hd₁⟩ := c.runs_advance hd rfl (by decide) hadvance
    obtain ⟨haside, hkeep⟩ := leaves_getToken c.request.installation h
    refine ⟨hkeep _ _ hd₁, haside, ?_⟩
    rintro f rfl
    exact noToken_of_getToken h

/-! ## Failures -/

theorem leaves_dropTokens (installation : Option Int) {p : Exchange → Prop} {serial : Nat} :
    (dropTokens installation).Leaves serial p :=
  Task.leaves_bind Task.leaves_acquire_tokens fun _ =>
    Task.leaves_bind (Task.leaves_modify fun _ _ _ h => h) fun _ => Task.leaves_release_tokens

theorem leaves_completeFailed (left : List (String × Int)) :
    Attempt.Leaves c.serial Exchange.OnlyReports (completeFailed c token left) := by
  induction left with
  | nil => exact Attempt.leaves_pure _
  | cons entry rest ih =>
    refine Attempt.leaves_bind (Attempt.leaves_lift (leaves_updateRun _ _ _ _)) fun result => ?_
    split
    · exact ih
    · exact ih
    · exact Attempt.leaves_throw _

/-- The updates that complete check runs after a failure. -/
def failedUpdates (runs : List (String × Int)) : List RunUpdate :=
  runs.map fun entry => ⟨entry.2, fatalError, some "neutral"⟩

/-- Every check run is completed, also if some of the updates are refused, unless one of them fails in an
unexpected way. -/
theorem runs_completeFailed {left : List (String × Int)} {result : Except Failure Unit}
    {others : Wait → Desk → Desk → Prop}
    (h : Attempt.Runs others (completeFailed c token left) d log result d') :
    (result = .ok () ∧ updates log = failedUpdates left)
      ∨ ∃ f, result = .error f ∧ IsStopped f log := by
  induction left generalizing d log with
  | nil =>
    obtain ⟨rfl, rfl, -⟩ := Attempt.runs_pure.mp h
    exact .inl ⟨rfl, rfl⟩
  | cons entry rest ih =>
    obtain ⟨name, run⟩ := entry
    rw [completeFailed, Attempt.runs_bind] at h
    rcases h with ⟨e, -, h⟩ | ⟨log₁, sent, d₁, log₂, rfl, hsend, h⟩
    · obtain ⟨_, he, -⟩ := Attempt.runs_outcome.mp h
      cases he
    obtain ⟨_, he, hupdate⟩ := Attempt.runs_outcome.mp hsend
    obtain rfl := Except.ok.inj he
    obtain ⟨hupdates, herror⟩ := runs_updateRun hupdate
    have hgoesOn (h : Attempt.Runs others (completeFailed c token rest) d₁ log₂ result d') :
        (result = .ok () ∧ updates (log₁ ++ log₂) = failedUpdates ((name, run) :: rest))
          ∨ ∃ f, result = .error f ∧ IsStopped f (log₁ ++ log₂) := by
      rcases ih h with ⟨hok, hrest⟩ | ⟨f, hf, hstopped⟩
      · exact .inl ⟨hok, by rw [updates_append, hupdates, hrest]; rfl⟩
      · exact .inr ⟨f, hf, hstopped.behind log₁⟩
    split at h
    · exact hgoesOn h
    · exact hgoesOn h
    · next e hne =>
      obtain ⟨rfl, hf, -⟩ := Attempt.runs_throw.mp h
      obtain rfl := herror e rfl
      exact .inr ⟨e, hf, [], _, rfl, ⟨token, c.request.repository, run, rfl⟩,
        fun e' he' => hne e' (he' ▸ rfl)⟩

/-- How an attempt goes on after a failure: it completes all check runs if there is a token, or is stopped
by an unexpected failure. -/
def EndsFailed (withToken : Option String) (runs : List (String × Int)) (result : Except Failure Unit)
    (log : List Exchange) : Prop :=
  (result = .ok () ∧ if withToken.isSome then updates log = failedUpdates runs else log = [])
    ∨ ∃ f, result = .error f ∧ IsStopped f log

/-- A record that is not over is failed, and then the check runs are completed if there is a token. -/
theorem runs_markFailed {withToken : Option String} {reason : String} {n : Notice}
    {result : Except Failure Unit} (hd : d.Holds c.serial state runs)
    (hterminal : state.isTerminal = false)
    (h : Attempt.Runs (Undisturbed c.serial)
      (do
        c.update fun r => ((r.advance .failed (some reason)).toOption).getD r
        Task.note n
        match withToken with
        | some token => completeFailed c token (← c.record).runs
        | none => return ()) d log result d') :
    (∀ e ∈ log, e.OnlyReports) ∧ d'.Holds c.serial .failed runs
      ∧ EndsFailed withToken runs result log := by
  obtain ⟨r, hfind, hheld, rfl, rfl⟩ := hd
  have hrank : ¬ State.failed.rank ≤ r.state.rank := by
    cases hstate : r.state <;> simp_all [State.rank, State.isTerminal]
  have hadvance : r.advance .failed (some reason) =
      .ok { r with state := .failed, reason := some reason } := by
    rw [Record.advance, if_neg (Bool.not_eq_true _ ▸ hterminal), if_neg hrank]
  have hserial (r : Record) (hr : r.serial = c.serial) :
      (((r.advance .failed (some reason)).toOption).getD r).serial = c.serial := by
    unfold Record.advance
    split
    · exact hr
    · split
      · exact hr
      · exact hr
  rw [Attempt.runs_lift_bind] at h
  obtain ⟨_, _, d₁, _, rfl, hupdate, h⟩ := h
  obtain ⟨rfl, hmarked⟩ :=
    Case.holds_of_update hupdate hfind hserial (by rw [hadvance]; exact hheld)
  have hd₁ : d₁.Holds c.serial .failed r.runs := by
    rw [hadvance] at hmarked
    exact hmarked
  rw [Attempt.runs_lift_bind] at h
  obtain ⟨_, _, d₂, _, rfl, hnote, h⟩ := h
  obtain ⟨rfl, rfl⟩ := Task.runs_note.mp hnote
  cases withToken with
  | none =>
    obtain ⟨rfl, rfl, rfl⟩ := Attempt.runs_pure.mp h
    exact ⟨List.forall_mem_nil _, hd₁, .inl ⟨rfl, rfl⟩⟩
  | some token =>
    obtain ⟨r₂, hfind₂, -, -, hruns₂⟩ := id hd₁
    dsimp only at h
    rw [Attempt.runs_lift_bind] at h
    obtain ⟨_, r₃, d₃, log₃, rfl, hrecord, h⟩ := h
    obtain ⟨rfl, rfl, rfl⟩ :=
      (Case.runs_record (d := { d₁ with notices := n :: d₁.notices }) hfind₂).mp hrecord
    obtain ⟨hreports, hkeep⟩ := leaves_completeFailed _ h
    refine ⟨hreports, hkeep _ _ hd₁, ?_⟩
    rw [← hruns₂]
    exact runs_completeFailed h

/-- After a failure the record is failed, and with a token its check runs are completed. -/
theorem runs_fail {withToken : Option String} {failure : Failure} {result : Except Failure Unit}
    (hd : d.Holds c.serial state runs) (hterminal : state.isTerminal = false)
    (h : Attempt.Runs (Undisturbed c.serial) (fail c withToken failure) d log result d') :
    (∀ e ∈ log, e.OnlyReports) ∧ d'.Holds c.serial .failed runs
      ∧ EndsFailed withToken runs result log := by
  unfold fail at h
  dsimp only at h
  split at h
  · rw [Attempt.runs_lift_bind] at h
    obtain ⟨_, _, d₁, _, rfl, hdrop, h⟩ := h
    obtain ⟨hquiet, hkeep⟩ := leaves_dropTokens (p := fun _ => False) _ hdrop
    obtain rfl := List.eq_nil_iff_forall_not_mem.mpr hquiet
    exact runs_markFailed (hkeep _ _ hd) hterminal h
  · exact runs_markFailed hd hterminal h

end TypstLint.Delivery
