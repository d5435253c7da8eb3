import TypstLint.Proofs.Delivery.Guarded

set_option autoImplicit false

/-! # The turns of an attempt

Every step of an attempt works on the record in hand only, and a check run is created only if none is on
record (`guarded_handleLocked`). A restart keeps the check runs, unless new ones are asked for. -/

namespace TypstLint.Delivery

open GitHub (Call ChangedFile Failure Output)

variable {keys : List CheckKey} {s : Service} {c : Case} {token : String}

/-! ## Changes of the record -/

theorem guarded_record : c.record.Guarded keys c := Task.guarded_read _

theorem Record.isKept_of_advance {r r' : Record} {new : State} {reason : Option String}
    (h : r.advance new reason = .ok r') : r.IsKept r' := by
  unfold Record.advance at h
  split at h
  · cases h
  · split at h
    · cases h
    · obtain rfl := Except.ok.inj h
      exact ⟨rfl, rfl, rfl, fun _ h => h⟩

theorem Record.isKept_setRun (r : Record) (name : String) (run : Int) : r.IsKept (r.setRun name run) :=
  ⟨rfl, rfl, rfl, fun _ h => Assoc.lookup_set_isSome h⟩

theorem Record.isKept_restart {request : CheckRequest} (hplain : request.rerequested = false)
    (r : Record) : r.IsKept (r.restart request) := by
  refine ⟨rfl, rfl, rfl, fun name h => ?_⟩
  rw [Record.restart, Record.startingRuns, hplain]
  cases request.checkRun with
  | none => exact h
  | some run => exact Assoc.lookup_set_isSome h

theorem guarded_advance (new : State) (reason : Option String) :
    Attempt.Guarded keys c (c.advance new reason) := by
  intro d hd
  obtain ⟨r, hr, hserial, -, -⟩ := hd.held
  have hfind : d.ledger.find? c.serial = some r := hd.orderly.find?_iff.mpr ⟨hr, hserial⟩
  refine Attempt.guardedAt_record_bind hfind ?_
  cases hadvance : r.advance new reason with
  | error e => exact Attempt.guarded_throw _ d hd
  | ok r' =>
    -- the record in hand is the only one with its number
    refine ⟨hd.tends_update (f := fun _ => r') fun r₁ hr₁ hserial₁ => ?_, trivial⟩
    rw [hd.orderly.eq_of_serial hr₁ hr (hserial₁.trans hserial.symm)]
    exact Record.isKept_of_advance hadvance

/-! ## Check runs -/

theorem guarded_noteState (n : Record → Notice) :
    Attempt.Guarded keys c (do Task.note (n (← c.record)) : Attempt Unit) :=
  Attempt.guarded_bind (Attempt.guarded_lift guarded_record) fun _ =>
    Attempt.guarded_lift (Task.guarded_note _)

/-- A check run that is created is on record at the end of the turn. -/
theorem guarded_ensureRun (spec : Spec) : Attempt.Guarded keys c (ensureRun c token spec) := by
  intro d hd
  obtain ⟨r, hr, hserial, -, -⟩ := hd.held
  refine Attempt.guardedAt_record_bind (hd.orderly.find?_iff.mpr ⟨hr, hserial⟩) ?_
  split
  · next hnone =>
    refine Attempt.guardedAt_create_bind hd (fun r₁ hr₁ hserial₁ => ?_) (fun run => ?_)
      (fun run d₁ hd₁ => ?_) token
    · rw [hd.orderly.eq_of_serial hr₁ hr (hserial₁.trans hserial.symm)]
      exact Option.isNone_iff_eq_none.mp hnone
    · exact Attempt.guarded_bind
        (Attempt.guarded_lift (Task.guarded_update fun r => r.isKept_setRun _ _)) fun _ =>
          guarded_noteState _
    · obtain ⟨r₁, hr₁, hserial₁, hkey₁, -⟩ := hd₁.held
      refine ⟨r₁.setRun spec.render run.id, Ledger.mem_update hr₁ hserial₁, hkey₁, ?_⟩
      rw [Record.setRun, Assoc.lookup_set, if_pos (beq_self_eq_true _)]
      rfl
  · exact Attempt.guarded_pure () d hd

theorem guarded_runOf (spec : Spec) : Attempt.Guarded keys c (runOf c spec) := by
  refine Attempt.guarded_bind (Attempt.guarded_lift guarded_record) fun r => ?_
  split
  · exact Attempt.guarded_pure _
  · exact Attempt.guarded_throw _

theorem guarded_updateRun (run : Int) (output : Output) (conclusion : Option String) :
    Attempt.Guarded keys c (updateRun c token run output conclusion) :=
  Attempt.guarded_bind (Attempt.guarded_call rfl) fun _ => Attempt.guarded_pure _

theorem guarded_sendAll (run : Int) (conclusion : String) (outputs : List Output) :
    Attempt.Guarded keys c (sendAll c token run conclusion outputs) := by
  induction outputs with
  | nil => exact Attempt.guarded_pure _
  | cons output rest ih =>
    cases rest with
    | nil => exact guarded_updateRun _ _ _
    | cons => exact Attempt.guarded_bind (guarded_updateRun _ _ _) fun _ => ih

theorem guarded_report (checked : Spec × CheckResult) : Attempt.Guarded keys c (report c token checked) :=
  Attempt.guarded_bind (guarded_runOf _) fun _ => Attempt.guarded_bind (guarded_sendAll _ _ _) fun _ =>
    guarded_noteState _

theorem guarded_refuse (specs : List Spec) : Attempt.Guarded keys c (refuse c token specs) :=
  Attempt.guarded_bind
    (Attempt.guarded_forM (fun _ => Attempt.guarded_bind (guarded_runOf _) fun _ =>
      guarded_updateRun _ _ _) specs)
    fun _ => guarded_advance _ _

/-! ## The work of an attempt -/

theorem guarded_fetchContent (named : String × Option String) :
    Attempt.Guarded keys c (fetchContent c token named) := by
  obtain ⟨path, _ | remote⟩ := named
  · exact Attempt.guarded_pure _
  · exact Attempt.guarded_bind (Attempt.guarded_call rfl) fun _ => Attempt.guarded_pure _

theorem guarded_fetchOverlay (changed : List ChangedFile) (spec : Spec) :
    Attempt.Guarded keys c (fetchOverlay c token changed spec) :=
  Attempt.guarded_bind (Attempt.guarded_mapM guarded_fetchContent _) fun _ => Attempt.guarded_pure _

theorem guarded_checkVersion (version : Spec × Overlay) :
    Attempt.Guarded keys c (checkVersion s version) := by
  unfold checkVersion
  exact Attempt.guarded_bind (α := Unit) (Attempt.guarded_lift (Task.guarded_await (w := .work) rfl))
    fun _ => Attempt.guarded_bind (Attempt.guarded_ofExcept _) fun _ => Attempt.guarded_pure _

theorem guarded_checkAll (changed : List ChangedFile) (specs : List Spec) :
    Attempt.Guarded keys c (checkAll s c token changed specs) := by
  refine Attempt.guarded_bind (Attempt.guarded_mapM (guarded_fetchOverlay changed) specs) fun _ => ?_
  refine Attempt.guarded_bind (guarded_advance _ _) fun _ => ?_
  refine Attempt.guarded_bind (Attempt.guarded_mapM guarded_checkVersion _) fun _ => ?_
  refine Attempt.guarded_bind (guarded_advance _ _) fun _ => ?_
  exact Attempt.guarded_bind (Attempt.guarded_forM guarded_report _) fun _ => guarded_advance _ _

theorem guarded_pullNumber : Attempt.Guarded keys c (pullNumber c token) := by
  unfold pullNumber
  split
  · exact Attempt.guarded_pure _
  · exact Attempt.guarded_bind (Attempt.guarded_call rfl) fun _ => Attempt.guarded_pure _

theorem guarded_checkPull (number : Int) : Attempt.Guarded keys c (checkPull s c token number) := by
  refine Attempt.guarded_bind (Attempt.guarded_call rfl) fun changed => ?_
  refine Attempt.guarded_bind (Attempt.guarded_ofExcept _) fun found => ?_
  obtain ⟨specs, outside⟩ := found
  dsimp only
  split
  · exact guarded_advance _ _
  · refine Attempt.guarded_bind (Attempt.guarded_forM guarded_ensureRun specs) fun _ => ?_
    split
    · exact guarded_refuse specs
    · exact guarded_checkAll changed specs

theorem guarded_perform : Attempt.Guarded keys c (perform s c token) := by
  refine Attempt.guarded_bind (guarded_advance _ _) fun _ => ?_
  refine Attempt.guarded_bind guarded_pullNumber fun number => ?_
  split
  · exact guarded_advance _ _
  · exact guarded_checkPull _

/-! ## Tokens and failures -/

theorem guarded_exchange (installation : Int) : Attempt.Guarded keys c (s.exchange installation) := by
  refine Attempt.guarded_bind (Attempt.guarded_lift (Task.guarded_read _)) fun now => ?_
  refine Attempt.guarded_bind (Attempt.guarded_ofExcept _) fun claim => ?_
  refine Attempt.guarded_bind (Attempt.guarded_call rfl) fun token => ?_
  exact Attempt.guarded_bind (Attempt.guarded_lift (Task.guarded_modify_aside fun _ => rfl)) fun _ =>
    Attempt.guarded_pure _

theorem guarded_getToken (installation : Int) : Attempt.Guarded keys c (s.getToken installation) := by
  refine Attempt.guarded_locked_tokens ?_
  refine Attempt.guarded_bind (Attempt.guarded_lift (Task.guarded_read _)) fun token => ?_
  split
  · exact Attempt.guarded_pure _
  · exact guarded_exchange installation

theorem guarded_dropTokens (installation : Option Int) : (dropTokens installation).Guarded keys c :=
  Task.guarded_bind Task.guarded_acquire_tokens fun _ =>
    Task.guarded_bind (Task.guarded_modify_aside fun _ => rfl) fun _ => Task.guarded_release_tokens

theorem guarded_completeFailed (left : List (String × Int)) :
    Attempt.Guarded keys c (completeFailed c token left) := by
  induction left with
  | nil => exact Attempt.guarded_pure _
  | cons entry rest ih =>
    refine Attempt.guarded_bind (Attempt.guarded_outcome (guarded_updateRun _ _ _)) fun result => ?_
    split
    · exact ih
    · exact ih
    · exact Attempt.guarded_throw _

theorem Record.isKept_markFailed (reason : Option String) (r : Record) :
    r.IsKept (((r.advance .failed reason).toOption).getD r) := by
  cases hadvance : r.advance .failed reason with
  | error e => exact ⟨rfl, rfl, rfl, fun _ h => h⟩
  | ok r' => exact Record.isKept_of_advance hadvance

theorem guarded_fail (withToken : Option String) (failure : Failure) :
    Attempt.Guarded keys c (fail c withToken failure) := by
  have hmark {rest : Attempt Unit} (hrest : Attempt.Guarded keys c rest) : Attempt.Guarded keys c (do
      c.update fun r => ((r.advance .failed
        (some s!"{failure.kind}: {failure.message}")).toOption).getD r
      Task.note
        { request := c.request
          state := .failed
          message := "Delivery failed"
          reason := s!"{failure.kind}: {failure.message}"
          error := failure.kind }
      rest) :=
    Attempt.guarded_bind (Attempt.guarded_lift (Task.guarded_update (Record.isKept_markFailed _)))
      fun _ => Attempt.guarded_bind (Attempt.guarded_lift (Task.guarded_note _)) fun _ => hrest
  have hdrop : Attempt.Guarded keys c (dropTokens (some c.request.installation) : Attempt Unit) :=
    Attempt.guarded_lift (guarded_dropTokens _)
  unfold fail
  dsimp only
  cases withToken with
  | none =>
    have hrest : Attempt.Guarded keys c (return ()) := Attempt.guarded_pure ()
    split
    · exact Attempt.guarded_bind hdrop fun _ => hmark hrest
    · exact hmark hrest
  | some token =>
    have hrest : Attempt.Guarded keys c (do completeFailed c token (← c.record).runs) :=
      Attempt.guarded_bind (Attempt.guarded_lift guarded_record) fun r => guarded_completeFailed r.runs
    split
    · exact Attempt.guarded_bind hdrop fun _ => hmark hrest
    · exact hmark hrest

/-! ## Attempts -/

theorem guarded_attempt : Attempt.Guarded keys c (attempt s c) := by
  have hauthenticate : Attempt.Guarded keys c (authenticate s c) :=
    Attempt.guarded_bind (guarded_advance _ _) fun _ => guarded_getToken _
  refine Attempt.guarded_bind (Attempt.guarded_outcome hauthenticate) fun authenticated => ?_
  split
  · exact guarded_fail _ _
  · refine Attempt.guarded_bind (Attempt.guarded_outcome guarded_perform) fun performed => ?_
    split
    · exact Attempt.guarded_pure _
    · exact guarded_fail _ _

/-- A delivery that asks for no new check runs works on its record only, and creates only check runs that
are not on record, all the time that it has the lock. -/
theorem guarded_handleLocked (hplain : c.request.rerequested = false) :
    Attempt.Guarded keys c (handleLocked s c) := by
  refine Attempt.guarded_bind (Attempt.guarded_lift guarded_record) fun r => ?_
  split
  · exact Attempt.guarded_bind (Attempt.guarded_lift (Task.guarded_note _)) fun _ =>
      Attempt.guarded_pure _
  · refine Attempt.guarded_bind
      (Attempt.guarded_lift (Task.guarded_update (Record.isKept_restart hplain))) fun _ => ?_
    refine Attempt.guarded_bind (Attempt.guarded_lift (Task.guarded_note _)) fun _ => ?_
    refine Attempt.guarded_bind guarded_attempt fun _ => ?_
    exact Attempt.guarded_bind (Attempt.guarded_lift guarded_record) fun _ => Attempt.guarded_pure _

end TypstLint.Delivery
