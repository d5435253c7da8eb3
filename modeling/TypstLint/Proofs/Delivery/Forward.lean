import TypstLint.Proofs.Delivery.Progress
import TypstLint.Proofs.Except

set_option autoImplicit false

/-! # Attempts go forward

Every attempt goes on from its start through states in their order, until its check is done or has failed
(`goes_attempt_state`). It never tries to go back, or on from the end: what fails an attempt is never
such a try. -/

namespace TypstLint.Delivery

open GitHub (Call ChangedFile Failure Output)

variable {s : Service} {log : List Exchange} {c : Case} {attempts : Nat} {a b : State} {token : String}
  {ok err : State → Prop}

/-! ## Changes of the record -/

theorem quiet_record : c.record.Quiet s log c attempts := Task.quiet_read _

/-- A notice about the case that puts a state on record, or none. -/
theorem explains_of_ne_failed {n : Notice} (h : n.state ≠ .failed) : s.Explains log n := by
  intro hfailed
  rw [Notice.taken?] at hfailed
  split at hfailed
  · exact absurd (Option.some.inj hfailed) h
  · cases hfailed

/-- A step forward does not fail. -/
theorem goes_advance {reason : Option String} (hab : a.Precedes b) (hfailed : b ≠ .failed) :
    Attempt.Goes s log c attempts (c.advance b reason) a (· = b) err := by
  intro d hd
  obtain ⟨r, hr, hserial, -, -, hstate, -⟩ := hd.there
  have hrun : (c.advance b reason).run d = .done (.ok ())
      { d with
        ledger := d.ledger.update c.serial fun _ => { r with state := b, reason }
        notices := c.stateNotice b reason :: d.notices } := by
    rw [Case.advance, Attempt.run_record_bind (hd.sound.find?_iff.mpr ⟨hr, hserial⟩),
      Record.advance_of_precedes (hstate ▸ hab) reason]
    rfl
  obtain ⟨hpasses, hisAt⟩ := hd.update (f := fun _ => { r with state := b, reason }) (b := b)
    fun r' hr' hn hheld _ hattempts => by
      obtain rfl := hd.sound.serials r' hr' r hr (hn.trans hserial.symm)
      exact ⟨rfl, rfl, hheld, rfl, hattempts⟩
  rw [hrun]
  exact ⟨b, ⟨hpasses, hisAt, [c.stateNotice b reason], rfl, ⟨hab, rfl⟩,
    List.forall_mem_singleton.mpr (explains_of_ne_failed hfailed)⟩, rfl⟩

theorem goes_advance_bind {reason : Option String} {f : Unit → Attempt Unit} (hab : a.Precedes b)
    (hfailed : b ≠ .failed) (hf : Attempt.Goes s log c attempts (f ()) b ok err) :
    Attempt.Goes s log c attempts (c.advance b reason >>= f) a ok err :=
  Attempt.goes_bind (goes_advance hab hfailed) fun _ _ hb => hb ▸ hf

/-! ## Check runs -/

theorem quiet_noteState {n : Record → Notice} (hn : ∀ r, (n r).package.isNone = false) :
    Attempt.Quiet s log c attempts (do Task.note (n (← c.record)) : Attempt Unit) :=
  Attempt.quiet_bind (Attempt.quiet_lift quiet_record) fun r =>
    Attempt.quiet_lift (Task.quiet_note (hn r))

theorem quiet_ensureRun (spec : Spec) : Attempt.Quiet s log c attempts (ensureRun c token spec) := by
  refine Attempt.quiet_bind (Attempt.quiet_lift quiet_record) fun r => ?_
  split
  · refine Attempt.quiet_bind (Attempt.quiet_call _) fun run => ?_
    refine Attempt.quiet_bind (Attempt.quiet_lift (Task.quiet_update fun _ => ?_)) fun _ =>
      quiet_noteState fun _ => rfl
    exact ⟨rfl, rfl, rfl, rfl, rfl⟩
  · exact Attempt.quiet_pure ()

theorem quiet_runOf (spec : Spec) : Attempt.Quiet s log c attempts (runOf c spec) := by
  refine Attempt.quiet_bind (Attempt.quiet_lift quiet_record) fun r => ?_
  split
  · exact Attempt.quiet_pure _
  · exact Attempt.quiet_throw (.missing spec)

theorem quiet_updateRun (run : Int) (output : Output) (conclusion : Option String) :
    Attempt.Quiet s log c attempts (updateRun c token run output conclusion) :=
  Attempt.quiet_bind (Attempt.quiet_call _) fun _ => Attempt.quiet_pure _

theorem quiet_sendAll (run : Int) (conclusion : String) (outputs : List Output) :
    Attempt.Quiet s log c attempts (sendAll c token run conclusion outputs) := by
  induction outputs with
  | nil => exact Attempt.quiet_pure _
  | cons output rest ih =>
    cases rest with
    | nil => exact quiet_updateRun _ _ _
    | cons => exact Attempt.quiet_bind (quiet_updateRun _ _ _) fun _ => ih

theorem quiet_report (checked : Spec × CheckResult) :
    Attempt.Quiet s log c attempts (report c token checked) :=
  Attempt.quiet_bind (quiet_runOf _) fun _ => Attempt.quiet_bind (quiet_sendAll _ _ _) fun _ =>
    quiet_noteState fun _ => rfl

/-! ## The work of an attempt -/

theorem quiet_fetchContent (named : String × Option String) :
    Attempt.Quiet s log c attempts (fetchContent c token named) := by
  obtain ⟨path, _ | remote⟩ := named
  · exact Attempt.quiet_pure _
  · exact Attempt.quiet_bind (Attempt.quiet_call _) fun _ => Attempt.quiet_pure _

theorem quiet_fetchOverlay (changed : List ChangedFile) (spec : Spec) :
    Attempt.Quiet s log c attempts (fetchOverlay c token changed spec) :=
  Attempt.quiet_bind (Attempt.quiet_mapM quiet_fetchContent _) fun _ => Attempt.quiet_pure _

theorem quiet_checkVersion (version : Spec × Overlay) :
    Attempt.Quiet s log c attempts (checkVersion s version) := by
  have hwork : Task.Quiet s log c attempts (Task.await .work) := Task.quiet_await fun _ _ => nofun
  unfold checkVersion
  refine Attempt.quiet_bind (α := Unit) (Attempt.quiet_lift hwork) fun _ => ?_
  refine Attempt.quiet_bind (Attempt.quiet_ofExcept fun f hf => ?_) fun _ => Attempt.quiet_pure _
  obtain ⟨fault, hfault, rfl⟩ := mapError_eq_error.mp hf
  exact .checking hfault

theorem quiet_pullNumber : Attempt.Quiet s log c attempts (pullNumber c token) := by
  unfold pullNumber
  split
  · exact Attempt.quiet_pure _
  · exact Attempt.quiet_bind (Attempt.quiet_call _) fun _ => Attempt.quiet_pure _

/-- A failure finds a check that is not over. -/
abbrev State.IsOpen (a : State) : Prop := a.isTerminal = false

theorem goes_refuse (specs : List Spec) :
    Attempt.Goes s log c attempts (refuse c token specs) .fetching (· = .done) State.IsOpen :=
  (Attempt.quiet_forM (fun _ => Attempt.quiet_bind (quiet_runOf _) fun _ => quiet_updateRun _ _ _)
    specs).goes_bind rfl fun _ => goes_advance (by decide) nofun

theorem goes_checkAll (changed : List ChangedFile) (specs : List Spec) :
    Attempt.Goes s log c attempts (checkAll s c token changed specs) .fetching (· = .done)
      State.IsOpen := by
  refine (Attempt.quiet_mapM (quiet_fetchOverlay changed) specs).goes_bind rfl fun overlays => ?_
  refine goes_advance_bind (b := .analyzing) (by decide) nofun ?_
  refine (Attempt.quiet_mapM quiet_checkVersion overlays).goes_bind rfl fun results => ?_
  refine goes_advance_bind (b := .reporting) (by decide) nofun ?_
  exact (Attempt.quiet_forM quiet_report results).goes_bind rfl fun _ => goes_advance (by decide) nofun

theorem goes_checkPull (number : Int) :
    Attempt.Goes s log c attempts (checkPull s c token number) .fetching (· = .done) State.IsOpen := by
  refine (Attempt.quiet_call _).goes_bind rfl fun changed => ?_
  have htouched : Attempt.Quiet s log c attempts
      (.ofExcept ((touched changed).mapError .fault)) := Attempt.quiet_ofExcept fun f hf => by
    obtain ⟨fault, hfault, rfl⟩ := mapError_eq_error.mp hf
    exact .listing hfault
  refine htouched.goes_bind rfl fun found => ?_
  obtain ⟨specs, outside⟩ := found
  dsimp only
  split
  · exact goes_advance (by decide) nofun
  · refine (Attempt.quiet_forM quiet_ensureRun specs).goes_bind rfl fun _ => ?_
    split
    · exact goes_refuse specs
    · exact goes_checkAll changed specs

theorem goes_perform :
    Attempt.Goes s log c attempts (perform s c token) .authenticating (· = .done) State.IsOpen := by
  refine goes_advance_bind (b := .fetching) (by decide) nofun ?_
  refine quiet_pullNumber.goes_bind rfl fun number => ?_
  split
  · exact goes_advance (by decide) nofun
  · exact goes_checkPull _

/-! ## Tokens -/

theorem quiet_exchange (installation : Int) :
    Attempt.Quiet s log c attempts (s.exchange installation) := by
  refine Attempt.quiet_bind (Attempt.quiet_lift (Task.quiet_read _)) fun now => ?_
  refine Attempt.quiet_bind (Attempt.quiet_ofExcept fun _ => .signing) fun claim => ?_
  refine Attempt.quiet_bind (Attempt.quiet_call _) fun token => ?_
  exact Attempt.quiet_bind
    (Attempt.quiet_lift (Task.quiet_modify_aside (fun _ => rfl) fun _ => rfl)) fun _ =>
      Attempt.quiet_pure _

theorem quiet_getToken (installation : Int) :
    Attempt.Quiet s log c attempts (s.getToken installation) := by
  refine Attempt.quiet_locked_tokens ?_
  refine Attempt.quiet_bind (Attempt.quiet_lift (Task.quiet_read _)) fun token => ?_
  split
  · exact Attempt.quiet_pure _
  · exact quiet_exchange installation

theorem goes_authenticate :
    Attempt.Goes s log c attempts (authenticate s c) .received (· = .authenticating) State.IsOpen := by
  refine Attempt.goes_bind (goes_advance (b := .authenticating) (by decide) nofun) fun _ b hb => ?_
  exact (quiet_getToken _ b).mono (fun _ h => h.trans hb) fun _ h => h.trans hb ▸ rfl

theorem quiet_dropTokens (installation : Option Int) :
    (dropTokens installation).Quiet s log c attempts :=
  Task.quiet_bind Task.quiet_acquire_tokens fun _ =>
    Task.quiet_bind (Task.quiet_modify_aside (fun _ => rfl) fun _ => rfl) fun _ =>
      Task.quiet_release_tokens

/-! ## Failures -/

theorem quiet_completeFailed (left : List (String × Int)) :
    Attempt.Quiet s log c attempts (completeFailed c token left) := by
  induction left with
  | nil => exact Attempt.quiet_pure _
  | cons entry rest ih =>
    refine fun a => Attempt.goes_outcome_bind (quiet_updateRun _ _ _ a) (fun _ b hb => ?_)
      fun e b hb he => ?_
    · exact hb ▸ ih a
    · obtain rfl := hb
      split
      · exact ih b
      · exact ih b
      · next hthrown =>
        obtain rfl := Except.error.inj hthrown
        exact Attempt.goes_throw rfl he

/-- An attempt that fails puts on record what it met. -/
theorem goes_markFailed {failure : Failure} {rest : Attempt Unit} (ha : a.isTerminal = false)
    (hmeets : s.Meets log failure) (hrest : Attempt.Goes s log c attempts rest .failed ok err) :
    Attempt.Goes s log c attempts (do
      c.update fun r => ((r.advance .failed
        (some s!"{failure.kind}: {failure.message}")).toOption).getD r
      Task.note
        { request := c.request
          state := .failed
          message := "Delivery failed"
          reason := s!"{failure.kind}: {failure.message}"
          error := failure.kind }
      rest) a ok err := by
  intro d hd
  obtain ⟨hpasses, hisAt⟩ := hd.update (b := .failed)
    (f := fun r => ((r.advance .failed (some s!"{failure.kind}: {failure.message}")).toOption).getD r)
    fun r _ _ hheld hstate hattempts => by
      rw [Record.advance_of_precedes (hstate ▸ State.precedes_failed ha)]
      exact ⟨rfl, rfl, hheld, rfl, hattempts⟩
  let n : Notice :=
    { request := c.request
      state := .failed
      message := "Delivery failed"
      reason := s!"{failure.kind}: {failure.message}"
      error := failure.kind }
  let failed : Desk :=
    { d with
      ledger := d.ledger.update c.serial fun r =>
        ((r.advance .failed (some s!"{failure.kind}: {failure.message}")).toOption).getD r
      notices := n :: d.notices }
  have hfailed : c.Turn s log attempts a d .failed failed :=
    ⟨hpasses, hisAt, [n], rfl, ⟨State.precedes_failed ha, rfl⟩,
      List.forall_mem_singleton.mpr fun _ => ⟨failure, hmeets, rfl, rfl⟩⟩
  obtain ⟨b, hturn, hgoes⟩ := hrest failed hfailed.isAt
  exact ⟨b, hfailed.trans hturn, hgoes⟩

theorem goes_fail (withToken : Option String) {failure : Failure} (ha : a.isTerminal = false)
    (hmeets : s.Meets log failure) :
    Attempt.Goes s log c attempts (fail c withToken failure) a (· = .failed) (· = .failed) := by
  have hdrop : Attempt.Goes s log c attempts
      (dropTokens (some c.request.installation) : Attempt Unit) a (· = a) (· = .failed) :=
    Attempt.goes_lift (quiet_dropTokens _)
  have hdone : Attempt.Quiet s log c attempts (return ()) := Attempt.quiet_pure ()
  have hcomplete (token : String) :
      Attempt.Quiet s log c attempts (do completeFailed c token (← c.record).runs) :=
    Attempt.quiet_bind (Attempt.quiet_lift quiet_record) fun r => quiet_completeFailed r.runs
  unfold fail
  dsimp only
  cases withToken with
  | none =>
    split
    · exact Attempt.goes_bind hdrop fun _ _ hb => hb ▸ goes_markFailed ha hmeets (hdone _)
    · exact goes_markFailed ha hmeets (hdone _)
  | some token =>
    split
    · exact Attempt.goes_bind hdrop fun _ _ hb => hb ▸ goes_markFailed ha hmeets (hcomplete token _)
    · exact goes_markFailed ha hmeets (hcomplete token _)

/-! ## Attempts -/

/-- Whatever happens, in the end the check is over. -/
theorem goes_attempt :
    Attempt.Goes s log c attempts (attempt s c) .received (·.isTerminal = true)
      (·.isTerminal = true) := by
  refine Attempt.goes_outcome_bind goes_authenticate (fun token b hb => ?_) fun e b hb he => ?_
  · obtain rfl := hb
    refine Attempt.goes_outcome_bind goes_perform (fun _ b hb => ?_) fun e b hb he => ?_
    · exact Attempt.goes_pure (congrArg State.isTerminal hb)
    · exact (goes_fail _ hb he).mono (fun _ h => congrArg State.isTerminal h) fun _ h =>
        congrArg State.isTerminal h
  · exact (goes_fail _ hb he).mono (fun _ h => congrArg State.isTerminal h) fun _ h =>
        congrArg State.isTerminal h

/-- An attempt, and the state in which its check is then. -/
theorem goes_attempt_state :
    Attempt.Goes s log c attempts (do attempt s c; return (← c.record).state) .received
      (·.isTerminal = true) (·.isTerminal = true) :=
  Attempt.goes_bind goes_attempt fun _ _ hb =>
    (Attempt.quiet_lift quiet_record).goes_bind hb fun _ => Attempt.goes_pure hb

end TypstLint.Delivery
