import TypstLint.Proofs.Delivery.Reruns

set_option autoImplicit false

/-! # Requests that are delivered twice

A request is handled, and then the same request is handled again, with the record of its commit as the
first delivery has left it (`Ledger.Rests`). Unless the request asks for new check runs, no touched
version gets a second one, and nothing at all is asked for if the check was done. A request that asks for
new check runs gets them each time (`redelivery_asks`). -/

namespace TypstLint.Delivery

open GitHub (CheckRun Failure)

variable {s : Service} {request : CheckRequest} {serial : Nat} {r : Record} {d d' given : Desk}
  {log : List Exchange} {state : State} {runs start : List (String × Int)} {l : Ledger}
  {key : CheckKey} {others : Wait → Desk → Desk → Prop}

/-! ## Records at rest -/

/-- The record of a commit lies on the ledger under a number of its own, and nobody works on it. -/
structure Ledger.Rests (l : Ledger) (key : CheckKey) (r : Record) : Prop where
  found : l.get? key = some r
  alone : ∀ r' ∈ l.records, r'.serial = r.serial → r' = r
  free : r.lock.isFree = true

namespace Ledger

theorem key_of_get? (h : l.get? key = some r) : r.key = key := beq_iff_eq.mp (List.find?_some h :)

theorem get?_touch (h : l.get? key = some r) : (l.touch r).get? key = some r := by
  have hothers : (l.records.filter (·.key != r.key)).find? (·.key == key) = none := by
    refine List.find?_eq_none.mpr fun r' hr' heq => ?_
    have hne := bne_iff_ne.mp (List.mem_filter.mp hr').2
    exact hne ((beq_iff_eq.mp heq).trans (key_of_get? h).symm)
  rw [touch, get?, List.find?_append, hothers, Option.none_or, List.find?_cons_of_pos]
  exact beq_iff_eq.mpr (key_of_get? h)

theorem Rests.find?_records (h : l.Rests key r) : l.records.find? (·.serial == r.serial) = some r :=
  find?_of_unique (List.mem_of_find?_eq_some h.found) (beq_self_eq_true _) fun r' hr' hserial =>
    h.alone r' hr' (beq_iff_eq.mp hserial)

theorem Rests.find?_touch (h : l.Rests key r) : (l.touch r).find? r.serial = some r := by
  have hothers : (l.records.filter (·.key != r.key)).find? (·.serial == r.serial) = none := by
    refine List.find?_eq_none.mpr fun r' hr' heq => ?_
    obtain ⟨hmem, hne⟩ := List.mem_filter.mp hr'
    rw [h.alone r' hmem (beq_iff_eq.mp heq)] at hne
    exact bne_iff_ne.mp hne rfl
  rw [touch, find?, List.append_assoc, List.find?_append, hothers, Option.none_or, List.singleton_append,
    List.find?_cons_of_pos]
  exact beq_self_eq_true _

theorem claim_of_get? (h : l.get? request.key = some r) :
    l.claim request = (if r.isSettledFor request then none else some r.serial, l.touch r) := by
  rw [claim, h]

/-- A claim that names no record finds one of a check that is done. -/
theorem exists_settled_of_claim (h : (l.claim request).1 = none) :
    ∃ r, l.get? request.key = some r ∧ r.isSettledFor request = true := by
  cases hget : l.get? request.key with
  | none =>
    rw [claim, hget] at h
    cases h
  | some r =>
    rw [claim_of_get? hget] at h
    dsimp only at h
    split at h
    · next hsettled => exact ⟨r, rfl, hsettled⟩
    · cases h

end Ledger

/-! ## Locks that are taken and given back -/

theorem Task.find?_of_acquire (hfind : d.ledger.find? serial = some r) (hfree : r.lock.isFree = true)
    {u : Unit} (h : (acquire (.record serial)).Runs others d log u d') :
    d'.ledger.find? serial = some { r with lock := r.lock.take } := by
  rw [acquire, runs_bind] at h
  obtain ⟨_, free, d₁, _, rfl, hread, h⟩ := h
  obtain ⟨rfl, rfl, rfl⟩ := runs_read.mp hread
  have hlock : d₁.lock (.record serial) = r.lock := by
    rw [Desk.lock, hfind]
    rfl
  rw [hlock, if_pos hfree] at h
  obtain ⟨rfl, rfl⟩ := runs_modify.mp h
  rw [Desk.find?_updateLock, hfind]
  rfl

/-- What the holder of its lock knows of a record is what the record is afterwards. -/
theorem Task.runs_of_release {u : Unit}
    (h : (release (.record serial)).Runs others given log u d') (hgiven : given.Holds serial state runs)
    (hfind : d'.ledger.records.find? (·.serial == serial) = some r) :
    r.state = state ∧ r.runs = runs := by
  obtain ⟨-, rfl⟩ := runs_modify.mp h
  obtain ⟨held, hheld, -, rfl, rfl⟩ := hgiven
  let giveBack (r : Record) : Record := { r with lock := r.lock.giveBack }
  have hrecords : (given.ledger.records.find? (·.serial == serial)).map giveBack = some r :=
    (Ledger.find?_map_change (f := giveBack) fun _ hr => hr).symm.trans hfind
  obtain ⟨r₁, hr₁, rfl⟩ := Option.map_eq_some_iff.mp hrecords
  rw [Ledger.find?, List.find?_append, hr₁, Option.some_or] at hheld
  obtain rfl := Option.some.inj hheld
  exact ⟨rfl, rfl⟩

/-! ## What a delivery leaves -/

theorem settled_of_handle {result : Except Failure State} (hclaim : (d.ledger.claim request).1 = none)
    (hrun : Attempt.Runs others (handle s request) d log result d') :
    log = [] ∧ d'.ledger = (d.ledger.claim request).2 := by
  rw [handle, Attempt.runs_lift_bind] at hrun
  obtain ⟨_, claimed, d₁, _, rfl, hclaimed, hrun⟩ := hrun
  obtain ⟨rfl, rfl, rfl⟩ := Task.runs_claim.mp hclaimed
  rw [hclaim] at hrun
  obtain ⟨_, _, _, _, rfl, hnote, h⟩ := Attempt.runs_lift_bind.mp hrun
  obtain ⟨rfl, rfl⟩ := Task.runs_note.mp hnote
  obtain ⟨rfl, -, rfl⟩ := Attempt.runs_pure.mp h
  exact ⟨rfl, rfl⟩

/-- If no call fails, every touched version has a check run in the end. -/
theorem Attempted.lookup_isSome {c : Case} {ended : Except Failure Unit} {spec : Spec}
    (h : Attempted s c start log ended state d) (hsucceeds : ∀ e ∈ log, e.Succeeds)
    (hspec : spec ∈ touchedIn log) : ((start ++ createdRuns log).lookup spec.render).isSome := by
  rw [List.lookup_append]
  cases hstart : start.lookup spec.render with
  | some n => rfl
  | none =>
    have hmissing : spec.render ∈ missing start (touchedIn log) :=
      mem_missing_iff.mpr ⟨List.mem_map_of_mem hspec, hstart⟩
    rw [← h.asks.complete (.inr hsucceeds)] at hmissing
    obtain ⟨n, hn⟩ := exists_mem_createdRuns_of_mem_asked hsucceeds hmissing
    rw [Option.none_or, Assoc.lookup_isSome_iff]
    exact List.any_eq_true.mpr ⟨_, hn, beq_self_eq_true _⟩

/-- A request that asks for no new check runs keeps those on record. -/
theorem lookup_startingRuns_isSome {name : String} (hplain : request.rerequested = false)
    (h : (r.runs.lookup name).isSome) : ((r.startingRuns request).lookup name).isSome := by
  rw [Record.startingRuns, hplain]
  split
  · exact Assoc.lookup_set_isSome h
  · exact h

/-- A record on which a delivery leaves nothing to ask for: the check is done if the delivery said so, and
the versions that it found touched have check runs. -/
structure Record.IsServed (r : Record) (log : List Exchange) (result : Except Failure State) : Prop where
  done : result = .ok .done → r.state = .done
  runs : ∀ spec ∈ touchedIn log, (r.runs.lookup spec.render).isSome

theorem isServed_of_handle {result : Except Failure State}
    (hclaim : ∀ n, (d.ledger.claim request).1 = some n → n = r.serial)
    (hrun : Attempt.Runs (Undisturbed r.serial) (handle s request) d log result d')
    (hsucceeds : ∀ e ∈ log, e.Succeeds) (hleft : d'.ledger.Rests request.key r) :
    r.IsServed log result := by
  cases hserial : (d.ledger.claim request).1 with
  | none =>
    obtain ⟨rfl, hledger⟩ := settled_of_handle hserial hrun
    obtain ⟨r₁, hget, hsettled⟩ := Ledger.exists_settled_of_claim hserial
    have hfound := hleft.found
    rw [hledger, Ledger.claim_of_get? hget, Ledger.get?_touch hget] at hfound
    obtain rfl := Option.some.inj hfound
    exact ⟨fun _ => beq_iff_eq.mp (Bool.and_eq_true_iff.mp hsettled).1, List.forall_mem_nil _⟩
  | some n =>
    obtain rfl := hclaim n hserial
    obtain ⟨taken, r₁, given, hrecord, hheld, hlocked⟩ := locked_of_handle hserial hrun
    have hgiven {state : State} {runs : List (String × Int)} (h : given.Holds r.serial state runs) :
        r.state = state ∧ r.runs = runs :=
      Task.runs_of_release hrecord.released h hleft.find?_records
    rcases attempted_of_handleLocked (c := ⟨request, r.serial⟩) hrecord.found hheld hlocked with
      ⟨hsettled, -, rfl, hholds⟩ | ⟨-, ended, state, rfl, hattempted⟩
    · obtain ⟨hstate, -⟩ := hgiven hholds
      refine ⟨fun _ => ?_, List.forall_mem_nil _⟩
      rw [hstate]
      exact beq_iff_eq.mp (Bool.and_eq_true_iff.mp hsettled).1
    · obtain ⟨hstate, hruns⟩ := hgiven hattempted.holds
      refine ⟨fun hdone => ?_, fun spec hspec => ?_⟩
      · obtain ⟨_, -, heq⟩ := map_eq_ok.mp hdone
        exact hstate.trans heq
      · rw [hruns]
        exact hattempted.lookup_isSome hsucceeds hspec

/-! ## The second delivery -/

/-- A delivery that finds a record at rest finds that nothing is left to do, or makes an attempt that
starts with that record. -/
theorem attempted_of_rests {result : Except Failure State} (hrests : d.ledger.Rests request.key r)
    (hrun : Attempt.Runs (Undisturbed r.serial) (handle s request) d log result d') :
    (r.isSettledFor request = true ∧ log = []) ∨ r.isSettledFor request = false ∧ ∃ ended state given,
      Attempted s ⟨request, r.serial⟩ (r.startingRuns request) log ended state given := by
  have hclaim := Ledger.claim_of_get? hrests.found
  cases hsettled : r.isSettledFor request with
  | true =>
    refine .inl ⟨rfl, (settled_of_handle ?_ hrun).1⟩
    rw [hclaim, hsettled]
    rfl
  | false =>
    have hserial : (d.ledger.claim request).1 = some r.serial := by
      rw [hclaim, hsettled]
      rfl
    obtain ⟨taken, r₁, given, hrecord, hheld, hlocked⟩ := locked_of_handle hserial hrun
    have hfind : ({ d with ledger := (d.ledger.claim request).2 } : Desk).ledger.find? r.serial = some r := by
      rw [hclaim]
      exact hrests.find?_touch
    have htaken := Task.find?_of_acquire hfind hrests.free hrecord.acquired
    obtain rfl := Option.some.inj (hrecord.found.symm.trans htaken)
    rcases attempted_of_handleLocked (c := ⟨request, r.serial⟩) hrecord.found hheld hlocked with
      ⟨hsettled', -⟩ | ⟨-, ended, state, -, hattempted⟩
    · cases hsettled.symm.trans hsettled'
    · exact .inr ⟨rfl, ended, state, given, hattempted⟩

/-- What a request asks for when it is handled a second time, and no call fails either time. If it asks for
no new check runs, a check that is done is left alone, and no version gets a second check run. Else the
versions that the second delivery finds touched get new ones, but for the one that the request names. -/
theorem redelivery_asks {d₁ d₂ d₃ : Desk} {log₁ log₂ : List Exchange}
    {result₁ result₂ : Except Failure State}
    (hclaim : ∀ n, (d.ledger.claim request).1 = some n → n = r.serial)
    (hfirst : Attempt.Runs (Undisturbed r.serial) (handle s request) d log₁ result₁ d₁)
    (hleft : d₁.ledger.Rests request.key r) (hstill : d₂.ledger.Rests request.key r)
    (hsecond : Attempt.Runs (Undisturbed r.serial) (handle s request) d₂ log₂ result₂ d₃)
    (hsucceeds₁ : ∀ e ∈ log₁, e.Succeeds) (hsucceeds₂ : ∀ e ∈ log₂, e.Succeeds) :
    if request.rerequested then
      asked log₂ = ((touchedIn log₂).map Spec.render).filter fun name =>
        request.checkRun.all (·.name != name)
    else (result₁ = .ok .done → log₂ = []) ∧ ∀ spec ∈ touchedIn log₁, spec.render ∉ asked log₂ := by
  have hserved := isServed_of_handle hclaim hfirst hsucceeds₁ hleft
  have hsecond := attempted_of_rests hstill hsecond
  split
  · next hagain =>
    rcases hsecond with ⟨hsettled, -⟩ | ⟨-, ended, state, given, hattempted⟩
    · exact absurd hsettled (Record.not_isSettledFor_of_rerequested hagain)
    · rw [hattempted.asks.complete (.inr hsucceeds₂)]
      exact missing_of_rerequested hagain _
  · next hplain =>
    have hplain := Bool.eq_false_iff.mpr hplain
    rcases hsecond with ⟨-, rfl⟩ | ⟨hsettled, ended, state, given, hattempted⟩
    · exact ⟨fun _ => rfl, fun _ _ => List.not_mem_nil⟩
    · refine ⟨fun hdone => ?_, fun spec hspec hasked => ?_⟩
      · rw [Record.isSettledFor, hserved.done hdone, hplain] at hsettled
        cases hsettled
      · have hstart := lookup_startingRuns_isSome hplain (hserved.runs spec hspec)
        rw [(mem_missing_iff.mp (hattempted.asks.subset hasked)).2] at hstart
        cases hstart

/-! ## The check run of a package is run again by two deliveries of one request -/

/-- The record is at rest after an attempt. -/
theorem rests_rerunDesk (n : Int) (attempts : Nat) (notices : List Notice) :
    (rerunDesk (rerunRecord n attempts) false notices).ledger.Rests rerunRequest.key
      (rerunRecord n attempts) where
  found := rfl
  alone _ hr' _ := List.mem_singleton.mp hr'
  free := rfl

theorem redelivery_asks_mixed : ∃ d₁ d₂ r,
    (∀ n, (rerunStart.ledger.claim rerunRequest).1 = some n → n = r.serial)
      ∧ Attempt.Runs (Undisturbed r.serial) (handle mixedService rerunRequest) rerunStart (rerunLog 2)
        (.ok .done) d₁
      ∧ d₁.ledger.Rests rerunRequest.key r
      ∧ Attempt.Runs (Undisturbed r.serial) (handle mixedService rerunRequest) d₁ (rerunLog 3)
        (.ok .done) d₂
      ∧ (∀ e ∈ rerunLog 2, e.Succeeds) ∧ (∀ e ∈ rerunLog 3, e.Succeeds)
      ∧ if rerunRequest.rerequested then
          asked (rerunLog 3) = ((touchedIn (rerunLog 3)).map Spec.render).filter fun name =>
            rerunRequest.checkRun.all (·.name != name)
        else ((.ok .done : Except Failure State) = .ok .done → rerunLog 3 = [])
          ∧ ∀ spec ∈ touchedIn (rerunLog 2), spec.render ∉ asked (rerunLog 3) := by
  obtain ⟨notices, notices', hfirst, hsecond⟩ := exists_runs_rerun
  have hclaim (n : Nat) (h : (rerunStart.ledger.claim rerunRequest).1 = some n) :
      n = (rerunRecord 2 1).serial := (Option.some.inj h).symm
  have hrests := rests_rerunDesk 2 1 notices
  exact ⟨_, _, rerunRecord 2 1, hclaim, hfirst, hrests, hsecond, succeeds_rerunLog 2,
    succeeds_rerunLog 3, redelivery_asks hclaim hfirst hrests hrests hsecond (succeeds_rerunLog 2)
      (succeeds_rerunLog 3)⟩

/-- The second delivery of a request that asks for new check runs creates a second check run for a package
that got one from the first delivery, although the check is done and no call fails. -/
theorem redelivery_creates_second_run : ∃ d₁ d₂ r,
    Attempt.Runs (Undisturbed 0) (handle mixedService rerunRequest) rerunStart (rerunLog 2) (.ok .done) d₁
      ∧ d₁.ledger.Rests rerunRequest.key r ∧ r.state = .done
      ∧ Attempt.Runs (Undisturbed 0) (handle mixedService rerunRequest) d₁ (rerunLog 3) (.ok .done) d₂
      ∧ (∀ e ∈ rerunLog 2, e.Succeeds) ∧ (∀ e ∈ rerunLog 3, e.Succeeds)
      ∧ createdRuns (rerunLog 2) = [("@preview/b:1.0.0", 2)]
      ∧ createdRuns (rerunLog 3) = [("@preview/b:1.0.0", 3)] := by
  obtain ⟨notices, notices', hfirst, hsecond⟩ := exists_runs_rerun
  exact ⟨_, _, _, hfirst, rests_rerunDesk 2 1 notices, rfl, hsecond, succeeds_rerunLog 2,
    succeeds_rerunLog 3, rfl, rfl⟩

end TypstLint.Delivery
