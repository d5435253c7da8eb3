import TypstLint.Proofs.Delivery.Accounts

set_option autoImplicit false

/-! # The course of deliveries

However deliveries take turns, whatever is answered to them and whichever records are given up: the account
of them and what they have made of the ledger fit together (`Crowd.Accords`). So every attempt goes
forward to its end, each is counted once, and a check that nobody works on is over. -/

namespace TypstLint.Delivery

open GitHub (Failure)

variable {s : Service} {log : List Exchange} {c : Case} {attempts : Nat} {a : State} {d d' : Desk}
  {l l' : Ledger} {own : Option Nat} {n : Nat} {request : CheckRequest}

/-! ## What holds of a delivery at any time -/

/-- What is known of a delivery, given the record that it has claimed and the states that it has put on
record. -/
inductive Stage.Accords (s : Service) (log : List Exchange) (request : CheckRequest) (l : Ledger) :
    Stage → Option Nat → List State → Prop where
  | ahead (claimed : Option Nat) : Accords s log request l .ahead claimed []
  /-- It waits for its turn with the record that it has claimed, which may even be forgotten. -/
  | queued {n ticket : Nat} (hknows : l.Knows n request.key) :
      Accords s log request l
        (.waiting (.turn (.record n) ticket) fun _ d =>
          Case.work ⟨request, n⟩ s (d.updateLock (.record n) (·.enter ticket)))
        (some n) []
  | working {n attempts : Nat} {a : State} {later : List State} {w : Wait} {d : Desk}
      {next : w.Answer → Desk → Step (Except Failure State)}
      (hisAt : Case.IsAt ⟨request, n⟩ attempts a l) (hleads : State.received.Leads later a)
      (hgoes : (Step.wait w d next).Goes s log ⟨request, n⟩ attempts (fun _ b => b.isTerminal = true) a) :
      Accords s log request l
        (.waiting w fun answer d => (next answer d).bind (Case.leave ⟨request, n⟩)) (some n)
        (.received :: later)
  /-- It has asked for nothing new. -/
  | duplicate (result : Except Failure State) (claimed : Option Nat) :
      Accords s log request l (.ended result) claimed [.done]
  | finished {result : Except Failure State} {claimed : Option Nat} {a : State} {later : List State}
      (hleads : State.received.Leads later a) (hover : a.isTerminal = true) :
      Accords s log request l (.ended result) claimed (.received :: later)

/-- The notice that a delivery asks for nothing new. -/
def duplicateNotice (request : CheckRequest) : Notice where
  request
  state := .done
  message := "Duplicate delivery ignored, checks are already done"

theorem taken_duplicateNotice : taken [duplicateNotice request] = [.done] := rfl

/-- The notice that an attempt starts. -/
def acceptedNotice (request : CheckRequest) : Notice where
  request
  state := .received
  message := "Delivery accepted"

/-- A delivery that has the lock of its record starts an attempt, unless it asks for nothing new. -/
theorem run_handleLocked {r : Record} (hfind : d.ledger.find? c.serial = some r) :
    (handleLocked s c).run d =
      if r.isSettledFor c.request then
        .done (.ok .done) { d with notices := duplicateNotice c.request :: d.notices }
      else
        (do attempt s c; return (← c.record).state : Attempt State).run
          { d with
            ledger := d.ledger.update c.serial (·.restart c.request)
            notices := acceptedNotice c.request :: d.notices } := by
  rw [handleLocked, Attempt.run_record_bind hfind]
  split <;> rfl

/-- Who waits for something else than a record is in the middle of an attempt. -/
theorem Stage.inAttempt_waiting {w : Wait} {next : w.Answer → Desk → Step (Except Failure State)}
    (hw : ∀ n ticket, w ≠ .turn (.record n) ticket) : (Stage.waiting w next).InAttempt := by
  cases w with
  | turn name ticket =>
    cases name with
    | record n => exact absurd rfl (hw n ticket)
    | tokens => trivial
  | _ => trivial

namespace Stage.Accords

variable {stage : Stage} {claimed : Option Nat} {told : List State}

/-- Who is in the middle of an attempt has the lock of the record that it has claimed. -/
theorem isAt (h : stage.Accords s log request l claimed told) (hattempt : stage.InAttempt) :
    ∃ n attempts a later, claimed = some n ∧ told = .received :: later ∧ State.received.Leads later a
      ∧ Case.IsAt ⟨request, n⟩ attempts a l := by
  cases h with
  | ahead => exact hattempt.elim
  | queued => exact hattempt.elim
  | working hisAt hleads _ => exact ⟨_, _, _, _, rfl, rfl, hleads, hisAt⟩
  | duplicate => exact hattempt.elim
  | finished => exact hattempt.elim

/-- What others do leaves a delivery as it is. -/
theorem passes (h : stage.Accords s log request l claimed told) (hsound : l'.IsSound)
    (hpasses : l.Passes own l') (hown : stage.InAttempt → ∀ n, claimed = some n → own ≠ some n) :
    stage.Accords s log request l' claimed told := by
  cases h with
  | ahead => exact .ahead _
  | queued hknows => exact .queued (hknows.passes hpasses)
  | working hisAt hleads hgoes =>
    exact .working (hisAt.passes hsound hpasses (hown (inAttempt_waiting hgoes.1) _ rfl)) hleads hgoes
  | duplicate => exact .duplicate _ _
  | finished hleads hover => exact .finished hleads hover

end Stage.Accords

/-! ## What holds of a record at any time -/

/-- The number of attempts that there were with a record. -/
def Ledger.attemptsOn (l : Ledger) (n : Nat) : Nat := ((l.find? n).map (·.attempts)).getD 0

/-- The state of a record; that of one that is not there yet is the first one. -/
def Ledger.stateOn (l : Ledger) (n : Nat) : State := ((l.find? n).map (·.state)).getD .received

/-- The number of attempts with a record is that in the ledger `first` and one for each start that was put
on record since, and the state of the record is the last one that was. -/
structure Ledger.Gives (first : Ledger) (n : Nat) (told : List State) (attempts : Nat) (a : State) :
    Prop where
  attempts_eq : attempts = first.attemptsOn n + told.count .received
  state_eq : a = told.getLast?.getD (first.stateOn n)

/-- An attempt that goes on is the same one. -/
theorem Ledger.Gives.leads {first : Ledger} {told new : List State} {b : State}
    (h : first.Gives n told attempts a) (hleads : a.Leads new b) :
    first.Gives n (told ++ new) attempts b := by
  refine ⟨?_, ?_⟩
  · rw [List.count_append, List.count_eq_zero.mpr hleads.notMem_received]
    exact h.attempts_eq
  · cases new with
    | nil =>
      obtain rfl : b = a := hleads
      rw [List.append_nil]
      exact h.state_eq
    | cons next new =>
      have hlast := hleads.getLast?
      rw [List.getLast?_cons_cons] at hlast
      rw [List.getLast?_append, hlast]
      rfl

/-- A new attempt. -/
theorem Ledger.Gives.restart {first : Ledger} {told later : List State} {b : State}
    (h : first.Gives n told attempts a) (hleads : State.received.Leads later b) :
    first.Gives n (told ++ .received :: later) (attempts + 1) b := by
  refine ⟨?_, ?_⟩
  · rw [List.count_append, List.count_cons_self, List.count_eq_zero.mpr hleads.notMem_received,
      h.attempts_eq]
    rfl
  · rw [List.getLast?_append, hleads.getLast?]
    rfl

/-! ## What holds of all deliveries at any time -/

/-- The account of deliveries, the ledger and the notices fit together, where there were the ledger `first`
and the notices `old` at first. -/
structure Crowd.Accords {ι : Type} [DecidableEq ι] (s : Service) (log : List Exchange)
    (requests : ι → CheckRequest) (first : Ledger) (old : List Notice) (crowd : Crowd ι)
    (account : Account ι) : Prop where
  sound : crowd.desk.ledger.IsSound
  stages : ∀ i, (crowd.stages i).Accords s log (requests i) crowd.desk.ledger (account.claimed i)
    (account.toldBy i)
  apart : ∀ i j n, (crowd.stages i).InAttempt → (crowd.stages j).InAttempt →
    account.claimed i = some n → account.claimed j = some n → i = j
  holder : ∀ r ∈ crowd.desk.ledger.all, r.lock.held = true →
    ∃ i, (crowd.stages i).InAttempt ∧ account.claimed i = some r.serial
  gives : ∀ r ∈ crowd.desk.ledger.all,
    first.Gives r.serial (account.toldOn r.serial) r.attempts r.state
  claimedOld : ∀ i n, account.claimed i = some n → n < crowd.desk.ledger.nextSerial
  firstOld : ∀ n, crowd.desk.ledger.nextSerial ≤ n → first.find? n = none
  explains : ∃ new, crowd.desk.notices = new ++ old ∧ ∀ n ∈ new, s.Explains log n

/-- How a turn of a delivery that puts `states` on record bears on the ledger: the delivery works on the
record `own`, which it has claimed and nobody else works on, or on none. -/
structure Crowd.Works {ι : Type} [DecidableEq ι] (crowd : Crowd ι) (account : Account ι) (i : ι)
    (own : Option Nat) (turn : Step (Except Failure State)) (states : List State) : Prop where
  claimed : ∀ n, own = some n → account.claimed i = some n
  others : ∀ j, j ≠ i → (crowd.stages j).InAttempt → ∀ n, account.claimed j = some n → own ≠ some n
  aside : own = none → ¬ (crowd.stages i).InAttempt ∧ ¬ turn.stage.InAttempt
    ∧ (account.claimed i = none ∨ states = [])

namespace Crowd.Works

variable {ι : Type} [DecidableEq ι] {crowd : Crowd ι} {account : Account ι} {i : ι}
  {turn : Step (Except Failure State)} {states : List State}

theorem of_claimed (hclaimed : account.claimed i = some n)
    (hothers : ∀ j, j ≠ i → (crowd.stages j).InAttempt → account.claimed j ≠ some n) :
    crowd.Works account i (some n) turn states where
  claimed _ hn := hn ▸ hclaimed
  others j hj hattempt _ hclaimed hn := hothers j hj hattempt (hclaimed.trans hn.symm)
  aside := nofun

theorem of_aside (hbefore : ¬ (crowd.stages i).InAttempt) (hafter : ¬ turn.stage.InAttempt)
    (hnothing : account.claimed i = none ∨ states = []) : crowd.Works account i none turn states where
  claimed _ := nofun
  others _ _ _ _ _ := nofun
  aside _ := ⟨hbefore, hafter, hnothing⟩

/-- Who is in the middle of an attempt before or after a turn works on the record that it has claimed. -/
theorem own_eq (h : crowd.Works account i own turn states)
    (hattempt : (crowd.stages i).InAttempt ∨ turn.stage.InAttempt)
    (hclaimed : account.claimed i = some n) : own = some n := by
  cases own with
  | none =>
    obtain ⟨hbefore, hafter, -⟩ := h.aside rfl
    exact (hattempt.elim hbefore hafter).elim
  | some m => exact (h.claimed m rfl).symm.trans hclaimed

/-- What was put on record with other records stays as it is. -/
theorem toldOn_turn_of_ne (h : crowd.Works account i own turn states)
    (htold : crowd.desk.toldUntil turn.desk = states) (hne : own ≠ some n) :
    (account.turn i crowd.desk turn.desk).toldOn n = account.toldOn n := by
  by_cases hclaimed : account.claimed i = some n
  · -- the delivery has claimed the record, but does not work on it yet
    cases own with
    | none =>
      rcases (h.aside rfl).2.2 with hnone | hnil
      · cases hnone.symm.trans hclaimed
      · rw [Account.toldOn_turn hclaimed, htold, hnil, List.append_nil]
    | some m => exact absurd ((h.claimed m rfl).symm.trans hclaimed) hne
  · exact Account.toldOn_turn_of_ne hclaimed

end Crowd.Works

namespace Crowd.Accords

variable {ι : Type} [DecidableEq ι] {requests : ι → CheckRequest} {first : Ledger}
  {old : List Notice} {crowd crowd' : Crowd ι} {account account' : Account ι} {i j : ι}

/-- Nobody works on a record whose lock is free. -/
theorem claimed_ne (h : crowd.Accords s log requests first old account) {r : Record}
    (hr : r ∈ crowd.desk.ledger.all) (hfree : r.lock.held = false)
    (hattempt : (crowd.stages j).InAttempt) : account.claimed j ≠ some r.serial := by
  intro hclaimed
  obtain ⟨n, _, _, _, hn, -, -, hisAt⟩ := (h.stages j).isAt hattempt
  obtain rfl : n = r.serial := Option.some.inj (hn.symm.trans hclaimed)
  obtain ⟨r', hr', hserial, -, hheld, -⟩ := hisAt.there
  rw [h.sound.serials r' hr' r hr hserial, hfree] at hheld
  cases hheld

/-- What is known of the records that come from a turn that leaves them alone. -/
theorem came (h : crowd.Accords s log requests first old account)
    (hpasses : crowd.desk.ledger.Passes own l') {r' : Record} (hr' : r' ∈ l'.all)
    (hown : own ≠ some r'.serial) :
    (r'.lock.held = true → ∃ j, (crowd.stages j).InAttempt ∧ account.claimed j = some r'.serial)
      ∧ first.Gives r'.serial (account.toldOn r'.serial) r'.attempts r'.state := by
  rcases hpasses.came r' hr' hown with ⟨r, hr, hlike⟩ | hnew
  · rw [hlike.held_eq, hlike.serial_eq, hlike.attempts_eq, hlike.state_eq]
    exact ⟨h.holder r hr, h.gives r hr⟩
  · -- nobody has claimed a new record yet
    have hnobody : account.toldOn r'.serial = [] := Account.toldOn_eq_nil fun i hclaimed =>
      Nat.not_le.mpr (h.claimedOld i _ hclaimed) hnew.serial_le
    have hnone : first.find? r'.serial = none := h.firstOld _ hnew.serial_le
    refine ⟨fun hheld => ?_, ?_, ?_⟩
    · rw [hnew.held_eq] at hheld
      cases hheld
    · rw [hnobody, Ledger.attemptsOn, hnone]
      exact hnew.attempts_eq
    · rw [hnobody, Ledger.stateOn, hnone]
      exact hnew.state_eq

/-- A delivery that gets the desk for the first time claims a record. -/
theorem claim (h : crowd.Accords s log requests first old account) (hstage : crowd.stages i = .ahead)
    (hsound : d.ledger.IsSound) (hpasses : crowd.desk.ledger.Passes none d.ledger)
    (hnotices : d.notices = crowd.desk.notices) {claimed : Option Nat}
    (hclaimed : ∀ n, claimed = some n → n < d.ledger.nextSerial) :
    Accords s log requests first old { crowd with desk := d } (account.claim i claimed)
      ∧ account.toldBy i = [] := by
  have htold : account.toldBy i = [] := by
    have hi := h.stages i
    rw [hstage] at hi
    generalize account.toldBy i = told at hi ⊢
    cases hi with
    | ahead => rfl
  -- only deliveries in the middle of an attempt count, and this is none of them
  have hne {j : ι} (hj : (crowd.stages j).InAttempt) : j ≠ i := by
    rintro rfl
    rw [hstage] at hj
    exact hj
  refine ⟨⟨hsound, fun j => ?_, fun j k n hj hk hjn hkn => ?_, fun r hr hheld => ?_, fun r hr => ?_,
    fun j n hjn => ?_, fun n hn => h.firstOld n (Nat.le_trans hpasses.later hn), hnotices ▸ h.explains⟩,
    htold⟩
  · by_cases hj : j = i
    · subst hj
      show (crowd.stages j).Accords s log (requests j) d.ledger _ (account.toldBy j)
      rw [hstage, htold]
      exact .ahead _
    · rw [Account.claimed_claim_of_ne hj]
      exact (h.stages j).passes hsound hpasses fun _ _ _ => nofun
  · rw [Account.claimed_claim_of_ne (hne hj)] at hjn
    rw [Account.claimed_claim_of_ne (hne hk)] at hkn
    exact h.apart j k n hj hk hjn hkn
  · obtain ⟨j, hj, hjr⟩ := (h.came hpasses hr nofun).1 hheld
    exact ⟨j, hj, (Account.claimed_claim_of_ne (hne hj)).trans hjr⟩
  · rw [Account.toldOn_claim htold]
    exact (h.came hpasses hr nofun).2
  · by_cases hj : j = i
    · subst hj
      rw [Account.claimed_claim_self] at hjn
      exact hclaimed n hjn
    · rw [Account.claimed_claim_of_ne hj] at hjn
      exact Nat.lt_of_lt_of_le (h.claimedOld j n hjn) hpasses.later

/-- A turn of a delivery. -/
theorem move {turn : Step (Except Failure State)}
    (h : crowd.Accords s log requests first old account) (new : List Notice)
    (hworks : crowd.Works account i own turn (taken new)) (hsound : turn.desk.ledger.IsSound)
    (hpasses : crowd.desk.ledger.Passes own turn.desk.ledger)
    (hnew : turn.desk.notices = new ++ crowd.desk.notices) (hexplains : ∀ n ∈ new, s.Explains log n)
    (hstage : turn.stage.Accords s log (requests i) turn.desk.ledger (account.claimed i)
      (account.toldBy i ++ taken new))
    (hrecord : ∀ r ∈ turn.desk.ledger.all, own = some r.serial →
      (r.lock.held = true → turn.stage.InAttempt)
        ∧ first.Gives r.serial (account.toldOn r.serial ++ taken new) r.attempts r.state) :
    (crowd.move i turn).Accords s log requests first old (account.turn i crowd.desk turn.desk) := by
  have htold : crowd.desk.toldUntil turn.desk = taken new := Desk.toldUntil_eq hnew
  obtain ⟨before, hbefore, hexplained⟩ := h.explains
  -- nobody else is in the middle of an attempt with the record of this delivery
  have hapart {j : ι} {n : Nat} (hj : j ≠ i) (hattempt : (crowd.stages j).InAttempt)
      (hi : turn.stage.InAttempt) (hjn : account.claimed j = some n)
      (hin : account.claimed i = some n) : False :=
    hworks.others j hj hattempt n hjn (hworks.own_eq (.inr hi) hin)
  refine ⟨hsound, fun j => ?_, fun j k n hj hk hjn hkn => ?_, fun r hr hheld => ?_, fun r hr => ?_,
    fun j n hjn => Nat.lt_of_lt_of_le (h.claimedOld j n hjn) hpasses.later,
    fun n hn => h.firstOld n (Nat.le_trans hpasses.later hn), new ++ before, ?_,
    List.forall_mem_append.mpr ⟨hexplains, hexplained⟩⟩
  · by_cases hj : j = i
    · subst hj
      rw [Crowd.stages_move_self, Account.toldBy_turn_self, htold]
      exact hstage
    · rw [Crowd.stages_move_of_ne _ hj, Account.toldBy_turn_of_ne hj]
      exact (h.stages j).passes hsound hpasses (hworks.others j hj)
  · by_cases hji : j = i <;> by_cases hki : k = i
    · rw [hji, hki]
    · subst hji
      rw [Crowd.stages_move_self] at hj
      rw [Crowd.stages_move_of_ne _ hki] at hk
      exact (hapart hki hk hj hkn hjn).elim
    · subst hki
      rw [Crowd.stages_move_self] at hk
      rw [Crowd.stages_move_of_ne _ hji] at hj
      exact (hapart hji hj hk hjn hkn).elim
    · rw [Crowd.stages_move_of_ne _ hji] at hj
      rw [Crowd.stages_move_of_ne _ hki] at hk
      exact h.apart j k n hj hk hjn hkn
  · by_cases hown : own = some r.serial
    · refine ⟨i, ?_, hworks.claimed _ hown⟩
      rw [Crowd.stages_move_self]
      exact (hrecord r hr hown).1 hheld
    · obtain ⟨j, hj, hjr⟩ := (h.came hpasses hr hown).1 hheld
      have hji : j ≠ i := by
        rintro rfl
        exact hown (hworks.own_eq (.inl hj) hjr)
      exact ⟨j, by rwa [Crowd.stages_move_of_ne _ hji], hjr⟩
  · by_cases hown : own = some r.serial
    · rw [Account.toldOn_turn (hworks.claimed _ hown), htold]
      exact (hrecord r hr hown).2
    · rw [hworks.toldOn_turn_of_ne htold hown]
      exact (h.came hpasses hr hown).2
  · show turn.desk.notices = _
    rw [hnew, hbefore, List.append_assoc]

section

variable (h : crowd.Accords s log requests first old account) (new : List Notice)
  (hclaimed : account.claimed i = some n)
  (hothers : ∀ j, j ≠ i → (crowd.stages j).InAttempt → account.claimed j ≠ some n)

include h hclaimed hothers

/-- A delivery that has its record in hand gives the lock back when the check is over. -/
theorem leave {result : Except Failure State} (hpasses : crowd.desk.ledger.Passes (some n) d.ledger)
    (hisAt : Case.IsAt ⟨requests i, n⟩ attempts a d.ledger) (hover : a.isTerminal = true)
    (hnew : d.notices = new ++ crowd.desk.notices) (hexplains : ∀ n ∈ new, s.Explains log n)
    (hgives : first.Gives n (account.toldOn n ++ taken new) attempts a)
    (hended : ∀ l, (Stage.ended result).Accords s log (requests i) l (account.claimed i)
      (account.toldBy i ++ taken new)) :
    (crowd.move i ((Step.done result d).bind (Case.leave ⟨requests i, n⟩))).Accords s log requests
      first old
      (account.turn i crowd.desk ((Step.done result d).bind (Case.leave ⟨requests i, n⟩)).desk) := by
  let given : Desk := d.updateLock (.record n) Lock.giveBack
  have hgive : (Step.done result d).bind (Case.leave ⟨requests i, n⟩) =
      .done result { given with ledger := given.ledger.forgetRetired } := rfl
  have hsound : given.ledger.IsSound := hisAt.sound.relock fun r hr hn _ _ => by
    obtain ⟨-, -, hstate, -⟩ := hisAt.of_serial hr hn
    rw [hstate, hover]
  have hgiven : d.ledger.Passes (some n) given.ledger := Ledger.passes_relock
  rw [hgive]
  refine h.move new (.of_claimed hclaimed hothers) hsound.forgetRetired
    ((hpasses.trans hgiven).trans Ledger.passes_forgetRetired) hnew hexplains (hended _)
    fun r hr hown => ?_
  -- the record that is left has its lock free
  obtain rfl : n = r.serial := Option.some.inj hown
  obtain ⟨r', hr', ⟨hn, rfl⟩ | ⟨hn, rfl⟩⟩ :=
    Ledger.cases_update (Ledger.all_forgetRetired_subset hr)
  · obtain ⟨-, -, hstate, hattempts⟩ := hisAt.of_serial hr' hn
    exact ⟨nofun, hattempts ▸ hstate ▸ hgives⟩
  · exact absurd rfl hn

/-- A turn of a delivery that has its record in hand. At its end it waits for something else, or the check
is over and it gives the lock back. -/
theorem work {turn : Step (Except Failure State)} {later : List State}
    (hpasses : crowd.desk.ledger.Passes (some n) turn.desk.ledger)
    (hisAt : Case.IsAt ⟨requests i, n⟩ attempts a turn.desk.ledger)
    (hnew : turn.desk.notices = new ++ crowd.desk.notices) (hexplains : ∀ n ∈ new, s.Explains log n)
    (hgives : first.Gives n (account.toldOn n ++ taken new) attempts a)
    (htold : account.toldBy i ++ taken new = .received :: later) (hleads : State.received.Leads later a)
    (hgoes : turn.Goes s log ⟨requests i, n⟩ attempts (fun _ b => b.isTerminal = true) a) :
    (crowd.move i (turn.bind (Case.leave ⟨requests i, n⟩))).Accords s log requests first old
      (account.turn i crowd.desk (turn.bind (Case.leave ⟨requests i, n⟩)).desk) := by
  cases turn with
  | done result d =>
    refine h.leave new hclaimed hothers hpasses hisAt hgoes hnew hexplains hgives fun l => ?_
    rw [htold]
    exact .finished hleads hgoes
  | wait w d next =>
    refine h.move new (.of_claimed hclaimed hothers) hisAt.sound hpasses hnew hexplains ?_ fun r hr hown =>
      ⟨fun _ => Stage.inAttempt_waiting hgoes.1, ?_⟩
    · rw [htold, hclaimed]
      exact .working (d := d) hisAt hleads hgoes
    · obtain rfl : n = r.serial := Option.some.inj hown
      obtain ⟨-, -, hstate, hattempts⟩ := hisAt.of_serial hr rfl
      exact hattempts ▸ hstate ▸ hgives

/-- A delivery that has just taken the lock of its record starts an attempt. -/
theorem start (htold : account.toldBy i = [])
    (hpasses : crowd.desk.ledger.Passes (some n) d.ledger)
    (hisAt : Case.IsAt ⟨requests i, n⟩ attempts a d.ledger)
    (hnotices : d.notices = crowd.desk.notices)
    (hgives : first.Gives n (account.toldOn n) attempts a) {turn : Step (Except Failure State)}
    (hturn : turn = (do attempt s ⟨requests i, n⟩; return (← Case.record ⟨requests i, n⟩).state :
      Attempt State).run
        { d with
          ledger := d.ledger.update n (·.restart (requests i))
          notices := acceptedNotice (requests i) :: d.notices }) :
    (crowd.move i (turn.bind (Case.leave ⟨requests i, n⟩))).Accords s log requests first old
      (account.turn i crowd.desk (turn.bind (Case.leave ⟨requests i, n⟩)).desk) := by
  obtain ⟨hrestart, hstarted⟩ := hisAt.update (f := (·.restart (requests i))) (b := .received)
    fun _ _ _ hheld _ hattempts => ⟨rfl, rfl, hheld, rfl, congrArg (· + 1) hattempts⟩
  have hattempt : Attempt.Goes s log ⟨requests i, n⟩ (attempts + 1) _ .received
    (·.isTerminal = true) (·.isTerminal = true) := goes_attempt_state
  obtain ⟨b, hmade, hgoes⟩ := hattempt
    { d with
      ledger := d.ledger.update n (·.restart (requests i))
      notices := acceptedNotice (requests i) :: d.notices } hstarted
  obtain ⟨new, hnew, hleads, hexplains⟩ := hmade.tells
  have htaken : taken (new ++ [acceptedNotice (requests i)]) = .received :: taken new :=
    taken_append new _
  subst hturn
  refine h.work (new ++ [acceptedNotice (requests i)]) hclaimed hothers
    ((hpasses.trans hrestart).trans hmade.passes) hmade.isAt ?_ ?_ ?_ ?_ hleads
    (hgoes.mono fun result b hallows => ?_)
  · rw [hnew, ← hnotices, List.append_assoc]
    rfl
  · exact List.forall_mem_append.mpr
      ⟨hexplains, List.forall_mem_singleton.mpr (explains_of_ne_failed nofun)⟩
  · rw [htaken]
    exact hgives.restart hleads
  · rw [htold, htaken]
    rfl
  · cases result with
    | ok _ => exact hallows
    | error _ => exact hallows.1

/-- A delivery that finds its check done asks for nothing new. -/
theorem refuse (htold : account.toldBy i = [])
    (hpasses : crowd.desk.ledger.Passes (some n) d.ledger)
    (hisAt : Case.IsAt ⟨requests i, n⟩ attempts .done d.ledger)
    (hnotices : d.notices = crowd.desk.notices)
    (hgives : first.Gives n (account.toldOn n) attempts .done) {turn : Step (Except Failure State)}
    (hturn : turn = .done (.ok .done) { d with notices := duplicateNotice (requests i) :: d.notices }) :
    (crowd.move i (turn.bind (Case.leave ⟨requests i, n⟩))).Accords s log requests first old
      (account.turn i crowd.desk (turn.bind (Case.leave ⟨requests i, n⟩)).desk) := by
  subst hturn
  refine h.leave [duplicateNotice (requests i)] hclaimed hothers hpasses hisAt rfl
    (congrArg _ hnotices) (List.forall_mem_singleton.mpr (explains_of_ne_failed nofun)) ⟨?_, ?_⟩
    fun l => ?_
  · rw [List.count_append]
    exact hgives.attempts_eq
  · rw [taken_duplicateNotice, List.getLast?_append]
    rfl
  · rw [htold]
    exact .duplicate _ _

end

/-- A delivery that takes the free lock of its record. -/
theorem enter {f : Lock → Lock} {r : Record} (h : crowd.Accords s log requests first old account)
    (htold : account.toldBy i = []) (hclaimed : account.claimed i = some n)
    (hr : r ∈ crowd.desk.ledger.all) (hserial : r.serial = n) (hkey : r.key = (requests i).key)
    (hfree : r.lock.held = false) (hf : ∀ lock : Lock, (f lock).held = true) :
    (crowd.move i (Case.work ⟨requests i, n⟩ s (crowd.desk.updateLock (.record n) f))).Accords s log
      requests first old (account.turn i crowd.desk
        (Case.work ⟨requests i, n⟩ s (crowd.desk.updateLock (.record n) f)).desk) := by
  let held : Desk := crowd.desk.updateLock (.record n) f
  have hothers (j : ι) (_ : j ≠ i) (hattempt : (crowd.stages j).InAttempt) :
      account.claimed j ≠ some n := hserial ▸ h.claimed_ne hr hfree hattempt
  have hpasses : crowd.desk.ledger.Passes (some n) held.ledger := Ledger.passes_relock
  have hsound : held.ledger.IsSound := h.sound.relock fun r _ _ hfree' => by
    rw [hf] at hfree'
    cases hfree'
  have hmem : { r with lock := f r.lock } ∈ held.ledger.all := Ledger.mem_all_update hr hserial
  have hisAt : Case.IsAt ⟨requests i, n⟩ r.attempts r.state held.ledger :=
    ⟨hsound, _, hmem, hserial, hkey, hf r.lock, rfl, rfl⟩
  have hgives : first.Gives n (account.toldOn n) r.attempts r.state := hserial ▸ h.gives r hr
  rw [Case.work, run_handleLocked (c := ⟨requests i, n⟩) (hsound.find?_iff.mpr ⟨hmem, hserial⟩)]
  split
  · next hsettled =>
    have hdone : r.state = .done := beq_iff_eq.mp (Bool.and_eq_true_iff.mp hsettled).1
    exact h.refuse hclaimed hothers htold hpasses (hdone ▸ hisAt) rfl (hdone ▸ hgives) rfl
  · exact h.start hclaimed hothers htold hpasses hisAt rfl hgives rfl

/-- A delivery that gets the desk for the first time. -/
theorem handle (h : crowd.Accords s log requests first old account) (hstage : crowd.stages i = .ahead) :
    (crowd.move i ((handle s (requests i)).run crowd.desk)).Accords s log requests first old
      ((account.claim i (crowd.desk.ledger.claim (requests i)).1).turn i crowd.desk
        ((handle s (requests i)).run crowd.desk).desk) := by
  obtain ⟨hsound, hpasses, hnamed⟩ := h.sound.claim (requests i)
  let claimed : Desk := { crowd.desk with ledger := (crowd.desk.ledger.claim (requests i)).2 }
  obtain ⟨hclaimed, htold⟩ := h.claim (d := claimed) hstage hsound hpasses rfl fun n hn => by
    obtain ⟨r, hr, rfl, -⟩ := hnamed n hn
    exact hsound.old r hr
  have hahead : ¬ (crowd.stages i).InAttempt := by
    rw [hstage]
    exact id
  rw [run_handle]
  generalize (crowd.desk.ledger.claim (requests i)).1 = named at hclaimed hnamed ⊢
  cases named with
  | none =>
    refine hclaimed.move [duplicateNotice (requests i)]
      (.of_aside hahead id (.inl Account.claimed_claim_self)) hsound (.refl _ _) rfl
      (List.forall_mem_singleton.mpr (explains_of_ne_failed nofun)) ?_ fun _ _ => nofun
    rw [show (account.claim i none).toldBy i = [] from htold]
    exact .duplicate _ _
  | some n =>
    obtain ⟨r, hr, hserial, hkey⟩ := hnamed n rfl
    have hself : (account.claim i (some n)).claimed i = some n := Account.claimed_claim_self
    dsimp only
    rw [run_locked (c := ⟨requests i, n⟩)]
    split
    · next hfree =>
      rw [Desk.lock, hsound.find?_iff.mpr ⟨hr, hserial⟩] at hfree
      obtain ⟨hheld, -⟩ := Bool.and_eq_true_iff.mp hfree
      exact hclaimed.enter htold hself hr hserial hkey (Bool.not_eq_true' _ ▸ hheld) fun _ => rfl
    · -- the delivery waits for the lock
      let join : Lock → Lock := (·.join claimed.nextTicket)
      let joined : Desk :=
        { claimed with nextTicket := claimed.nextTicket + 1 }.updateLock (.record n) join
      have hjoin : claimed.ledger.Passes none joined.ledger :=
        Ledger.passes_relock_of_held (f := join) fun _ => rfl
      have hjoined : joined.ledger.IsSound := hsound.relock (f := join) fun r hr _ => hsound.atEnd r hr
      refine hclaimed.move [] (.of_aside hahead id (.inr rfl)) hjoined hjoin rfl
        (List.forall_mem_nil _) ?_ fun _ _ => nofun
      rw [hself, show (account.claim i (some n)).toldBy i = [] from htold]
      refine .queued (Ledger.Knows.passes ?_ hjoin)
      rw [← hserial, ← hkey]
      exact hsound.knows hr

/-- What happens next fits as well. -/
theorem goOn {w : Wait} {next : w.Answer → Desk → Step (Except Failure State)}
    (h : crowd.Accords s log requests first old account) (hstage : crowd.stages i = .waiting w next)
    (answer : w.Answer) (hend : w.mayEnd crowd.desk = true) (hlog : w.exchanges answer ⊆ log) :
    (crowd.move i (next answer crowd.desk)).Accords s log requests first old
      (account.turn i crowd.desk (next answer crowd.desk).desk) := by
  have hi := h.stages i
  rw [hstage] at hi
  generalize hclaimed : account.claimed i = claimed at hi
  generalize htold : account.toldBy i = told at hi
  cases hi with
  | @queued n ticket hknows =>
    -- the turn at the lock comes when nobody holds it
    obtain ⟨r, hfind⟩ := Desk.exists_of_isTurnOf hend
    obtain ⟨hr, hserial⟩ := h.sound.find?_iff.mp hfind
    rw [Wait.mayEnd, Desk.lock, hfind] at hend
    obtain ⟨hfree, -⟩ := Bool.and_eq_true_iff.mp hend
    exact h.enter htold hclaimed hr hserial (hknows.2 r hr hserial) (Bool.not_eq_true' _ ▸ hfree)
      fun _ => rfl
  | @working n attempts a later _ d next hisAt hleads hgoes =>
    have hattempt : (crowd.stages i).InAttempt := by
      rw [hstage]
      exact Stage.inAttempt_waiting hgoes.1
    obtain ⟨b, hturn, hgoes'⟩ := hgoes.2 answer crowd.desk hlog hisAt
    obtain ⟨new, hnew, hleads', hexplains⟩ := hturn.tells
    have hgives : first.Gives n (account.toldOn n) attempts a := by
      obtain ⟨r, hr, hserial, -, -, hstate, hattempts⟩ := hisAt.there
      obtain rfl : r.serial = n := hserial
      exact hattempts ▸ hstate ▸ h.gives r hr
    refine h.work new hclaimed
      (fun j hj hattempt' hother => hj (h.apart j i n hattempt' hattempt hother hclaimed))
      hturn.passes hturn.isAt hnew hexplains (hgives.leads hleads') ?_ (hleads.trans hleads') hgoes'
    rw [htold]
    rfl

/-- Whatever happens, all fits. -/
theorem recounts {answers : List Exchange} (h : crowd.Accords s log requests first old {})
    (hrecounts : crowd.Recounts s requests answers account crowd') (hlog : answers ⊆ log) :
    crowd'.Accords s log requests first old account := by
  induction hrecounts with
  | refl => exact h
  | begin _ hstage ih => exact (ih hlog).handle hstage
  | goOn _ hstage answer hend ih =>
    obtain ⟨hbefore, hanswer⟩ := List.append_subset.mp hlog
    exact (ih hbefore).goOn hstage answer hend hanswer
  | pass _ now ih =>
    obtain ⟨hsound, hstages, hapart, hholder, hgives, hclaimed, hfirst, hexplains⟩ := ih hlog
    exact ⟨hsound, hstages, hapart, hholder, hgives, hclaimed, hfirst, hexplains⟩

end Crowd.Accords

/-! ## The result -/

/-- Nobody works on any record. -/
structure Ledger.IsSettled (l : Ledger) : Prop where
  sound : l.IsSound
  free : ∀ r ∈ l.all, r.lock.held = false

/-- Whether states are the course of an attempt: from its start on, each one comes after the one before,
and only the last one may be an end. -/
def IsCourse (states : List State) : Prop :=
  states.head? = some .received ∧ states.IsChain State.Precedes

theorem isCourse_of_leads {later : List State} (h : State.received.Leads later a) :
    IsCourse (.received :: later) :=
  ⟨rfl, h.isChain⟩

/-- A delivery has put nothing on record, or that it asks for nothing new, or the course of an attempt. -/
theorem Stage.Accords.course {stage : Stage} {claimed : Option Nat} {told : List State}
    (h : stage.Accords s log request l claimed told) :
    told = [] ∨ told = [.done] ∨ IsCourse told := by
  cases h with
  | ahead => exact .inl rfl
  | queued => exact .inl rfl
  | working _ hleads => exact .inr (.inr (isCourse_of_leads hleads))
  | duplicate => exact .inr (.inl rfl)
  | finished hleads => exact .inr (.inr (isCourse_of_leads hleads))

/-- The last thing that a delivery puts on record is the end of the check. -/
theorem Stage.Accords.ended {result : Except Failure State} {claimed : Option Nat} {told : List State}
    (h : (Stage.ended result).Accords s log request l claimed told) :
    ∃ a, told.getLast? = some a ∧ a.isTerminal = true := by
  cases h with
  | duplicate => exact ⟨.done, rfl, rfl⟩
  | finished hleads hover => exact ⟨_, hleads.getLast?, hover⟩

section

variable {ι : Type} [DecidableEq ι] {requests : ι → CheckRequest} {crowd : Crowd ι} {account : Account ι}

theorem Crowd.accords_start (h : d.ledger.IsSettled) :
    (Crowd.start d : Crowd ι).Accords s log requests d.ledger d.notices {} where
  sound := h.sound
  stages _ := .ahead _
  apart _ _ _ := nofun
  holder r hr hheld := by
    rw [h.free r hr] at hheld
    cases hheld
  gives r hr := by
    have hfind : d.ledger.find? r.serial = some r := h.sound.find?_iff.mpr ⟨hr, rfl⟩
    refine ⟨?_, ?_⟩
    · rw [Ledger.attemptsOn, hfind]
      rfl
    · rw [Ledger.stateOn, hfind]
      rfl
  claimedOld _ _ := nofun
  firstOld n hn := by
    cases hfind : d.ledger.find? n with
    | none => rfl
    | some r =>
      obtain ⟨hr, hserial⟩ := h.sound.find?_iff.mp hfind
      exact absurd (hserial ▸ h.sound.old r hr) (Nat.not_lt.mpr hn)
  explains := ⟨[], rfl, List.forall_mem_nil _⟩

/-- What an attempt meets is no try to go back, or on from the end, unless a call fails like that. -/
theorem Service.Meets.answered {f : Failure} {e : AdvanceError} (h : s.Meets log f)
    (hf : f = .other "ValueError" e.message) : ∃ x ∈ log, x.answer = .error f := by
  cases h with
  | answer hx hanswer => exact ⟨_, hx, hanswer⟩
  | signing hmint =>
    rw [Service.mint] at hmint
    obtain ⟨_, -, hclient⟩ := mapError_eq_error.mp hmint
    rw [hf] at hclient
    cases hclient
  | listing => cases hf
  | checking => cases hf
  | missing spec =>
    have hkind : "KeyError" = "ValueError" := congrArg Failure.kind hf
    exact absurd hkind (by decide)

/-- What is known of deliveries that start at the desk `d`, after a while. -/
structure Crowd.GoesForward (s : Service) (requests : ι → CheckRequest) (d : Desk) (log : List Exchange)
    (crowd : Crowd ι) (account : Account ι) : Prop where
  /-- A delivery makes at most one attempt, and puts its course on record, or else, at the most, that it
  asks for nothing new. -/
  course : ∀ i, account.toldBy i = [] ∨ account.toldBy i = [.done] ∨ IsCourse (account.toldBy i)
  /-- Inside an attempt it holds the lock of the record that it has claimed. The state of that record is the
  last one in its course. -/
  inside : ∀ i, (crowd.stages i).InAttempt → ∃ r ∈ crowd.desk.ledger.all,
    account.claimed i = some r.serial ∧ r.key = (requests i).key ∧ r.lock.held = true
      ∧ IsCourse (account.toldBy i) ∧ (account.toldBy i).getLast? = some r.state
  /-- The course of a delivery that has ended has come to an end. -/
  ended : ∀ i result, crowd.stages i = .ended result →
    ∃ a, (account.toldBy i).getLast? = some a ∧ a.isTerminal = true
  /-- A check is over when there was an attempt and no delivery is inside one. -/
  atEnd : ∀ r ∈ crowd.desk.ledger.all,
    (∀ i, (crowd.stages i).InAttempt → account.claimed i ≠ some r.serial) → r.attempts ≠ 0 →
      r.state.isTerminal = true
  /-- Each start of an attempt with a record counts one, and its state is the last one that was put on
  record with it. -/
  counted : ∀ r ∈ crowd.desk.ledger.all, d.ledger.Gives r.serial (account.toldOn r.serial) r.attempts r.state
  /-- An attempt that fails tells what it met: never that it tried to go back, or on from the end, unless a
  call failed like that. -/
  explained : ∃ new, crowd.desk.notices = new ++ d.notices ∧ ∀ n ∈ new, n.taken? = some .failed →
    ∃ f, n.error = some f.kind ∧ n.reason = some s!"{f.kind}: {f.message}" ∧ s.Meets log f
      ∧ ∀ e : AdvanceError, f = .other "ValueError" e.message → ∃ x ∈ log, x.answer = .error f

/-- Whatever is asked and answered, and whoever has the desk when: every attempt goes from its start through
the states in their order to its end, and is counted once. -/
theorem deliveries_go_forward (hledger : d.ledger.IsSettled)
    (hrecounts : (Crowd.start d).Recounts s requests log account crowd) :
    crowd.GoesForward s requests d log account := by
  have hstart : (Crowd.start d).Accords s log requests d.ledger d.notices {} :=
    Crowd.accords_start hledger
  have h := hstart.recounts hrecounts (List.Subset.refl log)
  refine ⟨fun i => (h.stages i).course, fun i hattempt => ?_, fun i result hended => ?_,
    fun r hr hnobody hattempts => ?_, h.gives, ?_⟩
  · obtain ⟨n, attempts, a, later, hclaimed, htold, hleads, hisAt⟩ := (h.stages i).isAt hattempt
    obtain ⟨r, hr, hserial, hkey, hheld, hstate, -⟩ := hisAt.there
    refine ⟨r, hr, hserial ▸ hclaimed, hkey, hheld, ?_, ?_⟩
    · rw [htold]
      exact isCourse_of_leads hleads
    · rw [htold, hleads.getLast?, hstate]
  · have hi := h.stages i
    rw [hended] at hi
    exact hi.ended
  · refine h.sound.atEnd r hr ?_ hattempts
    by_contra hheld
    obtain ⟨i, hattempt, hclaimed⟩ := h.holder r hr (Bool.not_eq_false _ ▸ hheld)
    exact hnobody i hattempt hclaimed
  · obtain ⟨new, hnew, hexplains⟩ := h.explains
    refine ⟨new, hnew, fun n hn hfailed => ?_⟩
    obtain ⟨f, hmeets, herror, hreason⟩ := hexplains n hn hfailed
    exact ⟨f, herror, hreason, hmeets, fun e => hmeets.answered⟩

end

/-! ## Two attempts at one check

Of two deliveries of one commit the first one fails, as GitHub cannot be reached, and the second one has
its turn then. -/

/-- What is asked for and answered. -/
def downLog : List Exchange :=
  [⟨.filesOf "ghs" ⟨"typst/packages"⟩ 3, .error (.client (.network "down"))⟩]

theorem recounts_down : ∃ (account : Account Bool) (crowd : Crowd Bool),
    (Crowd.start pairDesk).Recounts pairService pairRequest downLog account crowd
      ∧ account.toldBy false = [.received, .authenticating, .fetching, .failed]
      ∧ account.toldBy true = [.received, .authenticating, .fetching]
      ∧ crowd.stages false = .ended (.ok .failed) ∧ (crowd.stages true).InAttempt
      ∧ crowd.desk.ledger.all.map (fun r => (r.serial, r.attempts, r.state)) = [(0, 2, .fetching)] := by
  have hstart : (Crowd.start pairDesk).Recounts pairService pairRequest [] {} (Crowd.start pairDesk) :=
    .refl _
  have hboth := (hstart.begin (i := false) rfl).begin (i := true) rfl
  have hfailed := hboth.goOn (i := false) (w := .call (.filesOf "ghs" ⟨"typst/packages"⟩ 3)) rfl
    (.error (.client (.network "down"))) rfl
  have hturn := hfailed.goOn (i := true) (w := .turn (.record 0) 0) rfl () rfl
  exact ⟨_, _, hturn, rfl, rfl, rfl, trivial, rfl⟩

theorem deliveries_go_forward_down : ∃ (account : Account Bool) (crowd : Crowd Bool),
    pairDesk.ledger.IsSettled
      ∧ (Crowd.start pairDesk).Recounts pairService pairRequest downLog account crowd
      ∧ account.toldBy false = [.received, .authenticating, .fetching, .failed]
      ∧ account.toldBy true = [.received, .authenticating, .fetching]
      ∧ crowd.stages false = .ended (.ok .failed) ∧ (crowd.stages true).InAttempt
      ∧ crowd.GoesForward pairService pairRequest pairDesk downLog account := by
  obtain ⟨account, crowd, hrecounts, hfalse, htrue, hended, hattempt, -⟩ := recounts_down
  have hledger : pairDesk.ledger.IsSettled := ⟨.empty _ _, List.forall_mem_nil _⟩
  exact ⟨account, crowd, hledger, hrecounts, hfalse, htrue, hended, hattempt,
    deliveries_go_forward hledger hrecounts⟩

end TypstLint.Delivery
