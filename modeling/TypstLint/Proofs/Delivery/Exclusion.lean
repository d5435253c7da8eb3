import Mathlib.Logic.Function.Basic
import TypstLint.Proofs.Delivery.Turns

set_option autoImplicit false

/-! # No duplicate check runs

Any number of deliveries are handled at one desk (`Crowd`). They take turns: a delivery has the desk
until it waits or is over, and whose turn is next is open, as are the answers to calls and the times
(`Crowd.Moves`).

However deliveries take turns and whatever is answered to them (`Crowd.Reaches`): as long as the ledger
has room for the records of all their commits, and none of them asks for new check runs, two deliveries
of the same commit are never inside an attempt at the same time, and no check run is created twice for a
package of a commit (`no_duplicate_runs`).

The invariant is `Crowd.IsSound`: deliveries that work hold locks of their own, and every check run that
was created is on record. What is known of a single delivery is `Stage.Fits`; it survives the turns of
the others, since these leave a record alone whose lock they do not hold (`Stage.Fits.follows`). -/

namespace TypstLint.Delivery

open GitHub (ChangedFile CheckRun Failure)

/-! ## Deliveries in a crowd -/

/-- How far the handling of a delivery has come. -/
inductive Stage where
  /-- It has not had the desk yet. -/
  | ahead
  /-- It waits, and knows how it goes on. -/
  | waiting (w : Wait) (next : w.Answer → Desk → Step (Except Failure State))
  | ended (result : Except Failure State)

/-- The stage at the end of a turn. -/
def Step.stage : Step (Except Failure State) → Stage
  | .done result _ => .ended result
  | .wait w _ next => .waiting w next

/-- Whether a delivery is inside an attempt. Once it has the desk it waits, if at all, for the lock of its
record, and when it has that for something else, until it is over. -/
def Stage.InAttempt : Stage → Prop
  | .waiting (.turn (.record _) _) _ => False
  | .waiting .. => True
  | .ahead | .ended _ => False

/-- Deliveries, and the desk that they share. -/
structure Crowd (ι : Type) where
  desk : Desk
  stages : ι → Stage

namespace Crowd

variable {ι : Type} [DecidableEq ι]

/-- Deliveries that have not had the desk yet. -/
def start (d : Desk) : Crowd ι := ⟨d, fun _ => .ahead⟩

/-- A turn of one delivery. -/
def move (crowd : Crowd ι) (i : ι) (turn : Step (Except Failure State)) : Crowd ι :=
  ⟨turn.desk, Function.update crowd.stages i turn.stage⟩

@[simp] theorem stages_move_self (crowd : Crowd ι) (i : ι) (turn : Step (Except Failure State)) :
    (crowd.move i turn).stages i = turn.stage :=
  Function.update_self ..

@[simp] theorem stages_move_of_ne (crowd : Crowd ι) {i j : ι} (hj : j ≠ i)
    (turn : Step (Except Failure State)) : (crowd.move i turn).stages j = crowd.stages j :=
  Function.update_of_ne hj ..

/-- What happens next, and the call that is answered with it. -/
inductive Moves (s : Service) (requests : ι → CheckRequest) :
    Crowd ι → List Exchange → Crowd ι → Prop where
  /-- A delivery gets the desk for the first time. -/
  | begin {crowd : Crowd ι} {i : ι} (hstage : crowd.stages i = .ahead) :
      Moves s requests crowd [] (crowd.move i ((handle s (requests i)).run crowd.desk))
  /-- The waiting of a delivery is over. -/
  | goOn {crowd : Crowd ι} {i : ι} {w : Wait} {next : w.Answer → Desk → Step (Except Failure State)}
      (hstage : crowd.stages i = .waiting w next) (answer : w.Answer)
      (hend : w.mayEnd crowd.desk = true) :
      Moves s requests crowd (w.exchanges answer) (crowd.move i (next answer crowd.desk))
  /-- Time passes. -/
  | pass {crowd : Crowd ι} (now : Int) :
      Moves s requests crowd [] { crowd with desk := { crowd.desk with now } }

/-- What may have happened after a while, and the calls and answers up to then. -/
inductive Reaches (s : Service) (requests : ι → CheckRequest) :
    Crowd ι → List Exchange → Crowd ι → Prop where
  | refl (crowd : Crowd ι) : Reaches s requests crowd [] crowd
  | move {first crowd crowd' : Crowd ι} {log log' : List Exchange}
      (hbefore : Reaches s requests first log crowd) (hmoves : Moves s requests crowd log' crowd') :
      Reaches s requests first (log ++ log') crowd'

end Crowd

variable {keys : List CheckKey} {s : Service} {c : Case} {d : Desk} {l l' : Ledger} {own : Option Nat}
  {serial : Nat} {request : CheckRequest}

/-! ## Locks of records -/

theorem Ledger.Orderly.updateLock {f : Lock → Lock} (h : d.ledger.Orderly keys) :
    (d.updateLock (.record serial) f).ledger.Orderly keys :=
  h.update fun _ _ _ => ⟨rfl, rfl⟩

theorem Desk.follows_updateLock {f : Lock → Lock}
    (hf : own ≠ some serial → ∀ lock : Lock, lock.held = true → (f lock).held = true) :
    d.ledger.Follows own (d.updateLock (.record serial) f).ledger := by
  refine Ledger.follows_update fun r _ hserial => ?_
  exact ⟨rfl, rfl, fun _ h => h, fun _ => rfl, fun hne => hf (hserial ▸ hne) r.lock⟩

theorem Desk.lock_eq {r : Record} (h : d.ledger.Orderly keys) (hr : r ∈ d.ledger.records) :
    d.lock (.record r.serial) = r.lock := by
  rw [Desk.lock, h.find?_iff.mpr ⟨hr, rfl⟩]
  rfl

/-- Who takes the lock of a record has the record in hand. -/
theorem Case.inHand_updateLock {f : Lock → Lock} (h : d.ledger.Orderly keys)
    (hrecord : ∃ r ∈ d.ledger.records, r.serial = c.serial ∧ r.key = c.request.key)
    (hf : ∀ lock : Lock, (f lock).held = true) :
    c.InHand keys (d.updateLock (.record c.serial) f).ledger := by
  obtain ⟨r, hr, hserial, hkey⟩ := hrecord
  exact ⟨h.updateLock, { r with lock := f r.lock }, Ledger.mem_update hr hserial, hserial, hkey, hf r.lock⟩

/-! ## The parts of a delivery -/

/-- Gives the lock of the record back at the end of a delivery. -/
def Case.leave (c : Case) (result : Except Failure State) : Task (Except Failure State) := do
  Task.release (.record c.serial)
  return result

/-- What a delivery does once it has the lock of its record. -/
def Case.work (c : Case) (s : Service) (d : Desk) : Step (Except Failure State) :=
  ((handleLocked s c).run d).bind c.leave

theorem run_handle (d : Desk) :
    (handle s request).run d = match (d.ledger.claim request).1 with
      | none => .done (.ok .done)
          { d with
            ledger := (d.ledger.claim request).2
            notices :=
              { request
                state := .done
                message := "Duplicate delivery ignored, checks are already done" } :: d.notices }
      | some serial =>
        (Attempt.locked (.record serial) (handleLocked s ⟨request, serial⟩)).run
          { d with ledger := (d.ledger.claim request).2 } := by
  have hrun : (handle s request).run d =
      (match (d.ledger.claim request).1 with
        | none => (do noteDuplicate request; return .done : Attempt State)
        | some serial => Attempt.locked (.record serial) (handleLocked s ⟨request, serial⟩)).run
          { d with ledger := (d.ledger.claim request).2 } := rfl
  rw [hrun]
  cases (d.ledger.claim request).1 <;> rfl

theorem run_locked (d : Desk) :
    (Attempt.locked (.record c.serial) (handleLocked s c)).run d =
      if (d.lock (.record c.serial)).isFree then
        c.work s (d.updateLock (.record c.serial) Lock.take)
      else
        .wait (.turn (.record c.serial) d.nextTicket)
          (Desk.updateLock { d with nextTicket := d.nextTicket + 1 } (.record c.serial)
            (·.join d.nextTicket))
          fun _ d₁ => c.work s (d₁.updateLock (.record c.serial) (·.enter d.nextTicket)) := by
  have hrun : (Attempt.locked (.record c.serial) (handleLocked s c)).run d =
      ((if (d.lock (.record c.serial)).isFree then
          Task.modify (·.updateLock (.record c.serial) Lock.take)
        else do
          let ticket ← Task.takeTicket
          Task.modify (·.updateLock (.record c.serial) (·.join ticket))
          Task.await (.turn (.record c.serial) ticket)
          Task.modify (·.updateLock (.record c.serial) (·.enter ticket)) : Task Unit) d).bind
        fun _ => c.work s := rfl
  rw [hrun]
  split <;> rfl

/-! ## What holds of a delivery at any time -/

/-- The record of a case is there. -/
def Case.Owns (c : Case) (l : Ledger) : Prop :=
  ∃ r ∈ l.records, r.serial = c.serial ∧ r.key = c.request.key

/-- The record of a case is there with its lock held, and has no check run of those that a wait of the
case asks for. -/
def Case.Waits (c : Case) (w : Wait) (l : Ledger) : Prop :=
  ∃ r ∈ l.records, r.serial = c.serial ∧ r.key = c.request.key ∧ r.lock.held = true
    ∧ ∀ created, w.creates? = some created → created.1 = c.request.key
      ∧ r.runs.lookup created.2 = none

/-- What is known of a delivery, given the number of the record whose lock it holds, if any. -/
inductive Stage.Fits (keys : List CheckKey) (s : Service) (request : CheckRequest) (l : Ledger) :
    Stage → Option Nat → Prop where
  | ahead : Fits keys s request l .ahead none
  | ended (result : Except Failure State) : Fits keys s request l (.ended result) none
  | queued {serial ticket : Nat} (howns : Case.Owns ⟨request, serial⟩ l) :
      Fits keys s request l
        (.waiting (.turn (.record serial) ticket) fun _ d =>
          Case.work ⟨request, serial⟩ s (d.updateLock (.record serial) (·.enter ticket)))
        none
  | working {serial : Nat} {w : Wait} {d : Desk} {next : w.Answer → Desk → Step (Except Failure State)}
      (hwaits : Case.Waits ⟨request, serial⟩ w l)
      (hguarded : (Step.wait w d next).Guarded keys ⟨request, serial⟩) :
      Fits keys s request l
        (.waiting w fun answer d => (next answer d).bind (Case.leave ⟨request, serial⟩)) (some serial)

/-- Deliveries that work have locks of their own, which others leave with them. Every check run that was
created is on record, and none was created twice. -/
structure Crowd.IsSound {ι : Type} (keys : List CheckKey) (s : Service) (requests : ι → CheckRequest)
    (crowd : Crowd ι) (holds : ι → Option Nat) (log : List Exchange) : Prop where
  orderly : crowd.desk.ledger.Orderly keys
  fits : ∀ i, (crowd.stages i).Fits keys s (requests i) crowd.desk.ledger (holds i)
  apart : ∀ i j serial, holds i = some serial → holds j = some serial → i = j
  single : (createdFor log).Nodup
  recorded : ∀ created ∈ createdFor log, crowd.desk.ledger.IsOnRecord created

theorem Case.Owns.follows (h : c.Owns l) (hfollows : l.Follows own l') : c.Owns l' := by
  obtain ⟨r, hr, hserial, hkey⟩ := h
  obtain ⟨r', hr', hr'r⟩ := hfollows r hr
  exact ⟨r', hr', hr'r.serial_eq.trans hserial, hr'r.key_eq.trans hkey⟩

theorem Case.Waits.follows {w : Wait} (h : c.Waits w l) (hfollows : l.Follows own l')
    (hown : own ≠ some c.serial) : c.Waits w l' := by
  obtain ⟨r, hr, hserial, hkey, hheld, hnone⟩ := h
  obtain ⟨r', hr', hr'r⟩ := hfollows r hr
  rw [← hserial] at hown
  refine ⟨r', hr', hr'r.serial_eq.trans hserial, hr'r.key_eq.trans hkey, hr'r.staysHeld hown hheld, ?_⟩
  rw [hr'r.runs_eq hown]
  exact hnone

/-- What others do to the ledger leaves a delivery as it is. -/
theorem Stage.Fits.follows {stage : Stage} {held : Option Nat} (h : stage.Fits keys s request l held)
    (hfollows : l.Follows own l') (hown : ∀ serial, held = some serial → own ≠ some serial) :
    stage.Fits keys s request l' held := by
  cases h with
  | ahead => exact .ahead
  | ended result => exact .ended result
  | queued howns => exact .queued (howns.follows hfollows)
  | working hwaits hguarded => exact .working (hwaits.follows hfollows (hown _ rfl)) hguarded

theorem Case.InHand.waits {w : Wait} (h : c.InHand keys l) (hwait : c.MayWait w l) : c.Waits w l := by
  obtain ⟨r, hr, hserial, hkey, hheld⟩ := h.held
  exact ⟨r, hr, hserial, hkey, hheld, fun created hcreates =>
    ⟨(hwait created hcreates).1, (hwait created hcreates).2 r hr hserial⟩⟩

/-! ## Turns -/

namespace Crowd.IsSound

variable {ι : Type} {requests : ι → CheckRequest} {crowd crowd' : Crowd ι}
  {holds : ι → Option Nat} {log log' : List Exchange} {i : ι}

/-- A change of the desk that touches no record that is in hand. -/
theorem withDesk (h : crowd.IsSound keys s requests holds log)
    (horderly : d.ledger.Orderly keys) (hfollows : crowd.desk.ledger.Follows none d.ledger) :
    IsSound keys s requests { crowd with desk := d } holds log where
  orderly := horderly
  fits i := (h.fits i).follows hfollows fun _ _ => nofun
  apart := h.apart
  single := h.single
  recorded created hcreated := (h.recorded created hcreated).follows hfollows

/-- Nobody holds a lock that is not held. -/
theorem notHeld (h : crowd.IsSound keys s requests holds log)
    (hlock : (crowd.desk.lock (.record serial)).held = false) (j : ι) : holds j ≠ some serial := by
  intro hholds
  have hfits := h.fits j
  rw [hholds] at hfits
  generalize crowd.stages j = stage at hfits
  cases hfits with
  | working hwaits _ =>
    obtain ⟨r, hr, rfl, -, hheld, -⟩ := hwaits
    rw [Desk.lock_eq h.orderly hr, hheld] at hlock
    cases hlock

/-- A check run that a delivery asks for, with its record in hand, was not created before. -/
theorem notMem_createdFor {w : Wait} {created : CheckKey × String}
    (h : crowd.IsSound keys s requests holds log) (hwaits : c.Waits w crowd.desk.ledger)
    (hcreates : w.creates? = some created) : created ∉ createdFor log := by
  intro hmem
  obtain ⟨r, hr, -, hkey, -, hnone⟩ := hwaits
  obtain ⟨r', hr', hkey', hsome⟩ := h.recorded created hmem
  obtain ⟨hcreated, hnone⟩ := hnone created hcreates
  rw [h.orderly.eq_of_key hr' hr (hkey'.trans (hcreated.trans hkey.symm)), hnone] at hsome
  cases hsome

theorem nodup_createdFor {w : Wait} (h : crowd.IsSound keys s requests holds log)
    (hwaits : c.Waits w crowd.desk.ledger) (answer : w.Answer) :
    (createdFor (log ++ w.exchanges answer)).Nodup := by
  rw [createdFor_append]
  rcases createdFor_exchanges w answer with hnone | ⟨created, hcreates, hsome⟩
  · rw [hnone, List.append_nil]
    exact h.single
  · rw [hsome]
    refine List.nodup_append.mpr ⟨h.single, List.nodup_singleton _, ?_⟩
    rintro _ hmem _ hcreated rfl
    obtain rfl := List.mem_singleton.mp hcreated
    exact h.notMem_createdFor hwaits hcreates hmem

variable [DecidableEq ι]

/-- A turn of a delivery that holds the lock of no record but `own`. -/
theorem move {turn : Step (Except Failure State)} {held : Option Nat}
    (h : crowd.IsSound keys s requests holds log)
    (horderly : turn.desk.ledger.Orderly keys) (hfollows : crowd.desk.ledger.Follows own turn.desk.ledger)
    (hothers : ∀ j, j ≠ i → ∀ serial, holds j = some serial → own ≠ some serial)
    (hfits : turn.stage.Fits keys s (requests i) turn.desk.ledger held)
    (hheld : ∀ serial, held = some serial → own = some serial)
    (hsingle : (createdFor (log ++ log')).Nodup)
    (hrecorded : ∀ created ∈ createdFor log', turn.desk.ledger.IsOnRecord created) :
    ∃ holds, (crowd.move i turn).IsSound keys s requests holds (log ++ log') := by
  refine ⟨Function.update holds i held, horderly, fun j => ?_, fun j k serial hj hk => ?_, hsingle, ?_⟩
  · by_cases hj : j = i
    · subst hj
      rw [Crowd.stages_move_self, Function.update_self]
      exact hfits
    · rw [Crowd.stages_move_of_ne _ hj, Function.update_of_ne hj]
      exact (h.fits j).follows hfollows (hothers j hj)
  · by_cases hji : j = i <;> by_cases hki : k = i
    · rw [hji, hki]
    · subst hji
      rw [Function.update_self] at hj
      rw [Function.update_of_ne hki] at hk
      exact absurd (hheld serial hj) (hothers k hki serial hk)
    · subst hki
      rw [Function.update_self] at hk
      rw [Function.update_of_ne hji] at hj
      exact absurd (hheld serial hk) (hothers j hji serial hj)
    · rw [Function.update_of_ne hji] at hj
      rw [Function.update_of_ne hki] at hk
      exact h.apart j k serial hj hk
  · intro created hcreated
    rw [createdFor_append] at hcreated
    rcases List.mem_append.mp hcreated with hcreated | hcreated
    · exact (h.recorded created hcreated).follows hfollows
    · exact hrecorded created hcreated

/-- A turn of a delivery that has its record in hand. At its end it waits for something else, or gives the
lock back. -/
theorem work {turn : Step (Except Failure State)} (h : crowd.IsSound keys s requests holds log)
    (hfollows : crowd.desk.ledger.Follows (some serial) turn.desk.ledger)
    (hhand : Case.InHand keys ⟨requests i, serial⟩ turn.desk.ledger)
    (hguarded : turn.Guarded keys ⟨requests i, serial⟩)
    (hothers : ∀ j, j ≠ i → holds j ≠ some serial)
    (hsingle : (createdFor (log ++ log')).Nodup)
    (hrecorded : ∀ created ∈ createdFor log', turn.desk.ledger.IsOnRecord created) :
    ∃ holds, (crowd.move i (turn.bind (Case.leave ⟨requests i, serial⟩))).IsSound keys s requests holds
      (log ++ log') := by
  have hothers : ∀ j, j ≠ i → ∀ serial', holds j = some serial' → some serial ≠ some serial' :=
    fun j hj serial' hserial' heq => hothers j hj (hserial'.trans heq.symm)
  cases turn with
  | done result d =>
    -- the lock is given back, which nobody else holds
    have hgive : (Step.done result d).bind (Case.leave ⟨requests i, serial⟩) =
        .done result { d.updateLock (.record serial) Lock.giveBack with
          ledger := (d.updateLock (.record serial) Lock.giveBack).ledger.forgetRetired } := rfl
    have horderly : (d.updateLock (.record serial) Lock.giveBack).ledger.Orderly keys :=
      hhand.orderly.updateLock
    have hleft : d.ledger.Follows (some serial)
        (d.updateLock (.record serial) Lock.giveBack).ledger :=
      Desk.follows_updateLock fun hne => absurd rfl hne
    rw [hgive, horderly.forgetRetired]
    exact h.move horderly (hfollows.trans hleft) hothers (.ended result) nofun hsingle
      fun created hcreated => (hrecorded created hcreated).follows hleft
  | wait w d next =>
    exact h.move hhand.orderly hfollows hothers (.working (d := d) (hhand.waits hguarded.1) hguarded)
      (fun _ h => h) hsingle hrecorded

/-- A delivery that has just taken the lock of its record, on the desk `taken`, which it got as `found`. -/
theorem enter {f : Lock → Lock} (h : crowd.IsSound keys s requests holds log)
    (hplain : (requests i).rerequested = false)
    (howns : Case.Owns ⟨requests i, serial⟩ crowd.desk.ledger)
    (hfree : (crowd.desk.lock (.record serial)).held = false)
    (hf : ∀ lock : Lock, (f lock).held = true) :
    ∃ holds, (crowd.move i (Case.work ⟨requests i, serial⟩ s
      (crowd.desk.updateLock (.record serial) f))).IsSound keys s requests holds log := by
  have hhand : Case.InHand keys ⟨requests i, serial⟩ (crowd.desk.updateLock (.record serial) f).ledger :=
    Case.inHand_updateLock h.orderly howns hf
  obtain ⟨htends, hguarded⟩ := guarded_handleLocked (s := s) hplain _ hhand
  have hfollows : crowd.desk.ledger.Follows (some serial)
      (crowd.desk.updateLock (.record serial) f).ledger :=
    Desk.follows_updateLock fun hne => absurd rfl hne
  have hsingle : (createdFor (log ++ [])).Nodup := by
    rw [List.append_nil]
    exact h.single
  have hsound := h.work (hfollows.trans htends.follows) htends.inHand hguarded
    (fun j _ => h.notHeld hfree j) hsingle (List.forall_mem_nil _)
  rwa [List.append_nil] at hsound

/-- A delivery that gets the desk for the first time. -/
theorem handle (h : crowd.IsSound keys s requests holds log) (hplain : (requests i).rerequested = false)
    (hkey : (requests i).key ∈ keys) :
    ∃ holds, (crowd.move i ((handle s (requests i)).run crowd.desk)).IsSound keys s requests holds log := by
  obtain ⟨horderly, hfollows, howns⟩ := h.orderly.claim hkey none
  let claimed : Desk := { crowd.desk with ledger := (crowd.desk.ledger.claim (requests i)).2 }
  -- the claim alone changes nothing for anybody
  have hclaimed : IsSound keys s requests { crowd with desk := claimed } holds log :=
    h.withDesk horderly hfollows
  have hsingle : (createdFor (log ++ [])).Nodup := by
    rw [List.append_nil]
    exact h.single
  rw [run_handle, ← List.append_nil log]
  split
  · exact hclaimed.move horderly (.refl none _) (fun _ _ _ _ => nofun) (.ended _) nofun hsingle
      (List.forall_mem_nil _)
  · next serial hserial =>
    rw [run_locked (c := ⟨requests i, serial⟩)]
    split
    · next hfree =>
      obtain ⟨hheld, -⟩ := Bool.and_eq_true_iff.mp hfree
      rw [List.append_nil]
      exact hclaimed.enter hplain (howns serial hserial) (Bool.not_eq_true' _ ▸ hheld) fun _ => rfl
    · -- the delivery waits for the lock
      let waiting : Desk := { claimed with nextTicket := claimed.nextTicket + 1 }
      let joined : Desk := waiting.updateLock (.record serial) (·.join claimed.nextTicket)
      have hjoined : joined.ledger.Orderly keys := Ledger.Orderly.updateLock (d := waiting) horderly
      have hjoin : claimed.ledger.Follows none joined.ledger :=
        Desk.follows_updateLock (d := waiting) fun _ _ hheld => hheld
      have howns : Case.Owns ⟨requests i, serial⟩ joined.ledger :=
        Case.Owns.follows (howns serial hserial) hjoin
      exact hclaimed.move hjoined hjoin (fun _ _ _ _ => nofun) (.queued howns) nofun hsingle
        (List.forall_mem_nil _)

/-- What happens next keeps the deliveries apart. -/
theorem moves (h : crowd.IsSound keys s requests holds log)
    (hplain : ∀ i, (requests i).rerequested = false) (hkeys : ∀ i, (requests i).key ∈ keys)
    (hmoves : crowd.Moves s requests log' crowd') :
    ∃ holds, crowd'.IsSound keys s requests holds (log ++ log') := by
  cases hmoves with
  | begin hstage =>
    rw [List.append_nil]
    exact h.handle (hplain _) (hkeys _)
  | pass now =>
    rw [List.append_nil]
    exact ⟨holds, h.withDesk h.orderly (.refl none _)⟩
  | @goOn i w next hstage answer hend =>
    have hfits := h.fits i
    rw [hstage] at hfits
    generalize hheld : holds i = held at hfits
    cases hfits with
    | queued howns =>
      -- the turn at the lock comes when nobody holds it
      obtain ⟨hfree, -⟩ := Bool.and_eq_true_iff.mp hend
      rw [show Wait.exchanges _ answer = [] from rfl, List.append_nil]
      exact h.enter (hplain i) howns (Bool.not_eq_true' _ ▸ hfree) fun _ => rfl
    | @working serial _ d next hwaits hguarded =>
      have hhand : Case.InHand keys ⟨requests i, serial⟩ crowd.desk.ledger := by
        obtain ⟨r, hr, hserial, hkey, hlock, -⟩ := hwaits
        exact ⟨h.orderly, r, hr, hserial, hkey, hlock⟩
      obtain ⟨htends, hcreated, hnext⟩ := hguarded.2 answer crowd.desk hhand
      exact h.work htends.follows htends.inHand hnext
        (fun j hj hother => hj (h.apart j i serial hother hheld))
        (h.nodup_createdFor hwaits answer) hcreated

/-- What is known of the deliveries stays true, whatever happens. -/
theorem reaches {first : Crowd ι} (h : first.IsSound keys s requests holds [])
    (hplain : ∀ i, (requests i).rerequested = false) (hkeys : ∀ i, (requests i).key ∈ keys)
    (hreaches : first.Reaches s requests log crowd) :
    ∃ holds, crowd.IsSound keys s requests holds log := by
  induction hreaches with
  | refl => exact ⟨holds, h⟩
  | move _ hmoves ih =>
    obtain ⟨holds, hsound⟩ := ih
    exact hsound.moves hplain hkeys hmoves

end Crowd.IsSound

/-! ## The result -/

section

variable {ι : Type} {requests : ι → CheckRequest} {crowd : Crowd ι} {holds : ι → Option Nat}
  {log : List Exchange}

theorem Crowd.isSound_start (h : d.ledger.Orderly keys) :
    (Crowd.start d : Crowd ι).IsSound keys s requests (fun _ => none) [] where
  orderly := h
  fits _ := .ahead
  apart _ _ _ := nofun
  single := List.nodup_nil
  recorded := List.forall_mem_nil _

/-- A delivery inside an attempt has the lock of the record of its commit. -/
theorem Crowd.IsSound.holds_of_inAttempt {i : ι} (h : crowd.IsSound keys s requests holds log)
    (hattempt : (crowd.stages i).InAttempt) :
    ∃ r ∈ crowd.desk.ledger.records, holds i = some r.serial ∧ r.key = (requests i).key := by
  have hfits := h.fits i
  generalize crowd.stages i = stage at hfits hattempt
  generalize holds i = held at hfits
  cases hfits with
  | ahead => exact hattempt.elim
  | ended => exact hattempt.elim
  | queued => exact hattempt.elim
  | working hwaits _ =>
    obtain ⟨r, hr, rfl, hkey, -⟩ := hwaits
    exact ⟨r, hr, rfl, hkey⟩

/-- Deliveries that ask for no new check runs, with a ledger that has room for the records of all their
commits: two of the same commit are never inside an attempt at the same time, and no check run is created
twice for a package of a commit. -/
theorem no_duplicate_runs [DecidableEq ι] (hplain : ∀ i, (requests i).rerequested = false)
    (hkeys : ∀ i, (requests i).key ∈ keys) (hledger : d.ledger.Orderly keys)
    (hreaches : (Crowd.start d).Reaches s requests log crowd) :
    (∀ i j, (requests i).key = (requests j).key → (crowd.stages i).InAttempt →
      (crowd.stages j).InAttempt → i = j) ∧ (createdFor log).Nodup := by
  obtain ⟨holds, hsound⟩ := (Crowd.isSound_start hledger).reaches hplain hkeys hreaches
  refine ⟨fun i j hkey hi hj => ?_, hsound.single⟩
  obtain ⟨r, hr, hholds, hrkey⟩ := hsound.holds_of_inAttempt hi
  obtain ⟨r', hr', hholds', hrkey'⟩ := hsound.holds_of_inAttempt hj
  -- there is one record of the commit, and one delivery that has its lock
  obtain rfl := hsound.orderly.eq_of_key hr hr' (hrkey.trans (hkey.trans hrkey'.symm))
  exact hsound.apart i j r.serial hholds hholds'

end

/-! ## Two deliveries of one commit

Two deliveries of a commit arrive one behind the other. While the first one creates a check run, the
second one waits for the lock. -/

/-- The commit. -/
def pairKey : CheckKey := ⟨"typst/packages", "abc"⟩

/-- The requests, which are the same. -/
def pairRequest (_ : Bool) : CheckRequest :=
  { installation := 7, repository := ⟨"typst/packages"⟩, headSha := "abc", pullNumber := some 3 }

/-- The desk, with a token at hand. -/
def pairDesk : Desk where
  tokens := { entries := [(7, ⟨"ghs", ⟨10000000000, none⟩⟩)] }

/-- What the requests are handled with. -/
def pairService : Service where
  registry := ⟨.empty, []⟩
  credentials := ⟨1, fun _ => .error "no key"⟩

/-- The changed files, one of them not in a package. -/
def pairFiles : List ChangedFile :=
  [⟨"packages/preview/a/1.0.0/typst.toml", "added", none⟩, ⟨"README.md", "modified", none⟩]

theorem touched_pairFiles : touched pairFiles = .ok ([⟨"preview", "a", ⟨1, 0, 0⟩⟩], true) := by
  decide +kernel

/-- The check run that is created. -/
def pairRun : CheckRun := { id := 1, name := "@preview/a:1.0.0" }

/-- What is asked for and answered. -/
def pairLog : List Exchange :=
  [⟨.filesOf "ghs" ⟨"typst/packages"⟩ 3, .ok pairFiles⟩,
    ⟨.createRun "ghs" ⟨"typst/packages"⟩ "@preview/a:1.0.0" "abc", .ok pairRun⟩]

/-- The deliveries when both have had the desk once. -/
def pairCrowd : Crowd Bool :=
  let first := (Crowd.start pairDesk).move false ((handle pairService (pairRequest false)).run pairDesk)
  first.move true ((handle pairService (pairRequest true)).run first.desk)

/-- The first delivery asks for a check run, and when it has that, completes it. -/
theorem turns_pair : ∃ next,
    pairCrowd.stages false = .waiting (.call (.filesOf "ghs" ⟨"typst/packages"⟩ 3)) next
      ∧ ∃ d next', next (.ok pairFiles) pairCrowd.desk =
        .wait (.call (.createRun "ghs" ⟨"typst/packages"⟩ "@preview/a:1.0.0" "abc")) d next'
      ∧ ∃ d' next'', next' (.ok pairRun) d = .wait
        (.call (.updateRun "ghs" ⟨"typst/packages"⟩ 1 tooManyThings (some "failure"))) d' next'' := by
  refine ⟨_, rfl, ?_⟩
  simp only [Step.bind, ExceptT.bindCont]
  rw [touched_pairFiles]
  exact ⟨_, _, rfl, _, _, rfl⟩

theorem reaches_pair : ∃ crowd : Crowd Bool,
    (Crowd.start pairDesk).Reaches pairService pairRequest pairLog crowd
      ∧ (crowd.stages false).InAttempt
      ∧ ∃ next, crowd.stages true = .waiting (.turn (.record 0) 0) next := by
  have hboth : (Crowd.start pairDesk).Reaches pairService pairRequest [] pairCrowd :=
    (Crowd.Reaches.move (.refl _) (.begin (i := false) rfl)).move (.begin (i := true) rfl)
  obtain ⟨next, hstage, d, next', hlisted, d', next'', hcreated⟩ := turns_pair
  have h1 := hboth.move (.goOn hstage (.ok pairFiles) rfl)
  rw [hlisted] at h1
  have h2 := h1.move
    (.goOn (w := .call (.createRun "ghs" ⟨"typst/packages"⟩ "@preview/a:1.0.0" "abc"))
      (Crowd.stages_move_self _ _ _) (.ok pairRun) rfl)
  rw [show (Crowd.move _ _ (.wait _ d next')).desk = d from rfl, hcreated] at h2
  refine ⟨_, h2, ?_, _, rfl⟩
  rw [Crowd.stages_move_self]
  exact trivial

theorem no_duplicate_runs_pair : ∃ crowd : Crowd Bool,
    (∀ i, (pairRequest i).rerequested = false) ∧ (∀ i, (pairRequest i).key ∈ [pairKey])
      ∧ pairDesk.ledger.Orderly [pairKey]
      ∧ (Crowd.start pairDesk).Reaches pairService pairRequest pairLog crowd
      ∧ (crowd.stages false).InAttempt
      ∧ (∃ next, crowd.stages true = .waiting (.turn (.record 0) 0) next)
      ∧ createdFor pairLog = [(pairKey, "@preview/a:1.0.0")]
      ∧ (∀ i j, (pairRequest i).key = (pairRequest j).key → (crowd.stages i).InAttempt →
        (crowd.stages j).InAttempt → i = j) ∧ (createdFor pairLog).Nodup := by
  obtain ⟨crowd, hreaches, hattempt, hqueued⟩ := reaches_pair
  have hkeys (i : Bool) : (pairRequest i).key ∈ [pairKey] := List.mem_cons_self
  have hledger : pairDesk.ledger.Orderly [pairKey] := .empty (by decide)
  obtain ⟨hapart, hsingle⟩ := no_duplicate_runs (fun _ => rfl) hkeys hledger hreaches
  exact ⟨crowd, fun _ => rfl, hkeys, hledger, hreaches, hattempt, hqueued, rfl, hapart, hsingle⟩

end TypstLint.Delivery
