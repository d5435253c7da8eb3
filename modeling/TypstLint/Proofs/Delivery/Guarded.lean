import TypstLint.Delivery.Handle
import TypstLint.Proofs.Assoc
import TypstLint.Proofs.Delivery.Orderly
import TypstLint.Proofs.Delivery.Runs

set_option autoImplicit false

/-! # Work on a record that is in hand

A delivery that holds the lock of its record works on that record only, keeps the check runs that it has,
and creates no check run that is on record (`Guarded`). This is said of every turn that the delivery has at
the desk, whatever others do in between as long as they leave the lock with it. -/

namespace TypstLint.Delivery

open GitHub (Call Failure)

/-! ## Creating check runs -/

/-- The commit and the package for which a call creates a check run. -/
def Wait.creates? : Wait → Option (CheckKey × String)
  | .call (.createRun _ repository name sha) => some (⟨repository.fullName, sha⟩, name)
  | _ => none

/-- The commit and the package for which a check run was created. -/
def Exchange.createdFor? : Exchange → Option (CheckKey × String)
  | ⟨.createRun _ repository name sha, .ok _⟩ => some (⟨repository.fullName, sha⟩, name)
  | _ => none

/-- The commits and the packages for which check runs were created. -/
def createdFor (log : List Exchange) : List (CheckKey × String) := log.filterMap Exchange.createdFor?

theorem createdFor_append (log₁ log₂ : List Exchange) :
    createdFor (log₁ ++ log₂) = createdFor log₁ ++ createdFor log₂ :=
  List.filterMap_append

/-- A single wait creates at most the check run that it asks for. -/
theorem createdFor_exchanges (w : Wait) (answer : w.Answer) :
    createdFor (w.exchanges answer) = [] ∨ ∃ created, w.creates? = some created
      ∧ createdFor (w.exchanges answer) = [created] := by
  cases w with
  | turn => exact .inl rfl
  | work => exact .inl rfl
  | call c =>
    cases c with
    | createRun _ repository name sha =>
      cases answer with
      | error e => exact .inl rfl
      | ok run => exact .inr ⟨_, rfl, rfl⟩
    | _ => exact .inl rfl

/-- The check run for a commit and a package is on record. -/
def Ledger.IsOnRecord (l : Ledger) (created : CheckKey × String) : Prop :=
  ∃ r ∈ l.records, r.key = created.1 ∧ (r.runs.lookup created.2).isSome

theorem Ledger.IsOnRecord.follows {own : Option Nat} {l l' : Ledger} {created : CheckKey × String}
    (h : l.IsOnRecord created) (hfollows : l.Follows own l') : l'.IsOnRecord created := by
  obtain ⟨r, hr, hkey, hruns⟩ := h
  obtain ⟨r', hr', hr'r⟩ := hfollows r hr
  exact ⟨r', hr', hr'r.key_eq.trans hkey, hr'r.keepsRuns _ hruns⟩

/-! ## Turns at the desk -/

/-- The desk at the end of a turn. -/
def Step.desk {α : Type} : Step α → Desk
  | .done _ d => d
  | .wait _ d _ => d

/-- The ledger is in order, and the record of a case is in it, with its lock held. -/
structure Case.InHand (keys : List CheckKey) (c : Case) (l : Ledger) : Prop where
  orderly : l.Orderly keys
  held : ∃ r ∈ l.records, r.serial = c.serial ∧ r.key = c.request.key ∧ r.lock.held = true

/-- What the holder of its lock makes of a record. -/
structure Record.IsKept (r r' : Record) : Prop where
  serial_eq : r'.serial = r.serial
  key_eq : r'.key = r.key
  lock_eq : r'.lock = r.lock
  keepsRuns : ∀ name, (r.runs.lookup name).isSome → (r'.runs.lookup name).isSome

/-- What a turn makes of the ledger when the record of a case is in hand. -/
structure Case.Tends (keys : List CheckKey) (c : Case) (l l' : Ledger) : Prop where
  follows : l.Follows (some c.serial) l'
  inHand : c.InHand keys l'

/-- The check run that a wait asks for, if any, is one for the commit of the case, and not on record. -/
def Case.MayWait (c : Case) (w : Wait) (l : Ledger) : Prop :=
  ∀ created, w.creates? = some created → created.1 = c.request.key
    ∧ ∀ r ∈ l.records, r.serial = c.serial → r.runs.lookup created.2 = none

/-- In each of its turns a delivery tends the record in hand, whatever is answered to it. If a check run
was created, it is on record at the end of the turn. -/
def Step.Guarded (keys : List CheckKey) (c : Case) {α : Type} : Step α → Prop
  | .done _ _ => True
  | .wait w d next => c.MayWait w d.ledger ∧ ∀ answer d₁, c.InHand keys d₁.ledger →
      c.Tends keys d₁.ledger (next answer d₁).desk.ledger
        ∧ (∀ created ∈ createdFor (w.exchanges answer),
          (next answer d₁).desk.ledger.IsOnRecord created)
        ∧ (next answer d₁).Guarded keys c

/-- A task tends the record in hand, in the turn in which it starts and in those that follow. -/
def Task.GuardedAt (keys : List CheckKey) (c : Case) (d : Desk) {α : Type} (t : Task α) : Prop :=
  c.Tends keys d.ledger (t d).desk.ledger ∧ (t d).Guarded keys c

/-- A task tends the record in hand, from whatever desk it starts. -/
def Task.Guarded (keys : List CheckKey) (c : Case) {α : Type} (t : Task α) : Prop :=
  ∀ d, c.InHand keys d.ledger → t.GuardedAt keys c d

/-- An attempt tends the record in hand. -/
def Attempt.Guarded (keys : List CheckKey) (c : Case) {α : Type} (x : Attempt α) : Prop :=
  Task.Guarded keys c x.run

variable {keys : List CheckKey} {c : Case} {d : Desk} {l l₁ l₂ l₃ : Ledger} {r : Record}
  {f : Record → Record} {α β : Type}

/-! ## Tending a record -/

namespace Case

theorem InHand.tends (h : c.InHand keys l) : c.Tends keys l l := ⟨.refl _ _, h⟩

theorem Tends.trans (h : c.Tends keys l₁ l₂) (h' : c.Tends keys l₂ l₃) : c.Tends keys l₁ l₃ :=
  ⟨h.follows.trans h'.follows, h'.inHand⟩

/-- A change of the record in hand. -/
theorem InHand.tends_update (h : c.InHand keys l)
    (hf : ∀ r ∈ l.records, r.serial = c.serial → r.IsKept (f r)) :
    c.Tends keys l (l.update c.serial f) := by
  refine ⟨Ledger.follows_update fun r hr hserial => ?_, h.orderly.update fun r hr hserial => ?_, ?_⟩
  · have hkept := hf r hr hserial
    have hown : some c.serial = some r.serial := congrArg some hserial.symm
    exact ⟨hkept.serial_eq, hkept.key_eq, hkept.keepsRuns, fun hne => absurd hown hne,
      fun hne => absurd hown hne⟩
  · exact ⟨(hf r hr hserial).serial_eq, (hf r hr hserial).key_eq⟩
  · obtain ⟨r, hr, hserial, hkey, hheld⟩ := h.held
    have hkept := hf r hr hserial
    exact ⟨f r, Ledger.mem_update hr hserial, hkept.serial_eq.trans hserial, hkept.key_eq.trans hkey,
      hkept.lock_eq ▸ hheld⟩

end Case

/-! ## Steps and tasks -/

theorem Step.bind_guarded {s : Step α} {f : α → Desk → Step β} (hs : s.Guarded keys c)
    (hd : c.InHand keys s.desk.ledger)
    (hf : ∀ a d, c.InHand keys d.ledger →
      c.Tends keys d.ledger (f a d).desk.ledger ∧ (f a d).Guarded keys c) :
    c.Tends keys s.desk.ledger (s.bind f).desk.ledger ∧ (s.bind f).Guarded keys c := by
  induction s with
  | done a d => exact hf a d hd
  | wait w d next ih =>
    refine ⟨hd.tends, hs.1, fun answer d₁ hd₁ => ?_⟩
    obtain ⟨htends, hcreated, hnext⟩ := hs.2 answer d₁ hd₁
    obtain ⟨htends', hbind⟩ := ih answer d₁ hnext htends.inHand
    exact ⟨htends.trans htends', fun created h => (hcreated created h).follows htends'.follows, hbind⟩

namespace Task

theorem guarded_pure (a : α) : (pure a : Task α).Guarded keys c :=
  fun _ hd => ⟨hd.tends, trivial⟩

theorem guarded_bind {t : Task α} {f : α → Task β} (ht : t.Guarded keys c)
    (hf : ∀ a, (f a).Guarded keys c) : (t >>= f).Guarded keys c := by
  intro d hd
  obtain ⟨htends, hguarded⟩ := ht d hd
  obtain ⟨htends', hbind⟩ := Step.bind_guarded hguarded htends.inHand hf
  exact ⟨htends.trans htends', hbind⟩

theorem guarded_read (g : Desk → α) : (read g).Guarded keys c :=
  fun _ hd => ⟨hd.tends, trivial⟩

theorem guarded_modify {g : Desk → Desk}
    (hg : ∀ d, c.InHand keys d.ledger → c.Tends keys d.ledger (g d).ledger) :
    (modify g).Guarded keys c :=
  fun d hd => ⟨hg d hd, trivial⟩

/-- A change of other things than the ledger. -/
theorem guarded_modify_aside {g : Desk → Desk} (hg : ∀ d, (g d).ledger = d.ledger) :
    (modify g).Guarded keys c :=
  guarded_modify fun d hd => (hg d).symm ▸ hd.tends

theorem guarded_note (n : Notice) : (note n).Guarded keys c :=
  guarded_modify_aside fun _ => rfl

theorem guarded_update (hf : ∀ r : Record, r.IsKept (f r)) : (c.update f).Guarded keys c :=
  guarded_modify fun _ hd => hd.tends_update fun r _ _ => hf r

theorem guarded_await {w : Wait} (hw : w.creates? = none) : (await w).Guarded keys c := by
  refine fun d hd => ⟨hd.tends, fun created h => ?_, fun answer d₁ hd₁ => ⟨hd₁.tends, ?_, trivial⟩⟩
  · cases hw.symm.trans h
  · rcases createdFor_exchanges w answer with hnone | ⟨created, hcreates, -⟩
    · rw [hnone]
      exact List.forall_mem_nil _
    · cases hw.symm.trans hcreates

theorem guarded_takeTicket : takeTicket.Guarded keys c :=
  fun _ hd => ⟨hd.tends, trivial⟩

theorem guarded_acquire_tokens : (acquire .tokens).Guarded keys c := by
  refine guarded_bind (guarded_read _) fun free => ?_
  split
  · exact guarded_modify_aside fun _ => rfl
  · refine guarded_bind guarded_takeTicket fun ticket => ?_
    refine guarded_bind (guarded_modify_aside fun _ => rfl) fun _ => ?_
    refine guarded_bind (guarded_await rfl) fun _ => ?_
    exact guarded_modify_aside fun _ => rfl

theorem guarded_release_tokens : (release .tokens).Guarded keys c := by
  refine guarded_modify fun d hd => ?_
  show c.Tends keys d.ledger d.ledger.forgetRetired
  rw [hd.orderly.forgetRetired]
  exact hd.tends

end Task

/-! ## Attempts -/

namespace Attempt

theorem guarded_pure (a : α) : Guarded keys c (pure a : Attempt α) := Task.guarded_pure _

theorem guarded_ofExcept (x : Except Failure α) : Guarded keys c (ofExcept x) := Task.guarded_pure x

theorem guarded_throw (e : Failure) : Guarded keys c (throw e : Attempt α) := Task.guarded_pure _

theorem guarded_bind {x : Attempt α} {f : α → Attempt β} (hx : Guarded keys c x)
    (hf : ∀ a, Guarded keys c (f a)) : Guarded keys c (x >>= f) := by
  refine Task.guarded_bind hx fun result => ?_
  cases result with
  | error e => exact Task.guarded_pure _
  | ok a => exact hf a

theorem guarded_lift {t : Task α} (ht : t.Guarded keys c) : Guarded keys c (liftM t : Attempt α) :=
  Task.guarded_bind ht fun _ => Task.guarded_pure _

theorem guarded_call {call : Call} (hcall : (Wait.call call).creates? = none) :
    Guarded keys c (Attempt.call call) :=
  Task.guarded_await hcall

/-- What is read is the record as it is when the rest starts. -/
theorem run_record_bind {f : Record → Attempt α} (hfind : d.ledger.find? c.serial = some r) :
    (liftM c.record >>= f).run d = (f r).run d := by
  have hrun : (liftM c.record >>= f).run d =
      (f ((d.ledger.find? c.serial).getD { serial := c.serial, key := c.request.key })).run d := rfl
  rw [hrun, hfind, Option.getD_some]

theorem guardedAt_record_bind {f : Record → Attempt α} (hfind : d.ledger.find? c.serial = some r)
    (h : (f r).run.GuardedAt keys c d) : (liftM c.record >>= f).run.GuardedAt keys c d := by
  rw [Task.GuardedAt, run_record_bind hfind]
  exact h

/-- A check run may be created for a package that has none on record, if that is put on record next. -/
theorem guardedAt_create_bind {name : String} {f : GitHub.CheckRun → Attempt α}
    (hd : c.InHand keys d.ledger)
    (hnone : ∀ r ∈ d.ledger.records, r.serial = c.serial → r.runs.lookup name = none)
    (hf : ∀ run, Guarded keys c (f run)) (hrecord : ∀ run d₁, c.InHand keys d₁.ledger →
      ((f run).run d₁).desk.ledger.IsOnRecord (c.request.key, name)) (token : String) :
    (Attempt.call (.createRun token c.request.repository name c.request.headSha)
      >>= f).run.GuardedAt keys c d := by
  refine ⟨hd.tends, ?_, fun answer d₁ hd₁ => ?_⟩
  · rintro created hcreates
    obtain rfl := Option.some.inj hcreates
    exact ⟨rfl, hnone⟩
  · cases answer with
    | error e => exact ⟨hd₁.tends, List.forall_mem_nil _, trivial⟩
    | ok run =>
      refine ⟨(hf run d₁ hd₁).1, fun created hcreated => ?_, (hf run d₁ hd₁).2⟩
      obtain rfl := List.mem_singleton.mp hcreated
      exact hrecord run d₁ hd₁

theorem guarded_outcome {x : Attempt α} (hx : Guarded keys c x) : Guarded keys c (outcome x) :=
  Task.guarded_bind hx fun _ => Task.guarded_pure _

theorem guarded_locked_tokens {x : Attempt α} (hx : Guarded keys c x) :
    Guarded keys c (locked .tokens x) :=
  Task.guarded_bind Task.guarded_acquire_tokens fun _ => Task.guarded_bind hx fun _ =>
    Task.guarded_bind Task.guarded_release_tokens fun _ => Task.guarded_pure _

theorem guarded_forM {f : α → Attempt Unit} (hf : ∀ a, Guarded keys c (f a)) (xs : List α) :
    Guarded keys c (xs.forM f) := by
  induction xs with
  | nil => exact guarded_pure ()
  | cons x xs ih => exact guarded_bind (hf x) fun _ => ih

theorem guarded_mapM {f : α → Attempt β} (hf : ∀ a, Guarded keys c (f a)) (xs : List α) :
    Guarded keys c (xs.mapM f) := by
  induction xs with
  | nil => exact guarded_pure []
  | cons x xs ih =>
    rw [List.mapM_cons]
    exact guarded_bind (hf x) fun _ => guarded_bind ih fun _ => guarded_pure _

end Attempt

end TypstLint.Delivery
