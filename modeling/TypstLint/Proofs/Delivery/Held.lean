import TypstLint.Proofs.Delivery.Runs

set_option autoImplicit false

/-! # Records whose lock is held

A delivery changes its record only while it has the lock of the record. Others leave the record alone
then, whatever else they do: they claim records, wait in queues, and work on records of their own
(`Undisturbed`). What a delivery does besides its record leaves the record as it is (`Leaves`). -/

namespace TypstLint.Delivery

open GitHub (Call Failure)

/-! ## Ledgers -/

namespace Ledger

variable {l : Ledger} {serial : Nat} {r : Record} {f : Record → Record}

theorem serial_of_find? (h : l.find? serial = some r) : r.serial = serial :=
  beq_iff_eq.mp (List.find?_some h :)

/-- A change of the record does not change which one is found. -/
theorem find?_map_change {rs : List Record} (hf : ∀ r, r.serial = serial → (f r).serial = serial) :
    (rs.map fun r => if r.serial == serial then f r else r).find? (·.serial == serial) =
      (rs.find? (·.serial == serial)).map f := by
  have hserial : ((fun r : Record => r.serial == serial) ∘
      fun r => if r.serial == serial then f r else r) = fun r => r.serial == serial := by
    funext r
    simp only [Function.comp_apply]
    split
    · next h => rw [beq_iff_eq.mpr (hf r (beq_iff_eq.mp h)), h]
    · rfl
  rw [List.find?_map, hserial]
  cases hfind : rs.find? fun r => r.serial == serial with
  | none => rfl
  | some r => rw [Option.map_some, Option.map_some, if_pos (List.find?_some hfind :)]

theorem find?_update (hf : ∀ r, r.serial = serial → (f r).serial = serial) :
    (l.update serial f).find? serial = (l.find? serial).map f := by
  simp only [find?, update, ← List.map_append]
  exact find?_map_change hf

theorem find?_filter_of_find? {α : Type} {p q : α → Bool} {x : α} (hq : q x = true) {xs : List α}
    (h : xs.find? p = some x) : (xs.filter q).find? p = some x := by
  induction xs with
  | nil => cases h
  | cons y ys ih =>
    rw [List.find?_cons] at h
    split at h
    · next hy =>
      obtain rfl := Option.some.inj h
      rw [List.filter_cons_of_pos hq, List.find?_cons_of_pos hy]
    · next hy =>
      rw [List.filter_cons]
      split
      · rw [List.find?_cons_of_neg (Bool.not_eq_true _ ▸ hy), ih h]
      · exact ih h

/-- A record with a holder is not forgotten. -/
theorem find?_forgetRetired (h : l.find? serial = some r) (hheld : r.lock.held = true) :
    l.forgetRetired.find? serial = some r := by
  rw [find?, List.find?_append] at h ⊢
  rw [forgetRetired]
  -- only records that were given up are forgotten
  cases hrecords : l.records.find? fun r => r.serial == serial with
  | some _ => rwa [hrecords] at h
  | none =>
    rw [hrecords, Option.none_or] at h
    rw [Option.none_or]
    exact find?_filter_of_find? (by rw [hheld, Bool.true_or]) h

/-! ## Claims -/

theorem mem_right_splitFirst {α : Type} {p : α → Bool} {x : α} (hx : p x = false) (xs : List α) (n : Nat)
    (hmem : x ∈ xs) : x ∈ (splitFirst p n xs).2 := by
  induction xs generalizing n with
  | nil => cases hmem
  | cons y ys ih =>
    cases n with
    | zero => exact hmem
    | succ n =>
      rw [splitFirst]
      rcases List.mem_cons.mp hmem with rfl | hmem
      · rw [if_neg (Bool.not_eq_true _ ▸ hx)]
        exact List.mem_cons_self
      · split
        · exact ih n hmem
        · exact List.mem_cons_of_mem y (ih (n + 1) hmem)

theorem find?_isSome_of_mem (hmem : r ∈ l.records) (hserial : r.serial = serial) :
    (l.find? serial).isSome := by
  rw [find?, List.find?_isSome]
  exact ⟨r, List.mem_append_left _ hmem, beq_iff_eq.mpr hserial⟩

/-- The record that a claim names is there. -/
theorem find?_claim {request : CheckRequest} (h : (l.claim request).1 = some serial) :
    ((l.claim request).2.find? serial).isSome := by
  unfold claim at h ⊢
  split at h
  · obtain rfl := Option.some.inj h
    -- the new record is at its start, so it is not idle
    exact find?_isSome_of_mem (r := { serial := l.nextSerial, key := request.key })
      (mem_right_splitFirst rfl _ _ (List.mem_append_right _ List.mem_cons_self)) rfl
  · next r _ =>
    dsimp only at h
    split at h
    · cases h
    · -- a record that is there already is moved to the end of the list
      exact find?_isSome_of_mem (r := r) (List.mem_append_right _ List.mem_cons_self)
        (Option.some.inj h)

end Ledger

/-! ## The record of a lock -/

/-- The lock of a record is held, and this is its state and these are its check runs. -/
def Desk.Holds (d : Desk) (serial : Nat) (state : State) (runs : List (String × Int)) : Prop :=
  ∃ r, d.ledger.find? serial = some r ∧ r.lock.held = true ∧ r.state = state ∧ r.runs = runs

/-- Others leave a record as it is while its lock is held. Only while the task waits for that lock
itself, another one holds it. -/
def Undisturbed (serial : Nat) (w : Wait) (d d' : Desk) : Prop :=
  (∃ ticket, w = .turn (.record serial) ticket)
    ∨ ∀ state runs, d.Holds serial state runs → d'.Holds serial state runs

theorem Undisturbed.refl (serial : Nat) (w : Wait) (d : Desk) : Undisturbed serial w d d :=
  .inr fun _ _ h => h

variable {serial : Nat} {d d' : Desk} {log : List Exchange} {state : State} {runs : List (String × Int)}

theorem Desk.Holds.call {c : Call} (h : d.Holds serial state runs)
    (hothers : Undisturbed serial (.call c) d d') : d'.Holds serial state runs := by
  rcases hothers with ⟨ticket, hw⟩ | hothers
  · cases hw
  · exact hothers state runs h

theorem Desk.Holds.forgetRetired (h : d.Holds serial state runs) :
    Desk.Holds { d with ledger := d.ledger.forgetRetired } serial state runs := by
  obtain ⟨r, hfind, hheld, hr⟩ := h
  exact ⟨r, Ledger.find?_forgetRetired hfind hheld, hheld, hr⟩

theorem Desk.find?_updateLock {f : Lock → Lock} :
    (d.updateLock (.record serial) f).ledger.find? serial =
      (d.ledger.find? serial).map fun r => { r with lock := f r.lock } :=
  Ledger.find?_update fun _ hr => hr

/-- The one whose turn it is at a lock waits for a record that is there. -/
theorem Desk.exists_of_isTurnOf {ticket : Nat} (h : (d.lock (.record serial)).isTurnOf ticket = true) :
    ∃ r, d.ledger.find? serial = some r := by
  rw [Desk.lock] at h
  cases hfind : d.ledger.find? serial with
  | some r => exact ⟨r, rfl⟩
  | none =>
    rw [hfind] at h
    cases h

theorem Desk.holds_updateLock {r : Record} {f : Lock → Lock} (hfind : d.ledger.find? serial = some r)
    (hheld : (f r.lock).held = true) :
    (d.updateLock (.record serial) f).Holds serial r.state r.runs :=
  ⟨{ r with lock := f r.lock }, by rw [Desk.find?_updateLock, hfind, Option.map_some], hheld, rfl, rfl⟩

/-- Who takes the lock of a record then has the record for itself. -/
theorem Task.holds_of_acquire (hfind : (d.ledger.find? serial).isSome) {u : Unit}
    (h : (acquire (.record serial)).Runs (Undisturbed serial) d log u d') :
    log = [] ∧ ∃ state runs, d'.Holds serial state runs := by
  rw [acquire, runs_bind] at h
  obtain ⟨_, free, d₁, _, rfl, hread, h⟩ := h
  obtain ⟨rfl, rfl, rfl⟩ := runs_read.mp hread
  split at h
  · -- the lock is free
    obtain ⟨r, hr⟩ := Option.isSome_iff_exists.mp hfind
    obtain ⟨rfl, rfl⟩ := runs_modify.mp h
    exact ⟨rfl, r.state, r.runs, Desk.holds_updateLock hr rfl⟩
  · -- others may have changed the record when the turn comes, but it is there
    rw [runs_bind] at h
    obtain ⟨_, ticket, d₂, _, rfl, hticket, h⟩ := h
    obtain ⟨rfl, -, -⟩ := runs_takeTicket.mp hticket
    rw [runs_bind] at h
    obtain ⟨_, _, d₃, _, rfl, hjoin, h⟩ := h
    obtain ⟨rfl, -⟩ := runs_modify.mp hjoin
    obtain ⟨_, _, d₄, _, rfl, hturn, henter⟩ := runs_bind.mp h
    obtain ⟨rfl, -, hend⟩ := runs_await.mp hturn
    obtain ⟨r, hr⟩ := Desk.exists_of_isTurnOf hend
    obtain ⟨rfl, rfl⟩ := runs_modify.mp henter
    exact ⟨rfl, r.state, r.runs, Desk.holds_updateLock hr rfl⟩

/-- A change of the record by its holder. -/
theorem Case.holds_of_update {c : Case} {f : Record → Record} {r : Record} {u : Unit}
    {others : Wait → Desk → Desk → Prop} (h : (c.update f).Runs others d log u d')
    (hfind : d.ledger.find? c.serial = some r)
    (hserial : ∀ r, r.serial = c.serial → (f r).serial = c.serial) (hheld : (f r).lock.held = true) :
    log = [] ∧ d'.Holds c.serial (f r).state (f r).runs := by
  obtain ⟨rfl, rfl⟩ := Task.runs_modify.mp h
  exact ⟨rfl, f r, by rw [Ledger.find?_update hserial, hfind, Option.map_some], hheld, rfl, rfl⟩

theorem Case.runs_record {c : Case} {r r₁ : Record} {others : Wait → Desk → Desk → Prop}
    (hfind : d.ledger.find? c.serial = some r) :
    c.record.Runs others d log r₁ d' ↔ log = [] ∧ r₁ = r ∧ d' = d := by
  refine Task.runs_read.trans ?_
  rw [hfind, Option.getD_some]

/-! ## Leaving the record alone -/

/-- Whatever a task asks has property `p`, and it leaves a record that is held as it is. -/
def Task.Leaves {α : Type} (serial : Nat) (p : Exchange → Prop) (t : Task α) : Prop :=
  ∀ ⦃d d' : Desk⦄ ⦃log : List Exchange⦄ ⦃a : α⦄, t.Runs (Undisturbed serial) d log a d' →
    (∀ e ∈ log, p e) ∧ ∀ state runs, d.Holds serial state runs → d'.Holds serial state runs

variable {α β : Type} {p : Exchange → Prop}

namespace Task

theorem leaves_pure (a : α) : (pure a : Task α).Leaves serial p := by
  intro d d' log b h
  obtain ⟨rfl, -, rfl⟩ := runs_pure.mp h
  exact ⟨List.forall_mem_nil p, fun _ _ h => h⟩

theorem leaves_bind {t : Task α} {f : α → Task β} (ht : t.Leaves serial p)
    (hf : ∀ a, (f a).Leaves serial p) : (t >>= f).Leaves serial p := by
  intro d d' log b h
  obtain ⟨log₁, a, d₁, log₂, rfl, h₁, h₂⟩ := runs_bind.mp h
  obtain ⟨hlog₁, hholds₁⟩ := ht h₁
  obtain ⟨hlog₂, hholds₂⟩ := hf a h₂
  exact ⟨List.forall_mem_append.mpr ⟨hlog₁, hlog₂⟩,
    fun state runs hd => hholds₂ state runs (hholds₁ state runs hd)⟩

theorem leaves_read (f : Desk → α) : (read f).Leaves serial p := by
  intro d d' log a h
  obtain ⟨rfl, -, rfl⟩ := runs_read.mp h
  exact ⟨List.forall_mem_nil p, fun _ _ h => h⟩

theorem leaves_modify {f : Desk → Desk}
    (hf : ∀ d state runs, d.Holds serial state runs → (f d).Holds serial state runs) :
    (modify f).Leaves serial p := by
  intro d d' log a h
  obtain ⟨rfl, rfl⟩ := runs_modify.mp h
  exact ⟨List.forall_mem_nil p, hf d⟩

theorem leaves_note (n : Notice) : (note n).Leaves serial p :=
  leaves_modify fun _ _ _ h => h

theorem leaves_await {w : Wait} (hw : ∀ ticket, w ≠ .turn (.record serial) ticket)
    (hp : ∀ answer, ∀ e ∈ w.exchanges answer, p e) : (await w).Leaves serial p := by
  intro d d' log answer h
  obtain ⟨rfl, hothers, -⟩ := runs_await.mp h
  refine ⟨hp answer, ?_⟩
  rcases hothers with ⟨ticket, rfl⟩ | hothers
  · exact absurd rfl (hw ticket)
  · exact hothers

theorem leaves_takeTicket : takeTicket.Leaves serial p := by
  intro d d' log a h
  obtain ⟨rfl, -, rfl⟩ := runs_takeTicket.mp h
  exact ⟨List.forall_mem_nil p, fun _ _ h => h⟩

theorem leaves_acquire_tokens : (acquire .tokens).Leaves serial p := by
  refine leaves_bind (leaves_read _) fun free => ?_
  split
  · exact leaves_modify fun _ _ _ h => h
  · refine leaves_bind leaves_takeTicket fun ticket => ?_
    refine leaves_bind (leaves_modify fun _ _ _ h => h) fun _ => ?_
    refine leaves_bind (leaves_await (fun _ h => ?_) fun answer e he => ?_) fun _ => ?_
    · cases h
    · cases he
    · exact leaves_modify fun _ _ _ h => h

theorem leaves_release_tokens : (release .tokens).Leaves serial p :=
  leaves_modify fun d _ _ h =>
    Desk.Holds.forgetRetired (d := d.updateLock .tokens Lock.giveBack) h

end Task

namespace Attempt

/-- Whatever an attempt asks has property `p`, and it leaves a record that is held as it is. -/
def Leaves (serial : Nat) (p : Exchange → Prop) (x : Attempt α) : Prop := Task.Leaves serial p x.run

theorem leaves_pure (a : α) : Leaves serial p (pure a : Attempt α) := Task.leaves_pure _

theorem leaves_ofExcept (x : Except Failure α) : Leaves serial p (ofExcept x) := Task.leaves_pure x

theorem leaves_throw (e : Failure) : Leaves serial p (throw e : Attempt α) := Task.leaves_pure _

theorem leaves_lift {t : Task α} (ht : t.Leaves serial p) : Leaves serial p (liftM t : Attempt α) :=
  Task.leaves_bind ht fun _ => Task.leaves_pure _

theorem leaves_bind {x : Attempt α} {f : α → Attempt β} (hx : Leaves serial p x)
    (hf : ∀ a, Leaves serial p (f a)) : Leaves serial p (x >>= f) := by
  refine Task.leaves_bind hx fun result => ?_
  cases result with
  | error e => exact Task.leaves_pure _
  | ok a => exact hf a

theorem leaves_call {c : Call} (hp : ∀ answer, p ⟨c, answer⟩) : Leaves serial p (call c) := by
  refine Task.leaves_await (w := .call c) (fun ticket hturn => ?_) fun answer => ?_
  · cases hturn
  · exact List.forall_mem_singleton.mpr (hp answer)

theorem leaves_locked_tokens {x : Attempt α} (hx : Leaves serial p x) :
    Leaves serial p (locked .tokens x) :=
  Task.leaves_bind Task.leaves_acquire_tokens fun _ => Task.leaves_bind hx fun _ =>
    Task.leaves_bind Task.leaves_release_tokens fun _ => Task.leaves_pure _

theorem leaves_forM {f : α → Attempt Unit} (hf : ∀ a, Leaves serial p (f a)) (xs : List α) :
    Leaves serial p (xs.forM f) := by
  induction xs with
  | nil => exact leaves_pure ()
  | cons x xs ih => exact leaves_bind (hf x) fun _ => ih

theorem leaves_mapM {f : α → Attempt β} (hf : ∀ a, Leaves serial p (f a)) (xs : List α) :
    Leaves serial p (xs.mapM f) := by
  induction xs with
  | nil => exact leaves_pure []
  | cons x xs ih =>
    rw [List.mapM_cons]
    exact leaves_bind (hf x) fun _ => leaves_bind ih fun _ => leaves_pure _

end Attempt

end TypstLint.Delivery
