import TypstLint.Delivery.Attempt

set_option autoImplicit false

/-! # Runs of tasks

A run of a task is one way in which it can go (`Task.Runs`, `Attempt.Runs`): with some answer to every
call, and with whatever other tasks do to the desk while it waits. A run is told by the calls that it
makes and their answers, by its result, and by the desk that it leaves.

The runs of a task are those of its parts, one behind the other; with a lemma for each way of joining
parts, a task is taken apart along its `do` block. That there is a run at all is `CanRun`. -/

namespace TypstLint.Delivery

open GitHub (Call Failure)

/-- A call and its answer. -/
structure Exchange where
  call : Call
  answer : Except Failure call.Answer

/-- What is asked and answered while a task waits. -/
def Wait.exchanges : (w : Wait) → w.Answer → List Exchange
  | .call c, answer => [⟨c, answer⟩]
  | .turn .., () | .work, () => []

/-- The runs of what a task does from the desk on. While it waits, others may turn the desk into any
one that `others` allows. -/
inductive Step.Runs (others : Wait → Desk → Desk → Prop) {α : Type} :
    Step α → List Exchange → α → Desk → Prop where
  | done (a : α) (d : Desk) : Runs others (.done a d) [] a d
  | wait {w : Wait} {d d₁ d' : Desk} {next : w.Answer → Desk → Step α} (answer : w.Answer)
      {log : List Exchange} {a : α} (hothers : others w d d₁) (hend : w.mayEnd d₁ = true)
      (hnext : (next answer d₁).Runs others log a d') :
      Runs others (.wait w d next) (w.exchanges answer ++ log) a d'

/-- The runs of a task. -/
def Task.Runs {α : Type} (others : Wait → Desk → Desk → Prop) (t : Task α) (d : Desk)
    (log : List Exchange) (a : α) (d' : Desk) : Prop :=
  (t d).Runs others log a d'

/-- The runs of an attempt. -/
def Attempt.Runs {α : Type} (others : Wait → Desk → Desk → Prop) (x : Attempt α) (d : Desk)
    (log : List Exchange) (result : Except Failure α) (d' : Desk) : Prop :=
  Task.Runs others x.run d log result d'

variable {others : Wait → Desk → Desk → Prop} {α β : Type} {d d' : Desk} {log : List Exchange}

/-! ## Steps -/

theorem Step.runs_done {a b : α} :
    (Step.done a d).Runs others log b d' ↔ log = [] ∧ b = a ∧ d' = d := by
  constructor
  · rintro ⟨⟩
    exact ⟨rfl, rfl, rfl⟩
  · rintro ⟨rfl, rfl, rfl⟩
    exact .done _ _

theorem Step.runs_bind {s : Step α} {f : α → Desk → Step β} {b : β} :
    (s.bind f).Runs others log b d' ↔
      ∃ log₁ a d₁ log₂, log = log₁ ++ log₂ ∧ s.Runs others log₁ a d₁
        ∧ (f a d₁).Runs others log₂ b d' := by
  constructor
  · -- a run of the whole goes through the steps of the first part, one after the other
    intro h
    induction s generalizing log with
    | done a d => exact ⟨[], a, d, log, rfl, .done a d, h⟩
    | wait w d next ih =>
      rw [Step.bind] at h
      cases h with
      | wait answer hothers hend hnext =>
        obtain ⟨log₁, a, d₁, log₂, rfl, hs, hf⟩ := ih _ _ hnext
        exact ⟨_, a, d₁, log₂, (List.append_assoc ..).symm, .wait answer hothers hend hs, hf⟩
  · rintro ⟨log₁, a, d₁, log₂, rfl, hs, hf⟩
    induction hs with
    | done a d => exact hf
    | wait answer hothers hend _ ih =>
      rw [List.append_assoc]
      exact .wait answer hothers hend (ih hf)

/-! ## Tasks -/

theorem Step.bind_done (s : Step α) : s.bind .done = s := by
  induction s with
  | done a d => rfl
  | wait w d next ih => simp only [Step.bind, ih]

theorem Step.bind_assoc {γ : Type} (s : Step α) (f : α → Desk → Step β) (g : β → Desk → Step γ) :
    (s.bind f).bind g = s.bind fun a d => (f a d).bind g := by
  induction s with
  | done a d => rfl
  | wait w d next ih => simp only [Step.bind, ih]

instance : LawfulMonad Task :=
  LawfulMonad.mk' Task (fun t => funext fun d => (t d).bind_done) (fun _ _ => rfl)
    fun t f g => funext fun d => (t d).bind_assoc (fun a => f a) (fun b => g b)

namespace Task

theorem runs_pure {a b : α} :
    (pure a : Task α).Runs others d log b d' ↔ log = [] ∧ b = a ∧ d' = d :=
  Step.runs_done

theorem runs_bind {t : Task α} {f : α → Task β} {b : β} :
    (t >>= f).Runs others d log b d' ↔
      ∃ log₁ a d₁ log₂, log = log₁ ++ log₂ ∧ t.Runs others d log₁ a d₁
        ∧ (f a).Runs others d₁ log₂ b d' :=
  Step.runs_bind

theorem runs_read {f : Desk → α} {a : α} :
    (read f).Runs others d log a d' ↔ log = [] ∧ a = f d ∧ d' = d :=
  Step.runs_done

theorem runs_modify {f : Desk → Desk} {a : Unit} :
    (modify f).Runs others d log a d' ↔ log = [] ∧ d' = f d := by
  refine Step.runs_done.trans ?_
  simp only [true_and]

theorem runs_note {n : Notice} {a : Unit} :
    (note n).Runs others d log a d' ↔ log = [] ∧ d' = { d with notices := n :: d.notices } :=
  runs_modify

theorem runs_claim {request : CheckRequest} {serial : Option Nat} :
    (claim request).Runs others d log serial d' ↔ log = [] ∧ serial = (d.ledger.claim request).1
      ∧ d' = { d with ledger := (d.ledger.claim request).2 } :=
  Step.runs_done

theorem runs_takeTicket {ticket : Nat} :
    takeTicket.Runs others d log ticket d' ↔ log = [] ∧ ticket = d.nextTicket
      ∧ d' = { d with nextTicket := d.nextTicket + 1 } :=
  Step.runs_done

theorem runs_await {w : Wait} {answer : w.Answer} :
    (await w).Runs others d log answer d' ↔
      log = w.exchanges answer ∧ others w d d' ∧ w.mayEnd d' = true := by
  constructor
  · intro h
    cases h with
    | wait answer hothers hend hnext =>
      obtain ⟨rfl, rfl, rfl⟩ := Step.runs_done.mp hnext
      exact ⟨List.append_nil _, hothers, hend⟩
  · rintro ⟨rfl, hothers, hend⟩
    rw [← List.append_nil (w.exchanges answer)]
    exact .wait answer hothers hend (.done _ _)

end Task

/-! ## Attempts -/

namespace Attempt

theorem runs_pure {a : α} {result : Except Failure α} :
    Attempt.Runs others (pure a) d log result d' ↔ log = [] ∧ result = .ok a ∧ d' = d :=
  Task.runs_pure

theorem runs_throw {e : Failure} {result : Except Failure α} :
    Attempt.Runs others (throw e) d log result d' ↔ log = [] ∧ result = .error e ∧ d' = d :=
  Task.runs_pure

theorem runs_ofExcept {x result : Except Failure α} :
    Attempt.Runs others (ofExcept x) d log result d' ↔ log = [] ∧ result = x ∧ d' = d :=
  Task.runs_pure

theorem runs_bind {x : Attempt α} {f : α → Attempt β} {result : Except Failure β} :
    Attempt.Runs others (x >>= f) d log result d' ↔
      (∃ e, result = .error e ∧ x.Runs others d log (.error e) d')
        ∨ ∃ log₁ a d₁ log₂, log = log₁ ++ log₂ ∧ x.Runs others d log₁ (.ok a) d₁
          ∧ (f a).Runs others d₁ log₂ result d' := by
  rw [Attempt.Runs, ExceptT.run_bind, Task.runs_bind]
  constructor
  · rintro ⟨log₁, a | a, d₁, log₂, rfl, hx, hf⟩
    · obtain ⟨rfl, rfl, rfl⟩ := Task.runs_pure.mp hf
      exact .inl ⟨a, rfl, by rwa [List.append_nil]⟩
    · exact .inr ⟨log₁, a, d₁, log₂, rfl, hx, hf⟩
  · rintro (⟨e, rfl, hx⟩ | ⟨log₁, a, d₁, log₂, rfl, hx, hf⟩)
    · exact ⟨log, .error e, d', [], (List.append_nil _).symm, hx, Task.runs_pure.mpr ⟨rfl, rfl, rfl⟩⟩
    · exact ⟨log₁, .ok a, d₁, log₂, rfl, hx, hf⟩

/-- An attempt that does not fail has not failed in its first part. -/
theorem runs_bind_ok {x : Attempt α} {f : α → Attempt β} {b : β} :
    Attempt.Runs others (x >>= f) d log (.ok b) d' ↔
      ∃ log₁ a d₁ log₂, log = log₁ ++ log₂ ∧ x.Runs others d log₁ (.ok a) d₁
        ∧ (f a).Runs others d₁ log₂ (.ok b) d' := by
  rw [runs_bind]
  constructor
  · rintro (⟨e, h, -⟩ | h)
    · cases h
    · exact h
  · exact .inr

theorem runs_lift {t : Task α} {result : Except Failure α} :
    Attempt.Runs others (liftM t) d log result d' ↔ ∃ a, result = .ok a ∧ t.Runs others d log a d' := by
  have hlift : (liftM t : Attempt α).run = t >>= fun a => pure (.ok a) := rfl
  rw [Attempt.Runs, hlift, Task.runs_bind]
  constructor
  · rintro ⟨log₁, a, d₁, log₂, rfl, ht, hok⟩
    obtain ⟨rfl, rfl, rfl⟩ := Task.runs_pure.mp hok
    exact ⟨a, rfl, by rwa [List.append_nil]⟩
  · rintro ⟨a, rfl, ht⟩
    exact ⟨log, a, d', [], (List.append_nil _).symm, ht, Task.runs_pure.mpr ⟨rfl, rfl, rfl⟩⟩

/-- A task that does not fail, and then an attempt. -/
theorem runs_lift_bind {t : Task α} {f : α → Attempt β} {result : Except Failure β} :
    Attempt.Runs others (liftM t >>= f) d log result d' ↔
      ∃ log₁ a d₁ log₂, log = log₁ ++ log₂ ∧ t.Runs others d log₁ a d₁
        ∧ (f a).Runs others d₁ log₂ result d' := by
  rw [runs_bind]
  constructor
  · rintro (⟨e, -, hx⟩ | ⟨log₁, a, d₁, log₂, rfl, hx, hf⟩)
    · obtain ⟨_, h, -⟩ := runs_lift.mp hx
      cases h
    · obtain ⟨_, ⟨rfl⟩, ht⟩ := runs_lift.mp hx
      exact ⟨log₁, a, d₁, log₂, rfl, ht, hf⟩
  · rintro ⟨log₁, a, d₁, log₂, rfl, ht, hf⟩
    exact .inr ⟨log₁, a, d₁, log₂, rfl, runs_lift.mpr ⟨a, rfl, ht⟩, hf⟩

theorem runs_call {c : Call} {answer : Except Failure c.Answer} :
    Attempt.Runs others (call c) d log answer d' ↔ log = [⟨c, answer⟩] ∧ others (.call c) d d' := by
  refine Task.runs_await.trans ?_
  simp only [Wait.exchanges, Wait.mayEnd, and_true]

theorem runs_outcome {x : Attempt α} {result : Except Failure (Except Failure α)} :
    Attempt.Runs others (outcome x) d log result d' ↔
      ∃ a, result = .ok a ∧ x.Runs others d log a d' :=
  runs_lift

/-- An attempt with a lock takes the lock first, and it gives the lock back in the end. -/
theorem runs_locked {name : LockName} {x : Attempt α} {result : Except Failure α} :
    Attempt.Runs others (locked name x) d log result d' ↔
      ∃ log₁ d₁ log₂ d₂ log₃, log = log₁ ++ (log₂ ++ log₃)
        ∧ (Task.acquire name).Runs others d log₁ () d₁ ∧ x.Runs others d₁ log₂ result d₂
        ∧ (Task.release name).Runs others d₂ log₃ () d' := by
  have hrun : (locked name x).run = (do
      Task.acquire name
      let outcome ← x.run
      Task.release name
      return outcome) := rfl
  rw [Attempt.Runs, hrun]
  simp only [Task.runs_bind, Task.runs_pure]
  constructor
  · rintro ⟨log₁, _, d₁, _, rfl, ha, log₂, _, d₂, _, rfl, hx, log₃, _, d₃, _, rfl, hr, rfl, rfl, rfl⟩
    exact ⟨log₁, d₁, log₂, d₂, log₃, by rw [List.append_nil], ha, hx, hr⟩
  · rintro ⟨log₁, d₁, log₂, d₂, log₃, rfl, ha, hx, hr⟩
    exact ⟨log₁, (), d₁, _, by rw [List.append_nil], ha, log₂, _, d₂, _, rfl, hx, log₃, (), d', [], rfl,
      hr, rfl, rfl, rfl⟩

/-! ## Runs that there are -/

variable {d₁ : Desk} {log₁ log₂ : List Exchange} {p q : Desk → Prop}

/-- Whether an attempt has a run that leaves a desk with property `p`. -/
def CanRun (others : Wait → Desk → Desk → Prop) (x : Attempt α) (d : Desk) (log : List Exchange)
    (result : Except Failure α) (p : Desk → Prop) : Prop :=
  ∃ d', x.Runs others d log result d' ∧ p d'

theorem runs_of_done {x : Attempt α} {result : Except Failure α} (h : x.run d = .done result d') :
    x.Runs others d [] result d' := by
  rw [Attempt.Runs, Task.Runs, h]
  exact .done result d'

theorem CanRun.lift_bind {t : Task α} {f : α → Attempt β} {a : α} {result : Except Failure β}
    (ht : t.Runs others d [] a d₁) (hf : CanRun others (f a) d₁ log result p) :
    CanRun others (liftM t >>= f) d log result p := by
  obtain ⟨d', hf, hp⟩ := hf
  exact ⟨d', runs_lift_bind.mpr ⟨[], a, d₁, log, rfl, ht, hf⟩, hp⟩

theorem CanRun.bind {x : Attempt α} {f : α → Attempt β} {a : α} {result : Except Failure β}
    (hx : x.Runs others d log₁ (.ok a) d₁) (hf : CanRun others (f a) d₁ log₂ result p) :
    CanRun others (x >>= f) d (log₁ ++ log₂) result p := by
  obtain ⟨d', hf, hp⟩ := hf
  exact ⟨d', runs_bind.mpr (.inr ⟨log₁, a, d₁, log₂, rfl, hx, hf⟩), hp⟩

/-- What follows asks for nothing. -/
theorem CanRun.bind_last {x : Attempt α} {f : α → Attempt β} {a : α} {result : Except Failure β}
    (hx : CanRun others x d log (.ok a) p)
    (hf : ∀ d₁, p d₁ → CanRun others (f a) d₁ [] result q) :
    CanRun others (x >>= f) d log result q := by
  obtain ⟨d₁, hx, hp⟩ := hx
  obtain ⟨d', hf, hq⟩ := hf d₁ hp
  exact ⟨d', runs_bind.mpr (.inr ⟨log, a, d₁, [], (List.append_nil _).symm, hx, hf⟩), hq⟩

theorem CanRun.outcome {x : Attempt α} {result : Except Failure α}
    (hx : CanRun others x d log result p) :
    CanRun others (Attempt.outcome x) d log (.ok result) p := by
  obtain ⟨d', hx, hp⟩ := hx
  exact ⟨d', runs_outcome.mpr ⟨result, rfl, hx⟩, hp⟩

end Attempt

end TypstLint.Delivery
