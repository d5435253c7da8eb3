import TypstLint.Delivery.Ledger
import TypstLint.Delivery.Notice
import TypstLint.Delivery.Tokens
import TypstLint.GitHub.Call

set_option autoImplicit false

/-! # Tasks

Deliveries are handled by tasks that take turns. A `Task` has the `Desk`, where all records and tokens
lie, for itself until it waits for something (`Wait`): an answer to a call, its turn at a lock, or the
end of work that is done elsewhere. When it goes on, other tasks may have changed what lies there.

So a task is a function from the desk to a `Step`, which either ends with a result and the desk, or waits
and says how to go on with the answer. This makes the points at which tasks can be interleaved part of
the data, and leaves out all others. `Task.run` goes through with a task that is alone, with a `Remote`
that answers its calls. -/

namespace TypstLint.Delivery

open GitHub (Call Failure)

/-! ## The desk -/

/-- What tasks share. -/
structure Desk where
  ledger : Ledger := {}
  tokens : Tokens := {}
  /-- The time, in microseconds from the start of 1970. -/
  now : Int := 0
  /-- The notices about deliveries, the last one first. -/
  notices : List Notice := []
  /-- The number of the next one who waits for a lock. -/
  nextTicket : Nat := 0
  deriving Repr

/-- The locks on the desk: one for each record, and one for the tokens. -/
inductive LockName where
  | record (serial : Nat)
  | tokens
  deriving DecidableEq, Repr

namespace Desk

/-- The desk on which a service starts. It takes over a ledger with records; an empty one is replaced by
a ledger with the usual limit. -/
def start (ledger : Ledger) (now : Int) : Desk :=
  { ledger := if ledger.records.isEmpty then {} else ledger, now }

/-- A lock. -/
def lock (d : Desk) : LockName → Lock
  | .record serial => ((d.ledger.find? serial).map (·.lock)).getD {}
  | .tokens => d.tokens.lock

/-- Changes a lock. -/
def updateLock (d : Desk) (name : LockName) (f : Lock → Lock) : Desk :=
  match name with
  | .record serial =>
    { d with ledger := d.ledger.update serial fun r => { r with lock := f r.lock } }
  | .tokens => { d with tokens := { d.tokens with lock := f d.tokens.lock } }

end Desk

/-! ## Waiting -/

/-- What a task waits for. -/
inductive Wait where
  /-- An answer from GitHub. -/
  | call (c : Call)
  /-- The turn at a lock of the one with a number. -/
  | turn (lock : LockName) (ticket : Nat)
  /-- The end of work that leaves the desk to others. -/
  | work
  deriving DecidableEq, Repr

/-- What a task gets when its waiting is over. -/
def Wait.Answer : Wait → Type
  | call c => Except Failure c.Answer
  | turn .. | work => Unit

/-- Whether the waiting may be over. -/
def Wait.mayEnd (d : Desk) : Wait → Bool
  | turn lock ticket => (d.lock lock).isTurnOf ticket
  | call _ | work => true

/-- Where a task is when it leaves the desk: at its end, or waiting. -/
inductive Step (α : Type) where
  | done (result : α) (desk : Desk)
  | wait (w : Wait) (desk : Desk) (next : w.Answer → Desk → Step α)

/-- Goes on with another task when one has ended. -/
def Step.bind {α β : Type} (f : α → Desk → Step β) : Step α → Step β
  | .done a d => f a d
  | .wait w d next => .wait w d fun answer d => (next answer d).bind f

/-- A task: what it does when it gets the desk. -/
def Task (α : Type) : Type := Desk → Step α

namespace Task

instance : Monad Task where
  pure a := fun d => .done a d
  bind t f := fun d => (t d).bind f

/-- Reads from the desk. -/
def read {α : Type} (f : Desk → α) : Task α := fun d => .done (f d) d

/-- Changes the desk. -/
def modify (f : Desk → Desk) : Task Unit := fun d => .done () (f d)

/-- Waits for something. -/
def await (w : Wait) : Task w.Answer := fun d => .wait w d fun answer d => .done answer d

/-- The time. -/
def now : Task Int := read (·.now)

/-- The token at hand for an installation, if it is good for use. -/
def freshToken (installation : Int) : Task (Option GitHub.InstallationToken) :=
  read fun d => d.tokens.fresh? d.now installation

/-- Takes a number for a queue. -/
def takeTicket : Task Nat := fun d => .done d.nextTicket { d with nextTicket := d.nextTicket + 1 }

/-- Takes a lock, at once if it is free, and else when it is its turn. -/
def acquire (name : LockName) : Task Unit := do
  if (← read (·.lock name)).isFree then modify (·.updateLock name Lock.take)
  else
    let ticket ← takeTicket
    modify (·.updateLock name (·.join ticket))
    await (.turn name ticket)
    modify (·.updateLock name (·.enter ticket))

/-- Gives a lock back. -/
def release (name : LockName) : Task Unit :=
  modify fun d =>
    let d := d.updateLock name Lock.giveBack
    { d with ledger := d.ledger.forgetRetired }

/-- Puts a notice on record. -/
def note (n : Notice) : Task Unit := modify fun d => { d with notices := n :: d.notices }

/-- Claims the record of a request. -/
def claim (request : CheckRequest) : Task (Option Nat) := fun d =>
  let (serial, ledger) := d.ledger.claim request
  .done serial { d with ledger }

end Task

/-! ## Tasks on their own -/

/-- What answers calls, with a state of its own. -/
structure Remote (σ : Type) where
  answer : (c : Call) → σ → Except Failure c.Answer × σ

/-- The answer to a wait of a task that has the desk for itself all the time. -/
def Remote.answerWait {σ : Type} (remote : Remote σ) (w : Wait) (s : σ) : w.Answer × σ :=
  match w with
  | .call c => remote.answer c s
  | .turn .. => ((), s)
  | .work => ((), s)

/-- Goes through with a task that has the desk for itself all the time. -/
def Step.run {α σ : Type} (remote : Remote σ) : Step α → σ → (α × Desk) × σ
  | .done a d, s => ((a, d), s)
  | .wait w d next, s =>
    let (answer, s) := remote.answerWait w s
    (next answer d).run remote s

/-- Goes through with a task that has the desk for itself all the time. -/
def Task.run {α σ : Type} (t : Task α) (remote : Remote σ) (d : Desk) (s : σ) : (α × Desk) × σ :=
  (t d).run remote s

end TypstLint.Delivery
