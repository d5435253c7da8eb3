import TypstLint.Assoc
import TypstLint.Text.Quoted
import TypstLint.Webhook.Event

set_option autoImplicit false

/-! # Records of checks

A `Record` tells how far the check of a commit has come (`State`), and which check runs there are for its
packages. Its states only go on (`advance` refuses to go back, and to leave a final state); a new attempt
starts them again with `restart`, which keeps the runs unless new ones are asked for (`startingRuns`).

Attempts follow one another: each takes the `Lock` of the record. Those who wait are served in the order
of the numbers that they took, but giving a lock back only marks it free. Until the first in the queue
goes on, others may look at the record, and find it idle (`isIdle`) though someone waits for it. -/

/-! ## States

A check goes through its states in one direction, until it is done or has failed. -/

namespace TypstLint.Delivery

/-- How far a check has come. -/
inductive State where
  | received
  | authenticating
  | fetching
  | analyzing
  | reporting
  | done
  | failed
  deriving DecidableEq, Repr, Inhabited

namespace State

/-- The states, in the order in which a check goes through them; it may fail from any but the last. -/
def all : List State := [received, authenticating, fetching, analyzing, reporting, done, failed]

/-- The name of a state. -/
def name : State → String
  | received => "received"
  | authenticating => "authenticating"
  | fetching => "fetching"
  | analyzing => "analyzing"
  | reporting => "reporting"
  | done => "done"
  | failed => "failed"

/-- The state with a name. -/
def ofName? (s : String) : Option State := all.find? (·.name == s)

/-- Whether a check is over. -/
def isTerminal : State → Bool
  | done | failed => true
  | _ => false

/-- The place of a state in their order. -/
def rank : State → Nat
  | received => 0
  | authenticating => 1
  | fetching => 2
  | analyzing => 3
  | reporting => 4
  | done => 5
  | failed => 6

end State

/-! ## Locks -/

/-- A lock, and the numbers of those who wait for it, first come first. -/
structure Lock where
  held : Bool := false
  queue : List Nat := []
  deriving DecidableEq, Repr, Inhabited

namespace Lock

/-- Whether a lock can be taken at once: nobody holds it or waits for it. -/
def isFree (l : Lock) : Bool := !l.held && l.queue.isEmpty

/-- Whether it is the turn of the one who waits under a number. -/
def isTurnOf (l : Lock) (ticket : Nat) : Bool := !l.held && l.queue.head? == some ticket

/-- Takes a lock. -/
def take (l : Lock) : Lock := { l with held := true }

/-- Joins the queue under a number. -/
def join (l : Lock) (ticket : Nat) : Lock := { l with queue := l.queue ++ [ticket] }

/-- Leaves the queue and takes the lock. -/
def enter (l : Lock) (ticket : Nat) : Lock := ⟨true, l.queue.erase ticket⟩

/-- Gives a lock back. -/
def giveBack (l : Lock) : Lock := { l with held := false }

end Lock

/-! ## Records -/

/-- The record of the check of a commit. -/
structure Record where
  /-- The number under which deliveries know the record. -/
  serial : Nat := 0
  key : CheckKey
  state : State := .received
  /-- The check runs by the names of the packages. -/
  runs : List (String × Int) := []
  /-- Why the check is in its state. -/
  reason : Option String := none
  attempts : Nat := 0
  lock : Lock := {}
  deriving DecidableEq, Repr

/-- Why a record cannot go to a state. -/
inductive AdvanceError where
  | final (key : CheckKey) (state : State)
  | backward (old new : State)
  deriving DecidableEq, Repr

/-- The wording of an error. -/
def AdvanceError.message : AdvanceError → String
  | final key state =>
    "Check record (" ++ Text.quoted key.repository ++ ", " ++ Text.quoted key.sha ++ ") is already "
      ++ state.name
  | backward old new => s!"Cannot go from {old.name} to {new.name}"

namespace Record

/-- Enters a check run. -/
def setRun (r : Record) (name : String) (run : Int) : Record :=
  { r with runs := Assoc.set r.runs name run }

/-- The runs that an attempt starts with: the known ones, unless new ones are asked for, and the one
that is to be run again. -/
def startingRuns (r : Record) (request : CheckRequest) : List (String × Int) :=
  let known := if request.rerequested then [] else r.runs
  match request.checkRun with
  | some run => Assoc.set known run.name run.id
  | none => known

/-- Starts a new attempt. -/
def restart (r : Record) (request : CheckRequest) : Record :=
  { r with
    runs := r.startingRuns request
    state := .received
    reason := none
    attempts := r.attempts + 1 }

/-- Goes on to a later state. -/
def advance (r : Record) (state : State) (reason : Option String) : Except AdvanceError Record :=
  if r.state.isTerminal then .error (.final r.key r.state)
  else if state.rank ≤ r.state.rank then .error (.backward r.state state)
  else .ok { r with state, reason }

/-- Whether a record can be given up: its check is over, and no delivery works on it. -/
def isIdle (r : Record) : Bool := r.state.isTerminal && !r.lock.held

/-- Whether a request asks for nothing new, because the check is done. -/
def isSettledFor (r : Record) (request : CheckRequest) : Bool :=
  r.state == .done && !request.rerequested

/-- A record as a value. -/
def toValue (r : Record) : Json.Value :=
  .obj [("state", .str r.state.name), ("terminal", .bool r.state.isTerminal),
    ("check_runs", .obj (r.runs.map fun (name, run) => (name, .int run))),
    ("reason", .ofText? r.reason), ("attempts", .ofNat r.attempts)]

end Record

end TypstLint.Delivery
