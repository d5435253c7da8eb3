import TypstLint.Delivery.Record

set_option autoImplicit false

/-! # The ledger of checks

The ledger holds the records of the last checks, the least recently claimed one first. `claim` finds or
enters the record of a request and makes it the last one. When there are more than `limit`, `evict` gives
up those that are idle, in this order; a record that is in use stays, so there may be more.

A record is known by its serial number, not by its commit: one that is given up while deliveries still
wait for its lock is kept aside in `retired` for them, and the next claim of the commit enters another
record with another number. `forgetRetired` drops it when nobody holds or waits for its lock. -/

namespace TypstLint.Delivery

/-- The records of checks. -/
structure Ledger where
  /-- How many records there may be, unless more are in use. -/
  limit : Int := 10000
  /-- The records, the least recently claimed one first. -/
  records : List Record := []
  /-- The records that were given up while deliveries wait for them. -/
  retired : List Record := []
  /-- The number of the next record. -/
  nextSerial : Nat := 0
  deriving Repr

namespace Ledger

/-- The record of a commit. -/
def get? (l : Ledger) (key : CheckKey) : Option Record := l.records.find? (·.key == key)

/-- The record with a number. -/
def find? (l : Ledger) (serial : Nat) : Option Record :=
  (l.records ++ l.retired).find? (·.serial == serial)

/-- Changes the record with a number. -/
def update (l : Ledger) (serial : Nat) (f : Record → Record) : Ledger :=
  let change (r : Record) : Record := if r.serial == serial then f r else r
  { l with records := l.records.map change, retired := l.retired.map change }

/-! ## Giving up records -/

/-- Splits the first `n` elements with property `p` off. -/
def splitFirst {α : Type} (p : α → Bool) (n : Nat) : List α → List α × List α
  | [] => ([], [])
  | x :: xs =>
    match n with
    | 0 => ([], x :: xs)
    | n + 1 =>
      if p x then
        let (taken, left) := splitFirst p n xs
        (x :: taken, left)
      else
        let (taken, left) := splitFirst p (n + 1) xs
        (taken, x :: left)

/-- Gives up idle records, as long as there are too many. -/
def evict (l : Ledger) : Ledger :=
  let excess : Nat := ((l.records.length : Int) - l.limit).toNat
  let (given, left) := splitFirst Record.isIdle excess l.records
  { l with records := left, retired := l.retired ++ given.filter (!·.lock.queue.isEmpty) }

/-- Forgets the records kept aside for which nobody waits any more. -/
def forgetRetired (l : Ledger) : Ledger :=
  { l with retired := l.retired.filter fun r => r.lock.held || !r.lock.queue.isEmpty }

/-! ## Claims -/

/-- Enters a new record. -/
def enter (l : Ledger) (key : CheckKey) : Ledger :=
  evict
    { l with records := l.records ++ [{ serial := l.nextSerial, key }], nextSerial := l.nextSerial + 1 }

/-- Makes a record the most recently claimed one. -/
def touch (l : Ledger) (r : Record) : Ledger :=
  { l with records := l.records.filter (·.key != r.key) ++ [r] }

/-- Claims the record of a request, which is entered if there is none. The number of the record is
returned unless the check is done and nothing new is asked for. -/
def claim (l : Ledger) (request : CheckRequest) : Option Nat × Ledger :=
  match l.get? request.key with
  | none => (some l.nextSerial, l.enter request.key)
  | some r => (if r.isSettledFor request then none else some r.serial, l.touch r)

end Ledger

end TypstLint.Delivery
