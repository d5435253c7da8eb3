import TypstLint.Delivery.Task
import TypstLint.Registry

set_option autoImplicit false

/-! # Attempts

An `Attempt` is a task that may fail. This module has the steps that attempts consist of: calls
(`Attempt.call`), changes of the record in hand (`Case.update`, `Case.advance`), and getting a token
(`Service.getToken`), for which the lock of the tokens is held so that deliveries share one exchange.

A failure ends an attempt at the step that fails. `outcome` turns it into a value where the attempt goes
on all the same, and `locked` gives a lock back whether or not what is done under it fails. -/

namespace TypstLint.Delivery

open GitHub (Call Claims ClientError Credentials Failure)

/-- A task that may fail. -/
abbrev Attempt (α : Type) := ExceptT Failure Task α

namespace Attempt

/-- An outcome that is known already. -/
def ofExcept {α : Type} (x : Except Failure α) : Attempt α := ExceptT.mk (pure x)

/-- Asks GitHub for something. -/
def call (c : Call) : Attempt c.Answer := ExceptT.mk (Task.await (.call c))

/-- The outcome of an attempt, whether it failed or not. -/
def outcome {α : Type} (x : Attempt α) : Attempt (Except Failure α) :=
  ExceptT.mk do
    let outcome ← x.run
    return .ok outcome

/-- Makes an attempt while a lock is held, which is given back whatever the outcome is. -/
def locked {α : Type} (name : LockName) (x : Attempt α) : Attempt α :=
  ExceptT.mk do
    Task.acquire name
    let outcome ← x.run
    Task.release name
    return outcome

end Attempt

/-! ## Tokens -/

/-- What deliveries are handled with. -/
structure Service where
  registry : Registry
  credentials : Credentials
  /-- The repositories for which tokens are asked; all of the installation if there are none. -/
  repositories : Option (List String) := none

namespace Service

/-- Signs a claim of the app. -/
def mint (s : Service) (now : Int) : Except Failure String :=
  (s.credentials.sign (.make s.credentials.app (now.tdiv Text.Timestamp.second))).mapError fun reason =>
    .client (.authentication (GitHub.signingMessage reason))

/-- Exchanges a claim for a token, and keeps the token. -/
def exchange (s : Service) (installation : Int) : Attempt String := do
  let claim ← Attempt.ofExcept (s.mint (← Task.now))
  let token ← Attempt.call (.exchange claim installation s.repositories)
  Task.modify fun d => { d with tokens := d.tokens.store installation token }
  return token.token

/-- The token of an installation: the one at hand, or a new one. -/
def getToken (s : Service) (installation : Int) : Attempt String :=
  Attempt.locked .tokens do
    match ← Task.freshToken installation with
    | some token => return token.token
    | none => s.exchange installation

end Service

/-- Drops the token of an installation, or all of them. -/
def dropTokens (installation : Option Int) : Task Unit := do
  Task.acquire .tokens
  Task.modify fun d => { d with tokens := d.tokens.drop installation }
  Task.release .tokens

/-! ## The record -/

/-- A request, and the number of its record. -/
structure Case where
  request : CheckRequest
  serial : Nat

namespace Case

/-- The record of a case. -/
def record (c : Case) : Task Record :=
  Task.read fun d => (d.ledger.find? c.serial).getD { serial := c.serial, key := c.request.key }

/-- Changes the record of a case. -/
def update (c : Case) (f : Record → Record) : Task Unit :=
  Task.modify fun d => { d with ledger := d.ledger.update c.serial f }

/-- The notice that a check is in a state. -/
def stateNotice (c : Case) (state : State) (reason : Option String) : Notice :=
  let sha := String.ofList (c.request.headSha.toList.take 12)
  { request := c.request
    state
    message := s!"{c.request.repository.fullName}@{sha} is {state.name}"
    reason }

/-- Goes on to a later state. -/
def advance (c : Case) (state : State) (reason : Option String) : Attempt Unit := do
  match (← c.record).advance state reason with
  | .ok r =>
    c.update fun _ => r
    Task.note (c.stateNotice state reason)
  | .error e => throw (.other "ValueError" e.message)

/-- Ends an attempt early, as there is nothing to check. -/
def finish (c : Case) (reason : String) : Attempt Unit := c.advance .done (some reason)

end Case

end TypstLint.Delivery
