import TypstLint.Check
import TypstLint.Delivery.Attempt
import TypstLint.Delivery.Touched

set_option autoImplicit false

/-! # Handling deliveries

`handle` claims the record of a request and makes one attempt while it has the lock of the record
(`handleLocked`, `attempt`): it gets a token (`authenticate`), looks the pull request up (`pullNumber`),
creates check runs for the versions that the changed files touch (`ensureRun`), checks each version with
those files laid over the registry (`fetchOverlay`, `checkVersion`), and sends the reports to the check
runs (`report`). A delivery of a check that is done asks for nothing new (`noteDuplicate`); that is
looked at when the record is claimed and again behind the lock, since the check may have been done by
then.

Whatever fails in an attempt is caught in one place. `fail` gives the record its failed state and
completes the check runs all the same (`completeFailed`). There, only errors of the client are passed
over, so this is where `handle` itself can fail. The steps are written as `Attempt`s, of which every wait
lets other deliveries go on. -/

namespace TypstLint.Delivery

open GitHub (ChangedFile ClientError Failure Output)

/-! ## Texts -/

/-- What is said about a pull request that changes more than packages. -/
def tooManyThings : Output where
  title := "This PR does too many things"
  summary := "A PR should either change packages/, or the rest of the repository, but not both."
  annotations := []

/-- What is said about checks that failed. -/
def fatalError : Output where
  title := "The checks could not be completed"
  summary :=
    "An internal error prevented the automated checks from running to completion. "
      ++ "They will run again on the next push, or you can re-run them from this page."
  annotations := []

/-! ## Steps -/

/-- The number of the pull request: the one in the request, or the first one of the commit. -/
def pullNumber (c : Case) (token : String) : Attempt (Option Int) :=
  match c.request.pullNumber with
  | some number => return some number
  | none => do
    let pulls ← Attempt.call (.pullsOf token c.request.repository c.request.headSha)
    return Webhook.firstNumber pulls

/-- Creates a check run for a version unless there is one. -/
def ensureRun (c : Case) (token : String) (spec : Spec) : Attempt Unit := do
  let name := spec.render
  if ((← c.record).runs.lookup name).isNone then
    let run ← Attempt.call (.createRun token c.request.repository name c.request.headSha)
    c.update (·.setRun name run.id)
    Task.note
      { request := c.request
        state := (← c.record).state
        message := "Check run created"
        package := name
        checkRun := run.id }

/-- The check run of a version. -/
def runOf (c : Case) (spec : Spec) : Attempt Int := do
  match (← c.record).runs.lookup spec.render with
  | some run => return run
  | none => throw (.other "KeyError" (Text.quoted spec.render))

/-- Updates the check run of a version. -/
def updateRun (c : Case) (token : String) (run : Int) (output : Output)
    (conclusion : Option String) : Attempt Unit := do
  let _ ← Attempt.call (.updateRun token c.request.repository run output conclusion)

/-- Refuses to check a pull request that changes more than packages. -/
def refuse (c : Case) (token : String) (specs : List Spec) : Attempt Unit := do
  specs.forM fun spec => do
    updateRun c token (← runOf c spec) tooManyThings (some "failure")
  c.finish "pull request changes files outside packages/"

/-- Gets the content that an overlay names. -/
def fetchContent (c : Case) (token : String) : String × Option String →
    Attempt (String × Option ByteArray)
  | (path, none) => return (path, none)
  | (path, some remote) => do
    let content ← Attempt.call (.contentOf token c.request.repository remote c.request.headSha)
    return (path, some content)

/-- Gets the overlay of a version. -/
def fetchOverlay (c : Case) (token : String) (changed : List ChangedFile) (spec : Spec) :
    Attempt (Spec × Overlay) := do
  return (spec, ← (overlayOf spec changed).mapM (fetchContent c token))

/-- Checks a version. -/
def checkVersion (s : Service) (version : Spec × Overlay) : Attempt (Spec × CheckResult) := do
  Task.await .work
  let result := checkRegistryPackage s.registry version.1 (some version.2) true
  return (version.1, ← Attempt.ofExcept (result.mapError .fault))

/-- Sends outputs to a check run, of which the last one completes it. -/
def sendAll (c : Case) (token : String) (run : Int) (conclusion : String) : List Output → Attempt Unit
  | [] => return ()
  | [output] => updateRun c token run output (some conclusion)
  | output :: rest => do
    updateRun c token run output none
    sendAll c token run conclusion rest

/-- Sends the report of a version to its check run. -/
def report (c : Case) (token : String) (checked : Spec × CheckResult) : Attempt Unit := do
  let (spec, result) := checked
  let run ← runOf c spec
  let conclusion := GitHub.conclusion result.report
  sendAll c token run conclusion
    (GitHub.outputs result.report spec result.package.files GitHub.maxAnnotations)
  Task.note
    { request := c.request
      state := (← c.record).state
      message := "Check run completed"
      package := spec.render
      checkRun := run
      conclusion }

/-- Checks versions and reports about them. -/
def checkAll (s : Service) (c : Case) (token : String) (changed : List ChangedFile)
    (specs : List Spec) : Attempt Unit := do
  let overlays ← specs.mapM (fetchOverlay c token changed)
  c.advance .analyzing none
  let results ← overlays.mapM (checkVersion s)
  c.advance .reporting none
  results.forM (report c token)
  c.advance .done none

/-- Checks what a pull request touches. -/
def checkPull (s : Service) (c : Case) (token : String) (number : Int) : Attempt Unit := do
  let changed ← Attempt.call (.filesOf token c.request.repository number)
  let (specs, outside) ← Attempt.ofExcept ((touched changed).mapError .fault)
  if specs.isEmpty then c.finish "no package changed"
  else
    specs.forM (ensureRun c token)
    if outside then refuse c token specs else checkAll s c token changed specs

/-- Does the work of an attempt. -/
def perform (s : Service) (c : Case) (token : String) : Attempt Unit := do
  c.advance .fetching none
  match ← pullNumber c token with
  | none => c.finish "no pull request for this commit"
  | some number => checkPull s c token number

/-! ## Failures -/

/-- Completes check runs after a failure; that one cannot be completed does not keep the others from
it. -/
def completeFailed (c : Case) (token : String) : List (String × Int) → Attempt Unit
  | [] => return ()
  | (_, run) :: rest => do
    match ← Attempt.outcome (updateRun c token run fatalError (some "neutral")) with
    | .ok () | .error (.client _) => completeFailed c token rest
    | .error e => throw e

/-- Whether a failure tells that a token is not, or no longer, good. -/
def isUnauthorized : Failure → Bool
  | .client e => e.isUnauthorized
  | _ => false

/-- Ends an attempt that failed. -/
def fail (c : Case) (token : Option String) (failure : Failure) : Attempt Unit := do
  let reason := s!"{failure.kind}: {failure.message}"
  if isUnauthorized failure then dropTokens (some c.request.installation)
  c.update fun r => ((r.advance .failed (some reason)).toOption).getD r
  Task.note
    { request := c.request
      state := .failed
      message := "Delivery failed"
      reason
      error := failure.kind }
  match token with
  | some token => completeFailed c token (← c.record).runs
  | none => return ()

/-! ## Deliveries -/

/-- Puts on record that a delivery asks for nothing new. -/
def noteDuplicate (request : CheckRequest) : Task Unit :=
  Task.note
    { request
      state := .done
      message := "Duplicate delivery ignored, checks are already done" }

/-- Gets a token, as the first step of an attempt. -/
def authenticate (s : Service) (c : Case) : Attempt String := do
  c.advance .authenticating none
  s.getToken c.request.installation

/-- Makes an attempt, which ends in a failed state if anything goes wrong. -/
def attempt (s : Service) (c : Case) : Attempt Unit := do
  match ← Attempt.outcome (authenticate s c) with
  | .error e => fail c none e
  | .ok token =>
    match ← Attempt.outcome (perform s c token) with
    | .ok () => return ()
    | .error e => fail c (some token) e

/-- Handles a delivery while it has the lock of its record. -/
def handleLocked (s : Service) (c : Case) : Attempt State := do
  let r ← c.record
  if r.isSettledFor c.request then
    noteDuplicate c.request
    return .done
  else
    c.update (·.restart c.request)
    Task.note { request := c.request, state := .received, message := "Delivery accepted" }
    attempt s c
    return (← c.record).state

/-- Handles a delivery. The result is the state in which the check ends, unless completing the check
runs after a failure fails in an unexpected way. -/
def handle (s : Service) (request : CheckRequest) : Attempt State := do
  match ← Task.claim request with
  | none =>
    noteDuplicate request
    return .done
  | some serial => Attempt.locked (.record serial) (handleLocked s ⟨request, serial⟩)

end TypstLint.Delivery
