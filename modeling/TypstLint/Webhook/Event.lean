import TypstLint.GitHub.Model

set_option autoImplicit false

/-! # Webhook events

An event asks for a check if it is about a pull request, a check suite or a check run, and if its action
is one that calls for work (`Payload.calls`). All other events that GitHub may send to an app are passed
over (`ignoredEvents`). `parse` gives the `CheckRequest` of a delivery, if it asks for a check.

What all events have is decoded in one place (`decodePayload`), which is given how to decode what the
event is about. Requests for the same commit of a repository have the same `CheckKey`. -/

namespace TypstLint

open GitHub (CheckRun CheckSuite PullRequest Repository)

/-! ## Requests -/

/-- What a check is known by: a repository and a commit. -/
structure CheckKey where
  repository : String
  sha : String
  deriving DecidableEq, Repr

/-- The request to check a commit. -/
structure CheckRequest where
  installation : Int
  repository : Repository
  headSha : String
  /-- The pull request, if the event names one. -/
  pullNumber : Option Int := none
  /-- The check run that is to be run again. -/
  checkRun : Option CheckRun := none
  /-- Whether new check runs are asked for. -/
  rerequested : Bool := false
  event : String := ""
  delivery : Option String := none
  deriving DecidableEq, Repr

/-- What the requested check is known by. -/
def CheckRequest.key (r : CheckRequest) : CheckKey := ⟨r.repository.fullName, r.headSha⟩

/-- A key as a value. -/
def CheckKey.toValue (k : CheckKey) : Json.Value := .ofTexts [k.repository, k.sha]

/-- A request as a value. -/
def CheckRequest.toValue (r : CheckRequest) : Json.Value :=
  .obj [("installation_id", .int r.installation), ("repository", .str r.repository.fullName),
    ("owner", .str r.repository.owner), ("name", .str r.repository.name),
    ("head_sha", .str r.headSha), ("pull_number", .ofInt? r.pullNumber),
    ("check_run", (r.checkRun.map CheckRun.toValue).getD .null),
    ("rerequested", .bool r.rerequested), ("event", .str r.event),
    ("delivery_id", .ofText? r.delivery), ("key", r.key.toValue)]

namespace Webhook

/-- Why a delivery makes no request. -/
inductive EventError where
  | unsupported (event : String)
  | encoding (fault : Text.Encoding.Fault)
  | notJson (text : List Char) (cause : Json.Cause) (offset : Nat)
  /-- An integer in the body has too many digits. -/
  | numeralTooLong (digits : Nat)
  /-- The body is nested too deeply. -/
  | tooDeep
  | notObject
  | invalid (event : String) (mistakes : Nat)
  | noHead
  deriving Repr

/-- The wording of an error. -/
def EventError.message : EventError → String
  | unsupported event => "Unsupported event type: " ++ if event.isEmpty then "<missing>" else event
  | encoding fault => "Webhook body is not valid JSON: " ++ fault.message
  | notJson text cause offset =>
    "Webhook body is not valid JSON: " ++ Json.malformedMessage text cause offset
  | numeralTooLong digits => Text.tooLongMessage digits
  | tooDeep => ""
  | notObject => "Webhook body must be a JSON object"
  | invalid event mistakes => s!"Invalid {event} payload: {mistakes} validation error(s)"
  | noHead => "check_run event without a head SHA"

/-! ## Bodies -/

/-- The error about a body that cannot be read. -/
def EventError.ofBody : Json.BodyError → EventError
  | .encoding fault => .encoding fault
  | .content text (.malformed cause offset) => .notJson text cause offset
  | .content _ (.numeralTooLong digits) => .numeralTooLong digits
  | .content _ .tooDeep => .tooDeep

/-- What every event has, and what it is about. -/
structure Payload (α : Type) where
  action : Option String
  installation : Int
  repository : Repository
  subject : α

/-- Decodes an event about what `subject` decodes. -/
def decodePayload {α : Type} (subject : Json.Members → Json.Decoded α) (members : Json.Members) :
    Json.Decoded (Payload α) :=
  Payload.mk <$> members.optional? "action" Json.text
    <*> members.required "installation" (Json.object fun ms => ms.required "id" Json.int)
    <*> members.required "repository" Repository.decoder
    <*> subject members

/-- The pull request of an event, which also gives its number. -/
def pullSubject (members : Json.Members) : Json.Decoded PullRequest :=
  (fun _ pull => pull) <$> members.required "number" Json.int
    <*> members.required "pull_request" PullRequest.decoder

/-- The check suite of an event. -/
def suiteSubject (members : Json.Members) : Json.Decoded CheckSuite :=
  members.required "check_suite" CheckSuite.decoder

/-- The check run of an event. -/
def runSubject (members : Json.Members) : Json.Decoded CheckRun :=
  members.required "check_run" CheckRun.decoder

/-! ## Requests of events -/

/-- The events that never ask for a check. -/
def ignoredEvents : List String :=
  ["ping", "installation", "installation_repositories", "installation_target",
   "github_app_authorization"]

/-- Whether the action of an event is one of those that call for work. -/
def Payload.calls {α : Type} (p : Payload α) (actions : List String) : Bool :=
  p.action.any actions.contains

/-- The number of the first pull request. -/
def firstNumber (pulls : List PullRequest) : Option Int := pulls.head?.map (·.number)

/-- The request of an event about a pull request. -/
def pullRequest (p : Payload PullRequest) : Option CheckRequest :=
  if p.calls ["opened", "reopened", "synchronize", "ready_for_review"] then
    some
      { installation := p.installation
        repository := p.repository
        headSha := p.subject.head.sha
        pullNumber := p.subject.number }
  else none

/-- The request of an event about a check suite. -/
def suiteRequest (p : Payload CheckSuite) : Option CheckRequest :=
  if p.calls ["requested", "rerequested"] then
    some
      { installation := p.installation
        repository := p.repository
        headSha := p.subject.headSha
        pullNumber := firstNumber p.subject.pullRequests
        rerequested := p.action == some "rerequested" }
  else none

/-- The commit of a check run: its own, or that of its suite. -/
def headOf (run : CheckRun) : String :=
  let own := run.headSha.getD ""
  if own.isEmpty then (run.checkSuite.map (·.headSha)).getD "" else own

/-- The request of an event about a check run. -/
def runRequest (p : Payload CheckRun) : Except EventError (Option CheckRequest) :=
  if p.calls ["rerequested"] then
    let head := headOf p.subject
    if head.isEmpty then .error .noHead
    else
      .ok <| some
        { installation := p.installation
          repository := p.repository
          headSha := head
          pullNumber := firstNumber ((p.subject.checkSuite.map (·.pullRequests)).getD [])
          checkRun := p.subject
          rerequested := true }
  else .ok none

/-- The members of the object in a body. -/
def bodyMembers (body : ByteArray) : Except EventError Json.Members :=
  match Json.readBytes body with
  | .error e => .error (.ofBody e)
  | .ok (.obj members) => .ok members
  | .ok _ => .error .notObject

/-- Decodes the body of an event. -/
def payloadOf {α : Type} (event : String) (subject : Json.Members → Json.Decoded α)
    (members : Json.Members) : Except EventError (Payload α) :=
  (decodePayload subject members).toExcept.mapError (.invalid event)

/-- The request of an event of a kind that can ask for a check. -/
def requestOf (event : String) (members : Json.Members) : Except EventError (Option CheckRequest) :=
  match event with
  | "pull_request" => (payloadOf event pullSubject members).map pullRequest
  | "check_suite" => (payloadOf event suiteSubject members).map suiteRequest
  | _ => (payloadOf event runSubject members).bind runRequest

/-- The request that a delivery makes, if it asks for a check. -/
def parse (event : String) (body : ByteArray) (delivery : Option String) :
    Except EventError (Option CheckRequest) := do
  if ignoredEvents.contains event then return none
  if !(["pull_request", "check_suite", "check_run"].contains event) then throw (.unsupported event)
  let request ← requestOf event (← bodyMembers body)
  return request.map fun r => { r with event, delivery }

end Webhook

end TypstLint
