import TypstLint.Fault
import TypstLint.Json.Decode

set_option autoImplicit false

/-! # Failures

What can go wrong when GitHub is asked for something. A `ClientError` is expected: the network, an answer
that refuses, or credentials. Every other `Failure` is a surprise, such as a body that is not what it
should be. -/

namespace TypstLint.GitHub

/-- An expected failure of a request. -/
inductive ClientError where
  | network (message : String)
  /-- There was no answer that could be used. -/
  | transport (message : String)
  /-- An error of which no more is known. -/
  | general (message : String)
  | api (message : String) (status : Option Int) (body : Option String)
  /-- Too many requests were made; the answer may say for how many seconds to wait. -/
  | rateLimit (message : String) (retryAfter : Option Nat) (status : Option Int)
  | authentication (message : String)
  deriving DecidableEq, Repr

namespace ClientError

/-- The kind of an error. -/
def kind : ClientError → String
  | network _ => "NetworkError"
  | transport _ => "ApiTransportError"
  | general _ => "ClientError"
  | api .. => "APIError"
  | rateLimit .. => "RateLimitError"
  | authentication _ => "AuthenticationError"

/-- The wording of an error. -/
def message : ClientError → String
  | network message | transport message | general message | authentication message
  | api message _ _ | rateLimit message _ _ => message

/-- The status of the answer that is the error. -/
def status : ClientError → Option Int
  | api _ status _ | rateLimit _ _ status => status
  | network _ | transport _ | general _ | authentication _ => none

/-- What is known of an error besides its wording. -/
def details : ClientError → List (String × Json.Value)
  | api _ status body => [("status_code", .ofInt? status), ("response_body", .ofText? body)]
  | rateLimit _ retryAfter status =>
    let delay := retryAfter.map fun seconds => (Text.Binary64.ofInt seconds).toText
    [("status_code", .ofInt? status), ("response_body", .null), ("retry_after", .ofText? delay)]
  | network _ | transport _ | general _ | authentication _ => []

/-- Whether an error tells that a token is not, or no longer, good. -/
def isUnauthorized : ClientError → Bool
  | authentication _ => true
  | e => e.status == some 401

end ClientError

/-- Why something could not be had. -/
inductive Failure where
  | client (error : ClientError)
  /-- The body of an answer holds no JSON. -/
  | body (error : Json.BodyError)
  /-- The body of an answer is not what was asked for. -/
  | invalid (mistakes : Nat)
  /-- The body of an answer is no object or no list. -/
  | unfit
  /-- A computation has no answer. -/
  | fault (fault : Fault)
  /-- Any other error. -/
  | other (kind message : String)
  deriving Repr

namespace Failure

/-- The kind of a failure. -/
def kind : Failure → String
  | client e => e.kind
  | body (.encoding _) => "UnicodeDecodeError"
  | body (.content _ (.malformed ..)) => "JSONDecodeError"
  | body (.content _ (.numeralTooLong _)) => "ValueError"
  | body (.content _ .tooDeep) => "RecursionError"
  | invalid _ => "ValidationError"
  | unfit => "TypeError"
  | fault f => f.label
  | other kind _ => kind

/-- The wording of a failure. -/
def message : Failure → String
  | client e => e.message
  | body (.encoding e) => e.message
  | body (.content text (.malformed cause offset)) => Json.malformedMessage text cause offset
  | body (.content _ (.numeralTooLong digits)) => Text.tooLongMessage digits
  | body (.content _ .tooDeep) => "maximum recursion depth exceeded"
  | invalid mistakes => Text.counted mistakes "validation error"
  | unfit => "unexpected body"
  | fault f => f.message
  | other _ message => message

/-- The kinds of other errors that are told by their wording as well. -/
def wordedKinds : List String :=
  ["ConfigurationError", "InvalidConfigError", "InvalidPackageSpec", "MalformedPayloadError",
   "ManifestError", "PackageCheckError", "PackageError", "UnsupportedEventError", "ValueError",
   "WebhookError", "WebhookVerificationError"]

/-- What is told of a failure besides its kind. -/
def details : Failure → List (String × Json.Value)
  | client e => ("message", .str e.message) :: e.details
  | body (.content text (.malformed cause offset)) =>
    [("message", .str (Json.malformedMessage text cause offset))]
  | invalid mistakes => [("count", .ofNat mistakes)]
  | f => if wordedKinds.contains f.kind then [("message", .str f.message)] else []

/-- A failure as a value. -/
def toValue (f : Failure) : Json.Value := .obj (("error", .str f.kind) :: f.details)

end Failure

end TypstLint.GitHub
