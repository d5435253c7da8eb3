import TypstLint.Text.Percent
import TypstLint.Webhook.Event
import TypstLint.Webhook.Signature

set_option autoImplicit false

/-! # The endpoint

The service answers requests at two paths (`routes`): at `/` it tells that it is running, at `/github-hook`
it receives deliveries. `receive` checks the signature of a delivery (`verify`) before anything else, and
only then reads the event (`parse`): a delivery with a bad signature is refused with 401 whatever it says,
and one that is signed but malformed with 400. A `Reply` carries the check that is to be made behind it.

`respond` is the outcome for a client, not for the bytes on its connection. Such a client writes methods in
capital letters, and goes on to the path without the slash when it is redirected from one with a slash at
the end; so neither letter case nor such slashes matter here, where the connection itself would show a
405 or a 307 in between. Failures for which no reply is written are kept apart (`EndpointError`): the
signature that cannot be compared, and the numbers and nestings that are too large to be read. -/

namespace TypstLint.Webhook

/-- A request to the service. -/
structure Request where
  method : String
  path : String
  headers : List (String × String)
  body : ByteArray

/-- The body of a reply. -/
inductive ReplyBody where
  | text (s : String)
  | json (v : Json.Value)
  deriving Repr

/-- A reply, and the check that is then to be made, if any. -/
structure Reply where
  status : Nat
  body : ReplyBody
  accepted : Option CheckRequest := none
  deriving Repr

/-- A failure for which there is no reply. -/
inductive EndpointError where
  | signature (error : SignatureError)
  | event (error : EventError)
  deriving Repr

namespace Reply

/-- A reply that refuses a request. -/
def refusal (status : Nat) (detail : String) : Reply :=
  ⟨status, .json (.obj [("detail", .str detail)]), none⟩

/-- The reply to a delivery that asks for nothing. -/
def ignored : Reply := ⟨200, .json (.obj [("status", .str "ignored")]), none⟩

/-- The reply to a delivery that asks for a check. -/
def accept (request : CheckRequest) : Reply :=
  { status := 202
    body := .json <| .obj
      [("status", .str "accepted"), ("repository", .str request.repository.fullName),
       ("sha", .str request.headSha)]
    accepted := request }

end Reply

/-- The value of a header, whose name may be written in any letter case; of several the first one
counts. -/
def firstHeader? (headers : List (String × String)) (name : String) : Option String :=
  header? headers.reverse name

/-- The reply to a delivery whose signature is good. -/
def receiveSigned (r : Request) : Except EndpointError Reply :=
  let event := (firstHeader? r.headers "x-github-event").getD ""
  match parse event r.body (firstHeader? r.headers "x-github-delivery") with
  | .ok (some request) => .ok (.accept request)
  | .ok none => .ok .ignored
  | .error (.numeralTooLong digits) => .error (.event (.numeralTooLong digits))
  | .error .tooDeep => .error (.event .tooDeep)
  | .error e => .ok (.refusal 400 e.message)

/-- The reply to a delivery. -/
def receive (secret : ByteArray) (r : Request) : Except EndpointError Reply :=
  match verify secret r.body r.headers with
  | .ok () => receiveSigned r
  | .error .notAscii => .error (.signature .notAscii)
  | .error e => .ok (.refusal 401 e.message)

/-- The paths of the service, with the method that each of them takes. -/
def routes : List (String × String) := [("/", "GET"), ("/github-hook", "POST")]

/-- The path that a request is led to. A query does not matter, and there is always a slash at the start.
Slashes at the end are dropped, unless there is nothing else: a request with such slashes is redirected
(status 307) to the path without them, and the client follows. -/
def routedPath (path : String) : String :=
  let path := Text.Percent.decode (Text.cut '?' (Text.cut '#' path.toList).1).1
  let path := if path.head? == some '/' then path else '/' :: path
  if path == ['/'] then "/" else String.ofList (Text.dropEndWhile (· == '/') path)

/-- The reply to a request that is routed by a method in capital letters. -/
def route (secret : ByteArray) (method : String) (r : Request) : Except EndpointError Reply :=
  let path := routedPath r.path
  match routes.lookup path with
  | none => .ok (.refusal 404 "Not Found")
  | some allowed =>
    if method != allowed then .ok (.refusal 405 "Method Not Allowed")
    else if path == "/" then .ok ⟨200, .text "typst-package-check is running", none⟩
    else receive secret r

/-- The reply that a client gets in the end. It sends methods in capital letters, in whatever letters they
are given to it; sent as they are, methods in small letters would be refused (status 405). Whoever asks for
the head of a reply gets no body. -/
def respond (secret : ByteArray) (r : Request) : Except EndpointError Reply :=
  let method := r.method.map Char.toUpper
  (route secret method r).map fun reply =>
    if method == "HEAD" then { reply with body := .text "" } else reply

end TypstLint.Webhook
