import TypstLint.GitHub.Call
import TypstLint.GitHub.Wire
import TypstLint.Text.Quoted

set_option autoImplicit false

/-! # The client

Calls become requests (`perform`). A `Query` says what is asked for, `request` makes the request out of
it, and `verdict` tells what its outcome comes to. Requests that only read are made again after a pause
if the connection failed or the server did (`get`, `isTransient`); those that create or change something
are made once (`send`), so that nothing happens twice.

An `Exchange` goes over the `Wire` and may fail. Only failures of the network and refusals by the server
are errors of the client; a body that cannot be decoded is a failure of another kind (`bodyOf`,
`decodeObject`). -/

namespace TypstLint.GitHub

/-- Something that is got over the wire. -/
abbrev Exchange (α : Type) := ExceptT Failure (StateM Wire) α

namespace Exchange

/-- An outcome that is known already. -/
def ofExcept {α : Type} (x : Except Failure α) : Exchange α := ExceptT.mk (pure x)

/-- Changes the wire. -/
def wire {α : Type} (f : Wire → α × Wire) : Exchange α :=
  ExceptT.mk fun w => let (a, w) := f w; (.ok a, w)

/-- The outcome of an exchange, whether it failed or not. -/
def outcome {α : Type} (x : Exchange α) : Exchange (Except Failure α) :=
  ExceptT.mk do
    let outcome ← x.run
    return .ok outcome

end Exchange

/-- A client: the address under which GitHub is reached. -/
structure Client where
  base : String

namespace Client

/-- The address of GitHub. -/
def defaultBase : String := "https://api.github.com"

/-- The client for an address; none is the one of GitHub. -/
def ofBase (base : Option String) : Client :=
  let base := base.getD ""
  let base := if base.isEmpty then defaultBase else base
  ⟨String.ofList (Text.dropEndWhile (· == '/') base.toList)⟩

/-! ## Requests -/

/-- What is asked: the path behind the address, and what goes along. -/
structure Query where
  method : String
  path : String
  token : String
  params : List (String × String) := []
  body : Option Json.Value := none
  accept : String := "application/vnd.github+json"

/-- The request of a query. There is none if its address is not a good one, or if its token is not
ASCII. -/
def request (c : Client) (q : Query) : Except Failure Request :=
  let url := c.base ++ "/" ++ String.ofList (q.path.toList.dropWhile (· == '/'))
  let query := queryOf q.params
  if !isAddress url.toList then .error (.other "InvalidURL" "The address of a request is not valid")
  else if q.token.toList.any (128 ≤ ·.toNat) then
    .error (.other "UnicodeEncodeError" "The token of a request is not ASCII")
  else if !isAddress (query.getD []) then
    .error (.other "InvalidURL" "The query of a request is too long")
  else .ok
    { method := q.method
      url := sentUrl url query
      headers :=
        [("accept", q.accept), ("authorization", s!"Bearer {q.token}"),
         ("x-github-api-version", "2022-11-28"), ("user-agent", "typst-package-check")]
      body := q.body }

/-- The failure that a response without success stands for. -/
def refusal (q : Query) (r : Response) : Failure :=
  if r.isRateLimit then
    match r.retryAfter with
    | .ok delay =>
      .client (.rateLimit s!"GitHub rate limit exceeded on {q.method} {q.path}" delay r.status)
    | .error value =>
      .other "ValueError" ("could not convert string to float: " ++ Text.quoted value)
  else
    .client (.api s!"{q.method} {q.path} returned HTTP {r.status}" r.status
      (String.ofList (r.text.take 1000)))

/-- What a request comes to: a response that tells of success, or a failure. -/
def verdict (q : Query) : Outcome → Except Failure Response
  | .broken message => .error (.client (.network s!"{q.method} {q.path} failed: {message}"))
  | .garbled message => .error (.other "DecodingError" message)
  | .response r => if r.isSuccess then .ok r else .error (refusal q r)

/-- Makes a request once. -/
def send (c : Client) (q : Query) : Exchange Response := do
  let request ← Exchange.ofExcept (c.request q)
  Exchange.ofExcept (verdict q (← Exchange.wire (Wire.send request)))

/-- Whether a failure may go away: the connection failed, or the server did. -/
def isTransient : Failure → Bool
  | .client (.network _) => true
  | .client (.api _ (some status) _) => 500 ≤ status
  | _ => false

/-- Makes a request, and makes it again up to `more` times if the failure may go away. The pause before
is twice as long each time. -/
def sendAgain (c : Client) (q : Query) (delay : Nat) : Nat → Exchange Response
  | 0 => c.send q
  | more + 1 => do
    match ← Exchange.outcome (c.send q) with
    | .ok r => return r
    | .error e =>
      if isTransient e then
        Exchange.wire fun w => ((), w.pause delay)
        sendAgain c q (2 * delay) more
      else throw e

/-- Makes a request that only reads. -/
def get (c : Client) (q : Query) : Exchange Response := c.sendAgain q 500 2

/-! ## Bodies -/

/-- The value in the body of a response. -/
def bodyOf (r : Response) : Exchange Json.Value :=
  Exchange.ofExcept ((Json.readBytes r.body).mapError .body)

/-- Decodes an object. -/
def decodeObject {α : Type} (f : Json.Decoder α) : Json.Value → Except Failure α
  | .obj members => (f (.obj members)).toExcept.mapError .invalid
  | _ => .error .unfit

/-- Decodes a list of objects. A text or an object that is empty counts as an empty list. -/
def decodeList {α : Type} (f : Json.Decoder α) : Json.Value → Except Failure (List α)
  | .arr items => items.mapM (decodeObject f)
  | .obj [] => .ok []
  | .str s => if s.isEmpty then .ok [] else .error .unfit
  | _ => .error .unfit

/-- The object in the body of a response. -/
def objectIn {α : Type} (f : Json.Decoder α) (r : Response) : Exchange α := do
  Exchange.ofExcept (decodeObject f (← bodyOf r))

/-- The list of objects in the body of a response. -/
def listIn {α : Type} (f : Json.Decoder α) (r : Response) : Exchange (List α) := do
  Exchange.ofExcept (decodeList f (← bodyOf r))

/-! ## Tokens -/

/-- What tokens are asked for. -/
def permissions : Json.Value :=
  .obj [("metadata", .str "read"), ("issues", .str "write"), ("pull_requests", .str "write"),
    ("checks", .str "write")]

/-- The body of a request for a token. -/
def tokenBody (repositories : Option (List String)) : Json.Value :=
  let names := repositories.getD []
  .obj (("permissions", permissions)
    :: if names.isEmpty then [] else [("repositories", .arr (names.map .str))])

/-- The failure to exchange a claim for a token; a refusal is about the credentials. -/
def tokenFailure (installation : Int) : Failure → Failure
  | .client (.api message (some status) body) =>
    if [401, 403, 404].contains status then
      .client (.authentication
        (s!"Installation {installation} refused the token exchange " ++ s!"(HTTP {status})"))
    else .client (.api message (some status) body)
  | e => e

/-- The query that exchanges a claim for a token. -/
def tokenQuery (claim : String) (installation : Int) (repositories : Option (List String)) : Query where
  method := "POST"
  path := s!"app/installations/{installation}/access_tokens"
  token := claim
  body := tokenBody repositories

/-- Exchanges a claim for a token. -/
def createInstallationToken (c : Client) (claim : String) (installation : Int)
    (repositories : Option (List String)) : Exchange InstallationToken := do
  match ← Exchange.outcome (c.send (tokenQuery claim installation repositories)) with
  | .ok r => objectIn InstallationToken.decoder r
  | .error e => throw (tokenFailure installation e)

/-! ## Pull requests -/

/-- A query that reads about a repository. -/
def reading (token : String) (repository : Repository) (path : String) : Query :=
  { method := "GET", path := s!"repos/{repository.fullName}/{path}", token }

/-- The query for a pull request. -/
def pullQuery (token : String) (repository : Repository) (number : Int) : Query :=
  reading token repository s!"pulls/{number}"

/-- A pull request. -/
def getPullRequest (c : Client) (token : String) (repository : Repository) (number : Int) :
    Exchange PullRequest := do
  objectIn PullRequest.decoder (← c.get (pullQuery token repository number))

/-- The query for the pull requests of a commit. -/
def pullsQuery (token : String) (repository : Repository) (sha : String) : Query :=
  reading token repository s!"commits/{sha}/pulls"

/-- The pull requests of a commit. -/
def listPullRequests (c : Client) (token : String) (repository : Repository) (sha : String) :
    Exchange (List PullRequest) := do
  listIn PullRequest.decoder (← c.get (pullsQuery token repository sha))

/-- How many files there are on a page at most. -/
def perPage : Nat := 100

/-- The query for a page of files. -/
def pageQuery (token : String) (repository : Repository) (number : Int) (page : Nat) : Query :=
  { reading token repository s!"pulls/{number}/files" with
    params := [("per_page", toString perPage), ("page", toString page)] }

/-- The files on a page. -/
def getPage (c : Client) (token : String) (repository : Repository) (number : Int) (page : Nat) :
    Exchange (List ChangedFile) := do
  listIn ChangedFile.decoder (← c.get (pageQuery token repository number page))

/-- The files on a page and on those behind it, at most `fuel` pages. -/
def getPages (c : Client) (token : String) (repository : Repository) (number : Int) (page : Nat) :
    Nat → Exchange (List ChangedFile)
  | 0 => return []
  | fuel + 1 => do
    let files ← c.getPage token repository number page
    if files.length < perPage then return files
    else return files ++ (← c.getPages token repository number (page + 1) fuel)

/-- The files that a pull request changes. Each page takes a response, so that there are no more pages
than responses to come. -/
def listFiles (c : Client) (token : String) (repository : Repository) (number : Int) :
    Exchange (List ChangedFile) := do
  let fuel ← Exchange.wire fun w => (w.pending.length + 1, w)
  c.getPages token repository number 1 fuel

/-- The query for the content of a file. -/
def contentQuery (token : String) (repository : Repository) (path ref : String) : Query :=
  { reading token repository ("contents/" ++ Text.Percent.encodePath path) with
    params := [("ref", ref)]
    accept := "application/vnd.github.raw+json" }

/-- The content of a file. -/
def getContent (c : Client) (token : String) (repository : Repository) (path ref : String) :
    Exchange ByteArray := do
  let r ← c.get (contentQuery token repository path ref)
  return r.body

/-! ## Check runs -/

/-- The query that creates a check run in progress. -/
def createQuery (token : String) (repository : Repository) (name sha : String) : Query where
  method := "POST"
  path := s!"repos/{repository.fullName}/check-runs"
  token
  body := some (.obj [("name", .str name), ("head_sha", .str sha), ("status", .str "in_progress")])

/-- Creates a check run that is in progress. -/
def createCheckRun (c : Client) (token : String) (repository : Repository) (name sha : String) :
    Exchange CheckRun := do
  objectIn CheckRun.decoder (← c.send (createQuery token repository name sha))

/-- What tells whether a check run is complete. -/
def completion : Option String → List (String × Json.Value)
  | none => [("status", .str "in_progress")]
  | some conclusion => [("status", .str "completed"), ("conclusion", .str conclusion)]

/-- The query that updates a check run. -/
def updateQuery (token : String) (repository : Repository) (run : Int) (output : Output)
    (conclusion : Option String) : Query where
  method := "PATCH"
  path := s!"repos/{repository.fullName}/check-runs/{run}"
  token
  body := some (.obj (("output", output.toValue) :: completion conclusion))

/-- Updates a check run, and completes it if there is a conclusion. -/
def updateCheckRun (c : Client) (token : String) (repository : Repository) (run : Int)
    (output : Output) (conclusion : Option String) : Exchange CheckRun := do
  objectIn CheckRun.decoder (← c.send (updateQuery token repository run output conclusion))

/-! ## Calls -/

/-- Makes a call. -/
def perform (c : Client) : (call : Call) → Exchange call.Answer
  | .exchange claim installation repositories =>
    c.createInstallationToken claim installation repositories
  | .pullsOf token repository sha => c.listPullRequests token repository sha
  | .filesOf token repository number => c.listFiles token repository number
  | .contentOf token repository path ref => c.getContent token repository path ref
  | .createRun token repository name sha => c.createCheckRun token repository name sha
  | .updateRun token repository run output conclusion =>
    c.updateCheckRun token repository run output conclusion

end Client

end TypstLint.GitHub
