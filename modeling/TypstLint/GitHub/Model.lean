import TypstLint.Json.Decode

set_option autoImplicit false

/-! # GitHub's objects

The parts of the objects in requests and responses that matter here, with the way in which they are
decoded. A decoder passes over members that it does not name. -/

namespace TypstLint.GitHub

open Json (Decoder Members)

/-! ## Repositories -/

/-- A repository, known by the names of its owner and its own name with a slash between them. -/
structure Repository where
  fullName : String
  deriving DecidableEq, Repr

namespace Repository

/-- The name of the owner. -/
def owner (r : Repository) : String := String.ofList (Text.cut '/' r.fullName.toList).1

/-- The repository's own name. -/
def name (r : Repository) : String :=
  match (Text.cut '/' r.fullName.toList).2 with
  | some rest => String.ofList rest
  | none => r.fullName

/-- Decodes a repository. -/
def decoder : Decoder Repository :=
  Json.object fun ms => Repository.mk <$> ms.required "full_name" Json.text

end Repository

/-! ## Pull requests -/

/-- A commit at the end of a branch. -/
structure CommitRef where
  sha : String
  ref : Option String
  deriving DecidableEq, Repr

/-- Decodes the end of a branch. -/
def CommitRef.decoder : Decoder CommitRef :=
  Json.object fun ms => CommitRef.mk <$> ms.required "sha" Json.text <*> ms.optional? "ref" Json.text

/-- A pull request. -/
structure PullRequest where
  number : Int
  head : CommitRef
  title : String := ""
  state : String := "open"
  deriving DecidableEq, Repr

/-- Decodes a pull request. -/
def PullRequest.decoder : Decoder PullRequest :=
  Json.object fun ms =>
    PullRequest.mk <$> ms.required "number" Json.int <*> ms.required "head" CommitRef.decoder
      <*> ms.optional "title" Json.text "" <*> ms.optional "state" Json.text "open"

/-- A pull request as a value. -/
def PullRequest.toValue (p : PullRequest) : Json.Value :=
  .obj [("number", .int p.number),
    ("head", .obj [("sha", .str p.head.sha), ("ref", .ofText? p.head.ref)]),
    ("title", .str p.title), ("state", .str p.state)]

/-- A file that a pull request changes. -/
structure ChangedFile where
  filename : String
  status : String
  /-- The name that the file had before, if it was renamed. -/
  previousFilename : Option String
  deriving DecidableEq, Repr

/-- Whether the file is removed. -/
def ChangedFile.isRemoved (f : ChangedFile) : Bool := f.status == "removed"

/-- Decodes a changed file. -/
def ChangedFile.decoder : Decoder ChangedFile :=
  Json.object fun ms =>
    ChangedFile.mk <$> ms.required "filename" Json.text <*> ms.required "status" Json.text
      <*> ms.optional? "previous_filename" Json.text

/-- A changed file as a value. -/
def ChangedFile.toValue (f : ChangedFile) : Json.Value :=
  .obj [("filename", .str f.filename), ("status", .str f.status),
    ("previous_filename", .ofText? f.previousFilename)]

/-! ## Checks -/

/-- The checks of a commit. -/
structure CheckSuite where
  id : Option Int
  headSha : String
  pullRequests : List PullRequest
  deriving DecidableEq, Repr

/-- Decodes a check suite. -/
def CheckSuite.decoder : Decoder CheckSuite :=
  Json.object fun ms =>
    CheckSuite.mk <$> ms.optional? "id" Json.int <*> ms.required "head_sha" Json.text
      <*> ms.optional "pull_requests" (Json.array PullRequest.decoder) []

/-- A check suite as a value. -/
def CheckSuite.toValue (s : CheckSuite) : Json.Value :=
  .obj [("id", .ofInt? s.id), ("head_sha", .str s.headSha),
    ("pull_requests", .arr (s.pullRequests.map PullRequest.toValue))]

/-- One check of a commit. -/
structure CheckRun where
  id : Int
  name : String
  headSha : Option String := none
  status : Option String := none
  conclusion : Option String := none
  checkSuite : Option CheckSuite := none
  deriving DecidableEq, Repr

/-- Decodes a check run. -/
def CheckRun.decoder : Decoder CheckRun :=
  Json.object fun ms =>
    CheckRun.mk <$> ms.required "id" Json.int <*> ms.required "name" Json.text
      <*> ms.optional? "head_sha" Json.text <*> ms.optional? "status" Json.text
      <*> ms.optional? "conclusion" Json.text <*> ms.optional? "check_suite" CheckSuite.decoder

/-- A check run as a value. -/
def CheckRun.toValue (r : CheckRun) : Json.Value :=
  .obj [("id", .int r.id), ("name", .str r.name), ("head_sha", .ofText? r.headSha),
    ("status", .ofText? r.status), ("conclusion", .ofText? r.conclusion),
    ("check_suite", (r.checkSuite.map CheckSuite.toValue).getD .null)]

end TypstLint.GitHub
