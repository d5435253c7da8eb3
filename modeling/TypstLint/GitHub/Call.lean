import TypstLint.GitHub.Failure
import TypstLint.GitHub.Model
import TypstLint.GitHub.Output
import TypstLint.GitHub.Token

set_option autoImplicit false

/-! # Calls

What GitHub is asked for while a delivery is handled is a `Call`. What it answers depends on the call
(`Call.Answer`), so that handling a delivery needs neither requests nor bodies. -/

namespace TypstLint.GitHub

/-- A call. -/
inductive Call where
  /-- Exchange a signed claim for a token. -/
  | exchange (claim : String) (installation : Int) (repositories : Option (List String))
  /-- The pull requests of a commit. -/
  | pullsOf (token : String) (repository : Repository) (sha : String)
  /-- The files that a pull request changes. -/
  | filesOf (token : String) (repository : Repository) (number : Int)
  /-- The content of a file. -/
  | contentOf (token : String) (repository : Repository) (path ref : String)
  /-- Create a check run that is in progress. -/
  | createRun (token : String) (repository : Repository) (name sha : String)
  /-- Update a check run, and complete it if there is a conclusion. -/
  | updateRun (token : String) (repository : Repository) (run : Int) (output : Output)
      (conclusion : Option String)
  deriving DecidableEq, Repr

/-- What is answered to a call that does not fail. -/
def Call.Answer : Call → Type
  | exchange .. => InstallationToken
  | pullsOf .. => List PullRequest
  | filesOf .. => List ChangedFile
  | contentOf .. => ByteArray
  | createRun .. | updateRun .. => CheckRun

end TypstLint.GitHub
