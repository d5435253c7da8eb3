import TypstLint.Text.Path

set_option autoImplicit false

/-! # Package manifests

A `Manifest` describes a package and, if the package is a template, where the template lies. What is
wrong with a manifest is a list of `Problem`s, each about a table or one of its keys. A text that is no
TOML is a `ReadError` of its own. -/

namespace TypstLint

/-- The description of a package. Absent texts are `none`, absent lists are empty. -/
structure PackageInfo where
  name : String
  version : String
  entrypoint : String
  authors : List String
  license : Option String
  description : Option String
  homepage : Option String
  repository : Option String
  keywords : List String
  categories : List String
  disciplines : List String
  compiler : Option String
  exclude : List String
  deriving DecidableEq, Repr

/-- The description of a template. -/
structure TemplateInfo where
  path : String
  entrypoint : String
  thumbnail : Option String
  deriving DecidableEq, Repr

/-- The path of the template's entrypoint within the package. -/
def TemplateInfo.entrypointPath (t : TemplateInfo) : String :=
  Text.Path.normalize (Text.Path.join t.path t.entrypoint)

/-- The contents of a manifest. -/
structure Manifest where
  package : PackageInfo
  template : Option TemplateInfo
  deriving DecidableEq, Repr

namespace Manifest

/-! ## Problems -/

/-- What is wrong with a manifest. -/
inductive Cause where
  /-- A required table or key is missing. -/
  | missing
  /-- A value, or the item of a list with this number, is no text. -/
  | notText (item : Option Nat)
  | notList
  | notTable
  | badName (value : String)
  | badVersion (value : String)
  /-- A path is empty or absolute. -/
  | notRelative (what : String)
  /-- A path leads out of the package. -/
  | outside (what : String)
  /-- A file or directory that the manifest names is missing. -/
  | absent (what path : String)
  deriving DecidableEq, Repr

/-- A problem of a table, or of a key of it. -/
structure Problem where
  table : String
  key : Option String
  cause : Cause
  deriving DecidableEq, Repr

namespace Problem

/-- The table and the key of a problem, joined by a point. -/
def dotted (p : Problem) : String :=
  match p.key with
  | none => p.table
  | some key => s!"{p.table}.{key}"

/-- The wording of a problem. -/
def message (p : Problem) : String :=
  match p.cause with
  | .missing =>
    if p.key.isSome then s!"`{p.dotted}` is required" else s!"The `[{p.table}]` table is required"
  | .notText none => s!"`{p.dotted}`: Input should be a valid string"
  | .notText (some item) => s!"`{p.dotted}.{item}`: Input should be a valid string"
  | .notList => s!"`{p.dotted}`: Input should be a valid list"
  | .notTable =>
    s!"`{p.dotted}`: Input should be a valid dictionary or instance of TemplateInfo"
  | .badName value =>
    s!"`{value}` is not a valid package name (use lowercase letters, digits and single hyphens)"
  | .badVersion value => s!"`{value}` is not a valid version (expected MAJOR.MINOR.PATCH)"
  | .notRelative what => s!"{what} must be a relative path inside the package"
  | .outside what => s!"{what} must not point outside of the package"
  | .absent what path => s!"{what} `{path}` does not exist"

end Problem

/-- Why a text is no manifest. -/
inductive ReadError where
  /-- The text is no TOML. -/
  | malformed
  | invalid (problems : List Problem)
  deriving DecidableEq, Repr

/-- The wording of an error. -/
def ReadError.message : ReadError → String
  | malformed => "Malformed manifest: *"
  | invalid problems => "; ".intercalate (problems.map Problem.message)

end Manifest

end TypstLint
