import TypstLint.ImportGraph.Resolve
import TypstLint.Manifest.Load
import TypstLint.Manifest.Location
import TypstLint.Report.Basic

set_option autoImplicit false

/-! # Rules

A `Rule` looks at all that is known about a package (`Context`) and finds diagnostics. A rule that fails
is reported itself, and what it found does not count (`Rule.run`); so the rules do not depend on one
another, and `runAll` is a plain concatenation. -/

namespace TypstLint

open Text (Span)

/-- What is known about a package that is checked. -/
structure Context where
  package : Package
  /-- The import graph; empty if there is no manifest. -/
  graph : ImportGraph
  outlines : Outlines
  manifestProblems : List Manifest.LoadProblem
  registry : Option Registry
  /-- Whether the package is about to be published. -/
  publication : Bool
  manifestText : Option (List Char)

namespace Context

/-- The files of the package. -/
def files (ctx : Context) : FileSet := ctx.package.files

/-- The span of a key of the manifest, or of the header of a table. -/
def manifestSpan (ctx : Context) (table : String) (key : Option String) : Option Span :=
  ctx.manifestText.bind (Manifest.keySpan · table key)

end Context

/-- A rule: its name, and what it finds. -/
structure Rule where
  id : String
  evaluate : Context → Except Fault (List Diagnostic)

/-- A rule that never fails. -/
def Rule.total (id : String) (evaluate : Context → List Diagnostic) : Rule :=
  ⟨id, fun ctx => .ok (evaluate ctx)⟩

namespace Rule

/-- The name under which failures of rules are reported. -/
def failureId : String := "internal/rule-failure"

/-- The diagnostic of a rule that failed. -/
def failure (rule : Rule) (fault : Fault) : Diagnostic where
  severity := .error
  ruleId := failureId
  message := s!"Rule `{rule.id}` failed internally: {fault.label}: {fault.message}"

/-- What a rule finds, or the report of its failure. -/
def run (rule : Rule) (ctx : Context) : List Diagnostic :=
  match rule.evaluate ctx with
  | .ok ds => ds
  | .error fault => [rule.failure fault]

/-- What rules find, one rule after the other. -/
def runAll (rules : List Rule) (ctx : Context) : List Diagnostic := rules.flatMap (·.run ctx)

end Rule

end TypstLint
