import TypstLint.Text.Blank
import TypstLint.Text.Span

set_option autoImplicit false

/-! # Reports

A report is the ordered list of the diagnostics of a package, in which every issue occurs once, with the
most serious of the severities that it was found with (`ofDiagnostics`, `distinctIssues`). Two
diagnostics are the same issue if they agree in all but the severity (`sameIssue`), while the order looks
at the start of a span only (`Diagnostic.order`); sorting is stable, so what it does not tell apart stays
in the order of discovery. -/

/-! ## Diagnostics -/

namespace TypstLint

open Text (Span)

/-- How serious a diagnostic is. Only errors fail a check. -/
inductive Severity where
  | error
  | warning
  | hint
  deriving DecidableEq, Repr

namespace Severity

/-- All severities, the most serious one first. -/
def all : List Severity := [error, warning, hint]

/-- The place of a severity among all. -/
def rank : Severity → Nat
  | error => 0
  | warning => 1
  | hint => 2

/-- The name of a severity. -/
def name : Severity → String
  | error => "error"
  | warning => "warning"
  | hint => "hint"

/-- The severity with a name. -/
def ofName? (name : String) : Option Severity := all.find? (·.name == name)

end Severity

/-- A single issue of a package. Without a file it is about the package as a whole. -/
structure Diagnostic where
  severity : Severity
  ruleId : String
  message : String
  file : Option String := none
  span : Option Span := none
  deriving DecidableEq, Repr

namespace Diagnostic

/-- Whether two diagnostics say the same, with whatever severity. -/
def sameIssue (a b : Diagnostic) : Bool :=
  a.ruleId == b.ruleId && a.file == b.file && a.span == b.span && a.message == b.message

/-- The order of two texts, or what `next` says if they are equal. -/
def thenText (a b : String) (next : Ordering) : Ordering :=
  if a < b then .lt else if b < a then .gt else next

/-- The order of diagnostics in a report: by file, start, severity, rule and message. What has no file
or no span comes first. -/
def order (a b : Diagnostic) : Ordering :=
  let start := fun (d : Diagnostic) => (d.span.map (·.start)).getD (-1)
  thenText (a.file.getD "") (b.file.getD "")
    ((compare (start a) (start b)).then
      ((compare a.severity.rank b.severity.rank).then
        (thenText a.ruleId b.ruleId (thenText a.message b.message .eq))))

/-- Whether a diagnostic may stand before another one. -/
def le (a b : Diagnostic) : Bool := order a b != .gt

end Diagnostic

end TypstLint

/-! ## Reports -/

namespace TypstLint

/-- The diagnostics of a package. -/
structure Report where
  package : String
  diagnostics : List Diagnostic
  deriving DecidableEq, Repr

namespace Report

/-- Adds a diagnostic. If the issue is there already, the more serious of the two stays in its place. -/
def addIssue (d : Diagnostic) : List Diagnostic → List Diagnostic
  | [] => [d]
  | e :: rest =>
    if d.sameIssue e then (if d.severity.rank < e.severity.rank then d else e) :: rest
    else e :: addIssue d rest

/-- Every issue of some diagnostics once, in the order of first occurrence. -/
def distinctIssues (ds : List Diagnostic) : List Diagnostic :=
  ds.foldl (fun found d => addIssue d found) []

/-- The report of some diagnostics. -/
def ofDiagnostics (package : String) (ds : List Diagnostic) : Report :=
  ⟨package, (distinctIssues ds).mergeSort Diagnostic.le⟩

/-- The number of diagnostics of a severity. -/
def count (r : Report) (s : Severity) : Nat := r.diagnostics.countP (·.severity == s)

/-- Whether a report has no errors. -/
def passed (r : Report) : Bool := r.diagnostics.all (·.severity != .error)

/-- The verdict of a report. -/
def verdict (r : Report) : String := if r.passed then "pass" else "fail"

/-- The numbers of diagnostics of each severity, in words. -/
def summary (r : Report) : String :=
  ", ".intercalate (Severity.all.map fun s => Text.counted (r.count s) s.name)

/-- Adds a diagnostic to the group of its file. -/
def addToGroup (d : Diagnostic) :
    List (Option String × List Diagnostic) → List (Option String × List Diagnostic)
  | [] => [(d.file, [d])]
  | (file, ds) :: rest =>
    if file == d.file then (file, ds ++ [d]) :: rest else (file, ds) :: addToGroup d rest

/-- The diagnostics of each file, in the order of first occurrence. -/
def byFile (r : Report) : List (Option String × List Diagnostic) :=
  r.diagnostics.foldl (fun groups d => addToGroup d groups) []

end Report

end TypstLint
