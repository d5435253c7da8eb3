import TypstLint.Json.Writer
import TypstLint.Package.FileSet
import TypstLint.Report.Basic
import TypstLint.Text.Case
import TypstLint.Text.LineIndex

set_option autoImplicit false

/-! # The text forms of a report

A report is shown to people file by file (`render`), and given to programs as JSON (`toJson`). Places are
offsets in a report; people are shown the line and the column where the lines of the file are known
(`placeText`). -/

namespace TypstLint

/-- The starts of the lines of a file; a file that is no text has one line. -/
def SourceFile.lineStarts (f : SourceFile) : List Nat := Text.lineStarts (f.text?.getD [])

/-- The line and the column of an offset in a file. -/
def SourceFile.lineCol (f : SourceFile) (offset : Int) : Int × Int :=
  Text.placeOf f.lineStarts offset

namespace Report

/-- Where a diagnostic is: line and column if the lines of its file are known, else the offset. -/
def placeText (starts? : Option (List Nat)) (d : Diagnostic) : String :=
  match d.span, starts? with
  | none, _ => ""
  | some span, some starts =>
    let (line, column) := Text.placeOf starts span.start
    s!" {line}:{column}"
  | some span, none => s!" @{span.start}"

/-- The line of a diagnostic. -/
def diagnosticText (starts? : Option (List Nat)) (d : Diagnostic) : String :=
  s!"  {d.severity.name}[{d.ruleId}]{placeText starts? d}: {d.message}"

/-- The lines of a file's diagnostics: the path, or the name of the package, the diagnostics and an
empty line. -/
def groupLines (r : Report) (files : Option FileSet) (group : Option String × List Diagnostic) :
    List String :=
  let path := (group.1.getD "")
  let source? := if path.isEmpty then none else files.bind (·.get? path)
  (if path.isEmpty then r.package else path)
    :: group.2.map (diagnosticText (source?.map SourceFile.lineStarts)) ++ [""]

/-- The text of a report. Places are shown by line and column in the files that are given. -/
def render (r : Report) (files : Option FileSet) : String :=
  "\n".intercalate (r.byFile.flatMap (r.groupLines files)
    ++ [s!"{String.ofList (Text.toUpper r.verdict.toList)}: {r.summary}"])

/-- A span as a value. -/
def spanValue (s : Text.Span) : Json.Value := .obj [("start", .int s.start), ("end", .int s.stop)]

/-- A diagnostic as a value. -/
def diagnosticValue (d : Diagnostic) : Json.Value :=
  .obj [("severity", .str d.severity.name), ("rule_id", .str d.ruleId), ("message", .str d.message),
    ("file", .ofText? d.file), ("span", (d.span.map spanValue).getD .null)]

/-- The counts of a report as a value. -/
def countsValue (r : Report) : Json.Value :=
  .obj (Severity.all.map fun s => (s.name, .int (r.count s)))

/-- A report as a value. -/
def toValue (r : Report) : Json.Value :=
  .obj [("package", .str r.package), ("verdict", .str r.verdict), ("counts", r.countsValue),
    ("diagnostics", .arr (r.diagnostics.map diagnosticValue))]

/-- The JSON text of a report. -/
def toJson (r : Report) : String := Json.write .indented r.toValue

end Report

end TypstLint
