import TypstLint.Json.Decode
import TypstLint.Package.Spec
import TypstLint.Report.Render

set_option autoImplicit false

/-! # Check run outputs

A report becomes the outputs of a check run (`outputs`). Every diagnostic with a file becomes an
`Annotation` (`annotate`), and the annotations are split into `batches`, because a request takes a
limited number of them. If there are too many, the least serious ones are left out (`keepMostSerious`),
and the summary tells how many. What has no file to be shown at is told in the summary as well
(`unlocatedLines`). -/

namespace TypstLint.GitHub

/-- The number of annotations of a request at most. -/
def annotationsPerRequest : Nat := 50

/-- The number of annotations of a check run at most. -/
def maxAnnotations : Int := 1000

/-- A remark on lines of a file. Columns are meant for a single line. -/
structure Annotation where
  path : String
  startLine : Int
  endLine : Int
  startColumn : Option Int
  endColumn : Option Int
  level : String
  message : String
  title : Option String
  deriving DecidableEq, Repr

/-- What is shown of a check run. -/
structure Output where
  title : String
  summary : String
  annotations : List Annotation
  deriving DecidableEq, Repr

/-! ## Requests -/

/-- The members of an object that have a value. -/
def presentMembers (members : List (String × Json.Value)) : List (String × Json.Value) :=
  members.filter fun (_, v) =>
    match v with
    | .null => false
    | _ => true

/-- An annotation as it is sent. -/
def Annotation.toValue (a : Annotation) : Json.Value :=
  .obj (presentMembers
    [("path", .str a.path), ("start_line", .int a.startLine), ("end_line", .int a.endLine),
     ("start_column", .ofInt? a.startColumn), ("end_column", .ofInt? a.endColumn),
     ("annotation_level", .str a.level), ("message", .str a.message), ("title", .ofText? a.title)])

/-- An output as it is sent. -/
def Output.toValue (o : Output) : Json.Value :=
  .obj [("title", .str o.title), ("summary", .str o.summary),
    ("annotations", .arr (o.annotations.map Annotation.toValue))]

/-- Decodes an annotation. -/
def Annotation.decoder : Json.Decoder Annotation :=
  Json.object fun ms =>
    Annotation.mk <$> ms.required "path" Json.text <*> ms.required "start_line" Json.int
      <*> ms.required "end_line" Json.int <*> ms.optional? "start_column" Json.int
      <*> ms.optional? "end_column" Json.int <*> ms.required "annotation_level" Json.text
      <*> ms.required "message" Json.text <*> ms.optional? "title" Json.text

/-- Decodes an output. -/
def Output.decoder : Json.Decoder Output :=
  Json.object fun ms =>
    Output.mk <$> ms.required "title" Json.text <*> ms.required "summary" Json.text
      <*> ms.optional "annotations" (Json.array Annotation.decoder) []

/-! ## From reports -/

/-- The level of annotations about diagnostics of a severity. -/
def annotationLevel : Severity → String
  | .error => "failure"
  | .warning => "warning"
  | .hint => "notice"

/-- The conclusion of a check run with a report. -/
def conclusion (r : Report) : String :=
  if 0 < r.count .error then "failure" else if 0 < r.count .warning then "neutral" else "success"

/-- The title of a check run with a report. -/
def title (r : Report) : String :=
  match [Severity.error, .warning].filter (0 < r.count ·) with
  | [] => "All good!"
  | found => ", ".intercalate (found.map fun s => Text.counted (r.count s) s.name)

/-- The lines about diagnostics without a file. -/
def unlocatedLines (r : Report) : List String :=
  match r.diagnostics.filter (·.file.isNone) with
  | [] => []
  | ds =>
    ["", "Problems that are not tied to a file:", ""]
      ++ ds.map fun d => s!"- **{d.severity.name}** `{d.ruleId}`: {d.message}"

/-- The lines about annotations that were left out. -/
def omittedLines (omitted : Nat) : List String :=
  if omitted == 0 then []
  else
    ["", "This report is truncated: " ++ Text.counted omitted "annotation"
      ++ " could not be attached (hints are dropped first)."]

/-- The summary of a check run with a report. -/
def summary (r : Report) (omitted : Nat) : String :=
  "\n".intercalate
    (["Our bots have automatically run some checks on your packages. They found "
        ++ Text.counted (r.count .error) "error" ++ " and " ++ Text.counted (r.count .warning) "warning"
        ++ ".",
      "",
      "Warnings are suggestions, your package can still be accepted even if you prefer not to fix them.",
      "",
      "A human being will soon review your package, too."]
      ++ unlocatedLines r ++ omittedLines omitted)

/-- The lines, and the columns on a single line, of a span in a file. -/
def placeOf (source : SourceFile) (span : Text.Span) : Int × Int × Option (Int × Int) :=
  let (startLine, startColumn) := source.lineCol span.start
  let (endLine, endColumn) := source.lineCol (max span.start span.stop)
  (startLine, endLine, if startLine == endLine then some (startColumn, endColumn) else none)

/-- The annotation of a diagnostic of the file at `path`. Without a known place it is on the first
line. -/
def annotate (spec : Spec) (files : FileSet) (d : Diagnostic) (path : String) : Annotation :=
  let source? := (files.get? path).filter (·.text?.isSome)
  let (startLine, endLine, columns) :=
    match d.span, source? with
    | some span, some source => placeOf source span
    | _, _ => (1, 1, none)
  { path := s!"{spec.registryPath}/{path}"
    startLine, endLine
    startColumn := columns.map Prod.fst
    endColumn := columns.map Prod.snd
    level := annotationLevel d.severity
    message := d.message
    title := d.ruleId }

/-- The diagnostics that are kept if there may be `limit` of them: the most serious ones, in their
order. A negative limit says how many are left out. -/
def keepMostSerious (limit : Int) (ds : List (Diagnostic × String)) : List (Diagnostic × String) :=
  if (ds.length : Int) ≤ limit then ds
  else
    let numbered := ds.zipIdx
    let ranked := numbered.mergeSort fun a b => decide (a.1.1.severity.rank ≤ b.1.1.severity.rank)
    let size := if limit < 0 then ds.length + limit else limit
    let kept := (ranked.take size.toNat).map Prod.snd
    (numbered.filter fun (_, i) => kept.contains i).map Prod.fst

/-- A list cut into pieces of `size` elements; the last piece may be shorter. -/
def batches {α : Type} (size : Nat) (xs : List α) : List (List α) :=
  (List.range ((xs.length + size - 1) / size)).map fun i => (xs.drop (i * size)).take size

/-- The outputs of a check run with a report; at least one. -/
def outputs (r : Report) (spec : Spec) (files : FileSet) (limit : Int) : List Output :=
  let located := r.diagnostics.filterMap fun d => d.file.map fun path => (d, path)
  let kept := keepMostSerious limit located
  let annotations := kept.map fun (d, path) => annotate spec files d path
  let text := summary r (located.length - kept.length)
  let pieces := batches annotationsPerRequest annotations
  (if pieces.isEmpty then [[]] else pieces).map fun piece => ⟨title r, text, piece⟩

end TypstLint.GitHub
