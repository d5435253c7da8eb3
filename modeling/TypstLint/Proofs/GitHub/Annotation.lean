import TypstLint.GitHub.Output
import TypstLint.Proofs.Text.LineIndex

set_option autoImplicit false

/-! # What annotations tell

`Annotation.Tells` says what an annotation has to tell of a diagnostic: the file by its path in the
registry, the severity by the level, the message, the rule by the title, and the place. No field of an
annotation is left open by it. The annotation that is made of a diagnostic tells it (`annotate_tells`).

A place is given by lines and columns (`Annotation.IsAt`), and these are those of the text: places come
in the order of the offsets, and every place is that of one offset. The lines of an annotation are lines
of the text, in their order, and it has columns exactly if it is on a single line, where the last one
does not come before the first (`Annotation.Shows`, `annotate_shows`). A span that ends before it starts
is shown as the place where it starts. -/

namespace TypstLint.GitHub

open Text (Span LineStartsAt lineCol)

variable {f : SourceFile} {t : List Char} {span : Span} {a : Annotation}

/-! ## Places -/

/-- An annotation is at a span of a file: at the lines of its ends, and if these are one line, at their columns. -/
structure Annotation.IsAt (f : SourceFile) (span : Span) (a : Annotation) : Prop where
  startLine_eq : a.startLine = (f.lineCol span.start).1
  endLine_eq : a.endLine = (f.lineCol (max span.start span.stop)).1
  startColumn_eq :
    a.startColumn = if a.startLine = a.endLine then some (f.lineCol span.start).2 else none
  endColumn_eq :
    a.endColumn = if a.startLine = a.endLine then some (f.lineCol (max span.start span.stop)).2 else none

/-- An annotation shows a span of a file with the text `t`. -/
structure Annotation.Shows (f : SourceFile) (t : List Char) (span : Span) (a : Annotation) : Prop where
  one_le : 1 ≤ a.startLine
  le : a.startLine ≤ a.endLine
  endLine_le : a.endLine ≤ 1 + (t.count '\n' : Nat)
  startLine_eq : a.startLine = 1 + ((t.take span.start.toNat).count '\n' : Nat)
  startColumn_iff : a.startColumn.isSome = true ↔ a.startLine = a.endLine
  endColumn_iff : a.endColumn.isSome = true ↔ a.startLine = a.endLine
  columns : ∀ c ∈ a.startColumn, ∀ c' ∈ a.endColumn, 1 ≤ c ∧ c ≤ c'
  starts : ∀ c ∈ a.startColumn, (a.startLine, c) = f.lineCol span.start
  ends : ∀ c ∈ a.endColumn, (a.endLine, c) = f.lineCol (max span.start span.stop)

theorem lineCol_of_text (ht : f.text? = some t) (offset : Int) : f.lineCol offset = lineCol t offset := by
  rw [SourceFile.lineCol, SourceFile.lineStarts, ht, Option.getD_some, lineCol]

/-- An annotation at a span between two offsets of the text shows this span. -/
theorem Annotation.IsAt.shows (h : a.IsAt f span) (ht : f.text? = some t) (hnonneg : 0 ≤ span.start)
    (hstart : span.start ≤ (t.length : Int)) (hstop : span.stop ≤ (t.length : Int)) : a.Shows f t span := by
  obtain ⟨m, hm⟩ := Int.eq_ofNat_of_zero_le hnonneg
  obtain ⟨n, hn⟩ := Int.eq_ofNat_of_zero_le (hnonneg.trans (Int.le_max_left _ span.stop))
  have hmn : m ≤ n := by omega
  have hle : n ≤ t.length := by omega
  have hstartLine : a.startLine = (lineCol t m).1 := by rw [h.startLine_eq, lineCol_of_text ht, hm]
  have hendLine : a.endLine = (lineCol t n).1 := by rw [h.endLine_eq, lineCol_of_text ht, hn]
  have hcount := (t.take_sublist n).count_le '\n'
  have hstartLine_eq := Text.line_eq (hmn.trans hle)
  have hendLine_eq := Text.line_eq hle
  refine
    { one_le := by omega
      le := by
        rw [hstartLine, hendLine]
        exact Text.line_le hmn hle
      endLine_le := by omega
      startLine_eq := ?startLine_eq
      startColumn_iff := by simp [h.startColumn_eq]
      endColumn_iff := by simp [h.endColumn_eq]
      columns := ?columns
      starts := ?starts
      ends := ?ends }
  case startLine_eq =>
    rw [hm, Int.toNat_natCast]
    omega
  case columns =>
    intro c hc c' hc'
    rw [h.startColumn_eq, Option.mem_ite_none_right, lineCol_of_text ht, hm] at hc
    rw [h.endColumn_eq, Option.mem_ite_none_right, lineCol_of_text ht, hn] at hc'
    obtain ⟨hline, ⟨⟩⟩ := hc
    obtain ⟨-, ⟨⟩⟩ := hc'
    rw [hstartLine, hendLine] at hline
    exact ⟨Text.one_le_column (hmn.trans hle), Text.column_le hmn hle hline⟩
  case starts =>
    intro c hc
    rw [h.startColumn_eq, Option.mem_ite_none_right] at hc
    obtain ⟨-, ⟨⟩⟩ := hc
    rw [h.startLine_eq]
  case ends =>
    intro c hc
    rw [h.endColumn_eq, Option.mem_ite_none_right] at hc
    obtain ⟨-, ⟨⟩⟩ := hc
    rw [h.endLine_eq]

/-! ## Annotations of diagnostics -/

/-- The levels of annotations. -/
def levels : List (Severity × String) := [(.error, "failure"), (.warning, "warning"), (.hint, "notice")]

/-- An annotation tells a diagnostic of the file at `path`. -/
structure Annotation.Tells (spec : Spec) (files : FileSet) (d : Diagnostic) (path : String)
    (a : Annotation) : Prop where
  path_eq : a.path = s!"packages/{spec.namespaceName}/{spec.name}/{spec.version.render}/{path}"
  level_mem : (d.severity, a.level) ∈ levels
  message_eq : a.message = d.message
  title_eq : a.title = some d.ruleId
  placed : ∀ f t span, files.get? path = some f → f.text? = some t → d.span = some span → a.IsAt f span
  shown : ∀ f t span, files.get? path = some f → f.text? = some t → d.span = some span →
    0 ≤ span.start → span.start ≤ (t.length : Int) → span.stop ≤ (t.length : Int) → a.Shows f t span
  /-- Without a span, and in a file without a text, the place is the first line. -/
  unplaced : (∀ f t span, files.get? path = some f → f.text? = some t → d.span ≠ some span) →
    a.startLine = 1 ∧ a.endLine = 1 ∧ a.startColumn = none ∧ a.endColumn = none

theorem annotate_isAt (spec : Spec) {files : FileSet} {path : String} {d : Diagnostic}
    (hf : files.get? path = some f) (ht : f.text? = some t) (hspan : d.span = some span) :
    (annotate spec files d path).IsAt f span := by
  have hsource : (files.get? path).filter (·.text?.isSome) = some f := by simp [hf, ht]
  rw [annotate, hsource, hspan]
  by_cases hline : (f.lineCol span.start).1 = (f.lineCol (max span.start span.stop)).1
  · constructor <;> simp [placeOf, hline]
  · constructor <;> simp [placeOf, hline]

/-- The annotation of a diagnostic tells it. -/
theorem annotate_tells (spec : Spec) (files : FileSet) (d : Diagnostic) (path : String) :
    (annotate spec files d path).Tells spec files d path where
  path_eq := rfl
  level_mem := by
    show (d.severity, annotationLevel d.severity) ∈ levels
    cases d.severity <;> decide
  message_eq := rfl
  title_eq := rfl
  placed f t span hf ht hspan := annotate_isAt spec hf ht hspan
  shown f t span hf ht hspan := (annotate_isAt spec hf ht hspan).shows ht
  unplaced h := by
    cases hspan : d.span with
    | none => simp [annotate, hspan]
    | some span =>
      have hsource : (files.get? path).filter (·.text?.isSome) = none := by
        rw [Option.filter_eq_none_iff]
        intro f hf htext
        obtain ⟨t, ht⟩ := Option.isSome_iff_exists.mp htext
        exact h f t span hf ht hspan
      simp [annotate, hsource]

/-- Lines and columns tell offsets in a text apart, in their order, and the annotation of a diagnostic shows
its span by them. -/
theorem annotate_shows (spec : Spec) {files : FileSet} {path : String} (hf : files.get? path = some f)
    (ht : f.text? = some t) :
    (∀ m n : Nat, m < n → n ≤ t.length → toLex (f.lineCol m) < toLex (f.lineCol n))
      ∧ (∀ n : Nat, n ≤ t.length → ∀ start : Nat,
          LineStartsAt t (f.lineCol n).1 start ↔ (start : Int) + (f.lineCol n).2 - 1 = n)
      ∧ ∀ d span, d.span = some span → 0 ≤ span.start → span.start ≤ (t.length : Int) →
          span.stop ≤ (t.length : Int) → (annotate spec files d path).Shows f t span := by
  refine ⟨fun m n hmn hn => ?_, fun n hn start => ?_, fun d span hspan hnonneg hstart hstop => ?_⟩
  · rw [lineCol_of_text ht, lineCol_of_text ht]
    exact Text.lineCol_lt hmn hn
  · rw [lineCol_of_text ht]
    exact Text.lineStartsAt_iff hn start
  · exact (annotate_isAt spec hf ht hspan).shows ht hnonneg hstart hstop

/-- A file of two lines with an empty one between them. -/
def threeLines : SourceFile := ⟨"lib.typ", "ab\n\ncd".toUTF8⟩

/-- A package with this file only. -/
def threeLinesFiles : FileSet := ⟨[threeLines], [], by decide⟩

/-- The annotation of a warning about a span of this file. -/
def threeLinesNote (span : Span) : Annotation :=
  annotate ⟨"preview", "a", ⟨1, 0, 0⟩⟩ threeLinesFiles ⟨.warning, "x/y", "m", some "lib.typ", some span⟩ "lib.typ"

/-- A span over two line ends, and one that ends before it starts. -/
theorem annotate_shows_threeLines : threeLinesFiles.get? "lib.typ" = some threeLines
    ∧ threeLines.text? = some "ab\n\ncd".toList
    ∧ (threeLinesNote ⟨1, 6⟩).Shows threeLines "ab\n\ncd".toList ⟨1, 6⟩
    ∧ (threeLinesNote ⟨5, -2⟩).Shows threeLines "ab\n\ncd".toList ⟨5, -2⟩
    ∧ threeLines.lineCol 5 = (3, 2) := by
  have hget : threeLinesFiles.get? "lib.typ" = some threeLines := rfl
  have htext : threeLines.text? = some "ab\n\ncd".toList := by decide +kernel
  obtain ⟨-, -, hshows⟩ := annotate_shows ⟨"preview", "a", ⟨1, 0, 0⟩⟩ hget htext
  exact ⟨hget, htext, hshows _ _ rfl (by decide) (by decide) (by decide),
    hshows _ _ rfl (by decide) (by decide) (by decide), by decide +kernel⟩

end TypstLint.GitHub
