import Mathlib.Data.List.Basic
import Mathlib.Data.List.TakeWhile
import TypstLint.Proofs.Markup.Scan

set_option autoImplicit false

/-! # Scans behind a text

A scan does the same behind a text as at the start of one: what it finds is shifted by the length of
the text (`scanRest_after`). It looks back only for the scheme of a web address and for the start of a
statement, and a text that ends with a line feed in front of it changes neither. -/

namespace TypstLint

/-- A span that is moved on by `n` characters. -/
def Text.Span.shift (n : Nat) (s : Text.Span) : Text.Span := ⟨s.start + n, s.stop + n⟩

theorem Text.Span.ofLength_add (start length n : Nat) :
    Text.Span.ofLength (start + n) length = (Text.Span.ofLength start length).shift n := by
  simp only [ofLength, shift, Span.mk.injEq]
  omega

theorem Text.Span.between_add (start stop n : Nat) :
    Text.Span.between (start + n) (stop + n) = (Text.Span.between start stop).shift n := by
  simp [between, shift]

namespace Markup

/-! ## Findings that are moved on -/

/-- A literal that is moved on. -/
def Literal.shift (n : Nat) (l : Literal) : Literal := { l with span := l.span.shift n }

/-- A directive that is moved on. -/
def Directive.shift (n : Nat) (d : Directive) : Directive :=
  { d with target := d.target.map (·.shift n), span := d.span.shift n }

/-- A parameter that is moved on. -/
def Param.shift (n : Nat) (p : Param) : Param := { p with span := p.span.shift n }

/-- A binding that is moved on, with its parameters. -/
def Binding.shift (n : Nat) (b : Binding) : Binding :=
  { b with span := b.span.shift n, params := b.params.map (·.shift n) }

/-- An issue that is moved on. -/
def Issue.shift (n : Nat) (i : Issue) : Issue := { i with span := i.span.shift n }

/-- A finding that is moved on. -/
def Finding.shift (n : Nat) : Finding → Finding
  | directive d => directive (d.shift n)
  | binding b => binding (b.shift n)
  | issue i => issue (i.shift n)

theorem Finding.map_shift_issues (n : Nat) (issues : List Issue) :
    (issues.map .issue).map (shift n) = (issues.map (·.shift n)).map .issue := by
  rw [List.map_map, List.map_map]
  rfl

/-- What was found in a text that is moved on. -/
def Outline.shift (n : Nat) (o : Outline) : Outline where
  directives := o.directives.map (·.shift n)
  bindings := o.bindings.map (·.shift n)
  issues := o.issues.map (·.shift n)

theorem Outline.ofFindings_shift (n : Nat) (found : List Finding) :
    Outline.ofFindings (found.map (·.shift n)) = (Outline.ofFindings found).shift n := by
  have hmap : ∀ {α : Type} (f : Finding → Option α) (g : α → α),
      (∀ x, f (x.shift n) = (f x).map g) →
      (found.map (·.shift n)).filterMap f = (found.filterMap f).map g := by
    intro α f g h
    rw [List.filterMap_map, List.map_filterMap]
    exact List.filterMap_congr fun x _ => h x
  simp only [ofFindings, shift, Outline.mk.injEq]
  refine ⟨hmap _ _ fun x => ?_, hmap _ _ fun x => ?_, hmap _ _ fun x => ?_⟩
  · cases x <;> rfl
  · cases x <;> rfl
  · cases x <;> rfl

theorem Issue.unclosedAt_add (delimiter : Char) (opener n : Nat) :
    Issue.unclosedAt delimiter (opener + n) = (Issue.unclosedAt delimiter opener).shift n := by
  simp only [unclosedAt, shift, Text.Span.ofLength_add]

theorem Region.issues_add (pos n : Nat) (region : Region) :
    region.issues (pos + n) = (region.issues pos).map (·.shift n) := by
  simp only [issues, List.map_map, Text.Span.ofLength_add]
  rfl

/-! ## Places behind a text -/

/-- The same place with a text in front. -/
def Cursor.after (text : List Char) (cur : Cursor) : Cursor where
  pos := cur.pos + text.length
  past := cur.past ++ text.reverse
  rest := cur.rest
  pos_eq := by simp [cur.pos_eq]

/-- The same frame with `n` characters in front. -/
def Frame.shift (n : Nat) : Frame → Frame
  | content opener => content (opener + n)
  | math opener => math (opener + n)
  | code opener parens => code (opener + n) (parens.map (· + n))
  | embed opener statement topLevel parens =>
    embed (opener + n) statement topLevel (parens.map (· + n))

/-- The same scan with a text in front. -/
def State.after (text : List Char) (s : State) : State where
  cursor := s.cursor.after text
  frames := s.frames.map (·.shift text.length)

variable {text : List Char} {cur : Cursor} {s s' : State} {c : Char}

namespace Cursor

@[simp] theorem rest_after : (cur.after text).rest = cur.rest := rfl

@[simp] theorem pos_after : (cur.after text).pos = cur.pos + text.length := rfl

@[simp] theorem next_after : (cur.after text).next = cur.next.after text := by
  unfold next
  simp only [rest_after]
  split
  · rfl
  · simp [after, Nat.add_right_comm]

@[simp] theorem advance_after (n : Nat) : advance n (cur.after text) = (advance n cur).after text := by
  induction n generalizing cur with
  | zero => rfl
  | succ n ih => simp only [advance, next_after, ih]

@[simp] theorem skipBlanks_after : (cur.after text).skipBlanks = cur.skipBlanks.after text := by
  simp [skipBlanks, skipWhile]

@[simp] theorem atEnd_after : (cur.after text).atEnd = cur.atEnd.after text := by simp [atEnd]

@[simp] theorem meets_after : (cur.after text).meets c = cur.meets c := by simp [meets]

end Cursor

/-! ## Groups -/

theorem findClose_add (n pos skip depth : Nat) (cs : List Char) :
    findClose (pos + n) skip depth cs = (findClose pos skip depth cs).map fun (close?, issues) =>
      (close?.map (· + n), issues.map (·.shift n)) := by
  induction cs generalizing pos skip depth with
  | nil => rfl
  | cons c rest ih =>
    have hnext : ∀ skip depth, findClose (pos + n + 1) skip depth rest
        = (findClose (pos + 1) skip depth rest).map fun (close?, issues) =>
          (close?.map (· + n), issues.map (·.shift n)) := by
      intro skip depth
      rw [← ih, Nat.add_right_comm]
    cases skip with
    | succ skip => simp only [findClose, hnext]
    | zero =>
      simp only [findClose, hnext]
      split
      · split
        · rfl
        · split
          · simp [Except.map, Region.issues_add]
          · rfl
      · split
        · rfl
        · split
          · split
            · rfl
            · rfl
          · rfl

/-- The same group with a text in front. -/
def Group.after (text : List Char) (group : Group) : Group :=
  { group with
    issues := group.issues.map (·.shift text.length)
    behind := group.behind.after text }

theorem Group.read_after : Group.read (cur.after text) = (Group.read cur).map (·.after text) := by
  simp only [Group.read, Cursor.pos_after, Cursor.rest_after, findClose_add]
  cases findClose cur.pos 0 0 cur.rest with
  | error fault => rfl
  | ok result =>
    obtain ⟨close?, issues⟩ := result
    cases close? with
    | none => simp [Except.map, Group.after, Issue.unclosedAt_add]
    | some close => simp [Except.map, Group.after, Nat.add_sub_add_right]

/-! ## Directives -/

/-- The same clauses with a text in front. -/
def Clauses.after (text : List Char) (clauses : Clauses) : Clauses :=
  { clauses with
    issues := clauses.issues.map (·.shift text.length)
    behind := clauses.behind.after text }

theorem readAlias_after : readAlias (cur.after text) = (readAlias cur).after text := by
  simp only [readAlias, Cursor.skipBlanks_after, Cursor.rest_after, Cursor.advance_after]
  split
  · split
    · rfl
    · rfl
  · rfl

theorem readItems_after (clauses : Clauses) :
    readItems (clauses.after text) (cur.after text)
      = (readItems clauses cur).map (·.after text) := by
  simp only [readItems, Cursor.skipBlanks_after, Cursor.rest_after, Cursor.advance_after,
    Cursor.meets_after, Cursor.next_after, Group.read_after]
  split
  · rfl
  · split
    · cases Group.read cur.skipBlanks with
      | error fault => rfl
      | ok group => rfl
    · rfl

theorem readClauses_after : readClauses (cur.after text) = (readClauses cur).map (·.after text) := by
  simp only [readClauses, readAlias_after]
  show (if ((readAlias cur).behind.after text).skipBlanks.meets ':' = true then
      readItems ((readAlias cur).after text) ((readAlias cur).behind.after text).skipBlanks.next
    else Except.ok ((readAlias cur).after text)) = _
  simp only [Cursor.skipBlanks_after, Cursor.meets_after, Cursor.next_after, readItems_after]
  split
  · rfl
  · rfl

theorem kindReadClauses_after (kind : DirectiveKind) :
    kind.readClauses (cur.after text) = (kind.readClauses cur).map (·.after text) := by
  cases kind with
  | importing => exact readClauses_after
  | including => rfl

/-- The same outcome with a text in front. -/
abbrev moveFindings (text : List Char) (outcome : Cursor × List Finding) : Cursor × List Finding :=
  (outcome.1.after text, outcome.2.map (·.shift text.length))

theorem readDirective_after (kind : DirectiveKind) (start : Nat) :
    readDirective kind (start + text.length) (cur.after text)
      = (readDirective kind start cur).map (moveFindings text) := by
  simp only [readDirective, Cursor.skipBlanks_after, Cursor.meets_after, Cursor.rest_after,
    Cursor.pos_after, Cursor.advance_after, kindReadClauses_after]
  split
  · simp [Except.map, pure, Except.pure, Finding.shift, Directive.shift, Text.Span.between_add]
  · cases readLiteral cur.skipBlanks.rest with
    | error fault => rfl
    | ok literal =>
      obtain ⟨text?, length⟩ := literal
      cases text? with
      | none => 
        simp [Except.map, bind, Except.bind, pure, Except.pure, Finding.shift, Issue.shift,
          Text.Span.ofLength_add]
      | some target =>
        simp only [bind, Except.bind]
        cases kind.readClauses (Cursor.advance length cur.skipBlanks) with
        | error fault => rfl
        | ok clauses =>
          simp [Except.map, pure, Except.pure, Finding.shift, Directive.shift, Literal.shift,
            Clauses.after, Text.Span.ofLength_add, Text.Span.between_add]

/-! ## Closures -/

/-- A part of a group that is moved on. -/
def Segment.shift (n : Nat) (segment : Segment) : Segment := { segment with start := segment.start + n }

/-- Parts of a group that are moved on. -/
def Segments.shift (n : Nat) (segments : Segments) : Segments :=
  { segments with start := segments.start + n, before := segments.before.map (·.shift n) }

theorem Segments.push_shift (n : Nat) (segments : Segments) :
    (segments.shift n).push c = (segments.push c).shift n := by
  simp [push, shift]

theorem Segments.split_shift (n start : Nat) (segments : Segments) :
    (segments.shift n).split (start + n) = (segments.split start).shift n := rfl

theorem Segments.toList_shift (n : Nat) (segments : Segments) :
    (segments.shift n).toList = segments.toList.map (·.shift n) := by
  rw [toList, toList, List.map_reverse]
  rfl

theorem splitSegments_add (n left pos skip : Nat) (depth : Int) (segments : Segments)
    (cs : List Char) :
    splitSegments left (pos + n) skip depth (segments.shift n) cs
      = (splitSegments left pos skip depth segments cs).map fun (parts, issues) =>
        (parts.map (·.shift n), issues.map (·.shift n)) := by
  induction cs generalizing left pos skip depth segments with
  | nil => simp [splitSegments, Except.map, Segments.toList_shift]
  | cons c rest ih =>
    have hnext : ∀ left skip depth segments,
        splitSegments left (pos + n + 1) skip depth (Segments.shift n segments) rest
          = (splitSegments left (pos + 1) skip depth segments rest).map fun (parts, issues) =>
            (parts.map (·.shift n), issues.map (·.shift n)) := by
      intro left skip depth segments
      rw [← ih, Nat.add_right_comm]
    have hsplit : (segments.shift n).split (pos + n + 1) = (segments.split (pos + 1)).shift n := by
      rw [← Segments.split_shift, Nat.add_right_comm]
    cases left with
    | zero => simp [splitSegments, Except.map, Segments.toList_shift]
    | succ left =>
      cases skip with
      | succ skip => simp only [splitSegments, Segments.push_shift, hnext]
      | zero =>
        simp only [splitSegments, Segments.push_shift, hsplit, hnext]
        split
        · split
          · rfl
          · split
            · simp only [Except.map, Region.issues_add, Except.ok.injEq, Prod.mk.injEq, and_true]
              exact Segments.toList_shift n
                { segments with text := (rest.take left).reverse ++ c :: segments.text }
            · rfl
        · split
          · rfl
          · rfl

theorem Segment.param?_shift (n : Nat) (segment : Segment) :
    (segment.shift n).param? = segment.param?.map (·.shift n) := by
  have hstart : ∀ k, segment.start + n + k = segment.start + k + n := fun k => Nat.add_right_comm ..
  simp only [param?, shift, hstart, Text.Span.ofLength_add]
  split
  · rfl
  · split
    · rfl
    · split
      · rfl
      · rfl

theorem readBinding_after (topLevel : Bool) :
    readBinding topLevel (cur.after text) = (readBinding topLevel cur).map (moveFindings text) := by
  have hparams : ∀ segments : List Segment, (segments.map (·.shift text.length)).filterMap Segment.param?
      = (segments.filterMap Segment.param?).map (·.shift text.length) := by
    intro segments
    rw [List.filterMap_map, List.map_filterMap]
    exact List.filterMap_congr fun segment _ => segment.param?_shift _
  simp only [readBinding, Cursor.skipBlanks_after, Cursor.meets_after, Cursor.rest_after,
    Cursor.pos_after, Cursor.advance_after, Group.read_after, Cursor.next_after]
  generalize Cursor.advance (identOf cur.skipBlanks.rest).length cur.skipBlanks = behindName
  split
  · rfl
  · split
    · cases topLevel with
      | true => simp [Except.map, pure, Except.pure, Finding.shift, Binding.shift, Text.Span.ofLength_add]
      | false => rfl
    · cases Group.read behindName with
      | error fault => rfl
      | ok group =>
        have hfirst : ∀ k, Segments.mk (k + text.length) [] [] = Segments.shift text.length ⟨k, [], []⟩ :=
          fun _ => rfl
        simp only [Except.map, bind, Except.bind, Group.after, hfirst, splitSegments_add]
        split
        · simp [pure, Except.pure, Finding.shift]
        · cases splitSegments group.body.length behindName.next.pos 0 0 ⟨behindName.next.pos, [], []⟩
              behindName.next.rest with
          | error fault => rfl
          | ok parts =>
            cases topLevel with
            | true =>
              simp only [pure, Except.pure, hparams, moveFindings, if_true, List.map_append,
                Finding.map_shift_issues, Text.Span.ofLength_add]
              rfl
            | false =>
              simp only [pure, Except.pure, moveFindings, List.map_append, Finding.map_shift_issues]
              rfl

/-! ## Frames and states -/

namespace Frame

@[simp] theorem parens_shift (n : Nat) (frame : Frame) :
    (frame.shift n).parens = frame.parens.map (· + n) := by
  cases frame <;> rfl

@[simp] theorem isEmbedded_shift (n : Nat) (frame : Frame) :
    (frame.shift n).isEmbedded = frame.isEmbedded := by
  cases frame <;> rfl

@[simp] theorem isStatement_shift (n : Nat) (frame : Frame) :
    (frame.shift n).isStatement = frame.isStatement := by
  cases frame <;> rfl

theorem withParens_shift (n : Nat) (parens : List Nat) (frame : Frame) :
    (frame.shift n).withParens (parens.map (· + n)) = (frame.withParens parens).shift n := by
  cases frame <;> rfl

theorem issues_shift (n : Nat) (frame : Frame) :
    (frame.shift n).issues = frame.issues.map (·.shift n) := by
  have hdelimiter : (frame.shift n).delimiter?
      = frame.delimiter?.map fun delimiter => (delimiter.1, delimiter.2 + n) := by
    cases frame <;> rfl
  simp only [issues, parens_shift, hdelimiter, ← List.map_reverse, List.map_append, List.map_map]
  congr 1
  · exact List.map_congr_left fun opener _ => Issue.unclosedAt_add '(' opener n
  · cases frame.delimiter? with
    | none => rfl
    | some delimiter =>
      exact congrArg (fun issue => [issue]) (Issue.unclosedAt_add delimiter.1 delimiter.2 n)

end Frame

/-- The same outcome of a step with a text in front. -/
abbrev moveOutcome (text : List Char) (outcome : State × List Finding) : State × List Finding :=
  (outcome.1.after text, outcome.2.map (·.shift text.length))

namespace State

@[simp] theorem cursor_after : (s.after text).cursor = s.cursor.after text := rfl

@[simp] theorem frames_after : (s.after text).frames = s.frames.map (·.shift text.length) := rfl

end State

theorem isTopLevel_shift (n : Nat) (frame : Frame) : isTopLevel (frame.shift n) = isTopLevel frame := by
  cases frame <;> rfl

end Markup

end TypstLint
