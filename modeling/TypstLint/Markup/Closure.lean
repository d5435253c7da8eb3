import TypstLint.Markup.Cursor
import TypstLint.Markup.Group

set_option autoImplicit false

/-! # Closure parameters

The parameters of a closure are the parts of its group between commas (`splitSegments`). Commas inside
brackets do not count. A part that starts with two points or with a pattern binds no single name
(`Segment.param?`). `readBinding` reads the whole binding, of which the closure may be the value. -/

namespace TypstLint.Markup

/-- A part of a group, and the position at which it starts. -/
structure Segment where
  start : Nat
  text : List Char

/-- The parts of a group that were found; `text` holds the characters of the current one, last first,
and `before` the parts before it, last first. -/
structure Segments where
  start : Nat
  text : List Char := []
  before : List Segment := []

/-- Adds a character to the current part. -/
def Segments.push (segments : Segments) (c : Char) : Segments :=
  { segments with text := c :: segments.text }

/-- Ends the current part and starts the next one. -/
def Segments.split (segments : Segments) (start : Nat) : Segments :=
  { start, before := ⟨segments.start, segments.text.reverse⟩ :: segments.before }

/-- All parts in order. -/
def Segments.toList (segments : Segments) : List Segment := (segments.split 0).before.reverse

/-- Splits the first `left` characters of a text at the commas outside brackets. `pos` is the position
of the text, of which `skip` characters belong to a string literal that was read before; `depth` is
the number of open brackets. A string literal may reach beyond the part of the text that is split. -/
def splitSegments (left pos skip : Nat) (depth : Int) (segments : Segments) :
    List Char → Except Fault (List Segment × List Issue)
  | [] => .ok (segments.toList, [])
  | c :: rest =>
    match left with
    | 0 => .ok (segments.toList, [])
    | left + 1 =>
      match skip with
      | skip + 1 => splitSegments left (pos + 1) skip depth (segments.push c) rest
      | 0 =>
        if c == '\x22' then
          match Region.read .string (c :: rest) with
          | .error fault => .error fault
          | .ok region =>
            if region.fault.isSome then
              .ok (({ segments with text := (rest.take left).reverse ++ c :: segments.text }
                : Segments).toList, region.issues pos)
            else splitSegments left (pos + 1) (region.length - 1) depth (segments.push c) rest
        else if c == ',' && depth == 0 then
          splitSegments left (pos + 1) 0 depth (segments.split (pos + 1)) rest
        else
          let change : Int :=
            if c == '(' || c == '[' || c == '\x7b' then 1
            else if c == ')' || c == ']' || c == '\x7d' then -1
            else 0
          splitSegments left (pos + 1) 0 (depth + change) (segments.push c) rest

/-- The parameter of a part: a name alone, or one with a colon behind it. -/
def Segment.param? (segment : Segment) : Option Param :=
  let body := segment.text.dropWhile isCodeBlank
  let name := identOf body
  let start := segment.start + (segment.text.length - body.length)
  let span := Text.Span.ofLength start name.length
  if name.isEmpty then none
  else
    match (body.drop name.length).dropWhile isCodeBlank with
    | [] => some ⟨String.ofList name, span, false⟩
    | c :: _ => if c == ':' then some ⟨String.ofList name, span, true⟩ else none

/-- Reads a binding; the cursor stands behind the word `let`. A binding inside other code is read but
does not count. -/
def readBinding (topLevel : Bool) (cur : Cursor) : Except Fault (Cursor × List Finding) := do
  let start := cur.skipBlanks
  let name := identOf start.rest
  if name.isEmpty then return (start, [])
  let behindName := Cursor.advance name.length start
  let binding : Binding :=
    ⟨String.ofList name, .ofLength start.pos name.length, [], behindName.meets '('⟩
  let found := fun (b : Binding) => if topLevel then [Finding.binding b] else []
  if !binding.isClosure then return (behindName, found binding)
  let group ← Group.read behindName
  if !group.closed then return (group.behind, group.issues.map .issue)
  let first := behindName.next
  let (segments, issues) ←
    splitSegments group.body.length first.pos 0 0 { start := first.pos } first.rest
  let params := segments.filterMap Segment.param?
  return (group.behind,
    (group.issues ++ issues).map .issue ++ found { binding with params })

end TypstLint.Markup
