import TypstLint.Markup.Closure
import TypstLint.Markup.Import

set_option autoImplicit false

/-! # Scanning Typst text

A `scan` goes through a text once and keeps track of what it stands in: text, an equation, code behind
`#`, a block of code or a block of text. These are the `Frame`s of a `State`, innermost first. Only code
can hold directives and bindings.

Each `step` reads one unit of the text or leaves one of the frames; the innermost one decides how the
text is read (`textStep`, `codeStep`). A frame is entered by reading a character, so twice the length of
the text bounds the number of steps, and the fuel of `scanFrom` is not used up. -/

namespace TypstLint.Markup

/-- Something that a scan stands in, with the position at which it was opened. Code has the positions
of its open parentheses, innermost first. -/
inductive Frame where
  /-- A block of text in square brackets. -/
  | content (opener : Nat)
  /-- An equation between dollars. -/
  | math (opener : Nat)
  /-- A block of code in braces. -/
  | code (opener : Nat) (parens : List Nat)
  /-- Code behind a `#` in text; a statement goes on to the end of the line. -/
  | embed (opener : Nat) (statement topLevel : Bool) (parens : List Nat)
  deriving DecidableEq, Repr

namespace Frame

/-- The open parentheses of a frame, innermost first. -/
def parens : Frame → List Nat
  | content _ | math _ => []
  | code _ parens | embed _ _ _ parens => parens

/-- A frame with other open parentheses. -/
def withParens (parens : List Nat) : Frame → Frame
  | code opener _ => code opener parens
  | embed opener statement topLevel _ => embed opener statement topLevel parens
  | frame => frame

/-- Whether a frame is code behind a `#`. -/
def isEmbedded : Frame → Bool
  | embed .. => true
  | _ => false

/-- Whether a frame is a statement behind a `#`. -/
def isStatement : Frame → Bool
  | embed _ statement _ _ => statement
  | _ => false

/-- The delimiter that opened a frame and has to be closed, and its position. -/
def delimiter? : Frame → Option (Char × Nat)
  | content opener => some ('[', opener)
  | math opener => some ('$', opener)
  | code opener _ => some ('\x7b', opener)
  | embed .. => none

/-- The issues of a frame that is open at the end of the text. -/
def issues (frame : Frame) : List Issue :=
  (frame.parens.reverse.map fun opener => ('(', opener)) ++ frame.delimiter?.toList
    |>.map fun (delimiter, opener) => .unclosedAt delimiter opener

end Frame

/-- A scan that is under way: its place, and what it stands in besides the text of the file itself,
innermost first. -/
structure State where
  cursor : Cursor
  frames : List Frame

namespace State

/-- Moves on by `n` characters. -/
def advance (n : Nat) (s : State) : State := { s with cursor := Cursor.advance n s.cursor }

/-- Leaves the innermost frame. -/
def pop (s : State) : State := { s with frames := s.frames.tail }

/-- Enters a frame. -/
def push (frame : Frame) (s : State) : State := { s with frames := frame :: s.frames }

/-- Replaces the innermost frame. -/
def replace (frame : Frame) (s : State) : State := s.pop.push frame

end State

/-- What a step leads to. -/
abbrev Outcome := Except Fault (State × List Finding)

/-- A step that finds nothing. -/
def plain (s : State) : Outcome := .ok (s, [])

/-- Reads a region of a kind. -/
def readRegion (kind : RegionKind) (s : State) : Outcome :=
  (Region.read kind s.cursor.rest).map fun region =>
    (s.advance region.length, (region.issues s.cursor.pos).map .issue)

/-! ## Text and equations -/

/-- Whether the text before a cursor ends with the scheme of a web address. -/
def followsScheme (cur : Cursor) : Bool :=
  "http:".toList.reverse.isPrefixOf cur.past || "https:".toList.reverse.isPrefixOf cur.past

/-- Whether a region of a kind can start in text, or in an equation. -/
def admitsRegion (inMath : Bool) (cur : Cursor) : RegionKind → Bool
  | .lineComment => !followsScheme cur
  | .blockComment => true
  | .raw => !inMath
  | .string => inMath

/-- Enters the code behind a `#`, if there is any. -/
def enterCode (s : State) : State :=
  let next := s.advance 1
  let word := identOf next.cursor.rest
  let opens := next.cursor.rest.head?.all fun c => c == '\x7b' || c == '(' || c == '[' || c == '\x22'
  if word.isEmpty && !opens then next
  else
    let statement := statementKeywords.contains (String.ofList word)
    next.push (.embed s.cursor.pos statement s.frames.isEmpty [])

/-- A step in text or in an equation, at the character `c`. -/
def textStep (inMath inContent : Bool) (c : Char) (s : State) : Outcome :=
  match (RegionKind.at? s.cursor.rest).filter (admitsRegion inMath s.cursor) with
  | some kind => readRegion kind s
  | none =>
    if c == '\\' then plain (s.advance 2)
    else if c == '$' then
      plain (if inMath then s.pop.advance 1 else (s.push (.math s.cursor.pos)).advance 1)
    else if c == ']' && inContent then plain (s.pop.advance 1)
    else if c == '#' then plain (enterCode s)
    else plain (s.advance 1)

/-! ## Code -/

/-- Whether a statement can start at a cursor in the frame. -/
def startsStatement (frame : Frame) (cur : Cursor) : Bool :=
  match frame with
  | .embed opener .. => cur.pos == opener + 1
  | .code _ [] =>
    ((cur.past.dropWhile fun c => c == ' ' || c == '\t' || c == '\r').head?).any fun c =>
      c == '\x7b' || c == ';' || c == '\n'
  | _ => false

/-- The directive that a word starts. -/
def directiveKind? (word : List Char) : Option DirectiveKind :=
  [DirectiveKind.importing, .including].find? fun kind => kind.word.toList == word

/-- The position of a statement whose word starts at a cursor: behind a `#`, that of the `#`. -/
def statementPos (frame : Frame) (cur : Cursor) : Nat :=
  match frame with
  | .embed opener .. => opener
  | _ => cur.pos

/-- Whether a binding in the frame is one of the file's top level. -/
def isTopLevel : Frame → Bool
  | .embed _ _ topLevel _ => topLevel
  | _ => false

/-- A step in code over a word. -/
def wordStep (frame : Frame) (s : State) : Outcome :=
  let word := identOf s.cursor.rest
  let behind := Cursor.advance word.length s.cursor
  let read :=
    if !startsStatement frame s.cursor then .ok (behind, [])
    else
      match directiveKind? word with
      | some kind => readDirective kind (statementPos frame s.cursor) behind
      | none =>
        if word == "let".toList then readBinding (isTopLevel frame) behind else .ok (behind, [])
  read.map fun (cursor, found) => ({ s with cursor }, found)

/-- A step at a character that is no delimiter, in code that is behind a `#`: an expression ends
where no field follows. -/
def expressionStep (c : Char) (s : State) : State :=
  if c == '.' && (s.cursor.rest.drop 1).head?.any isIdentStart then s.advance 1 else s.pop

/-- A step in code, at the character `c`. -/
def codeStep (frame : Frame) (c : Char) (s : State) : Outcome :=
  let parens := frame.parens
  let embedded := frame.isEmbedded
  let statement := frame.isStatement
  match RegionKind.at? s.cursor.rest with
  | some kind => readRegion kind s
  | none =>
    if c == '(' then
      plain ((s.replace (frame.withParens (s.cursor.pos :: parens))).advance 1)
    else if c == '[' then plain ((s.push (.content s.cursor.pos)).advance 1)
    else if c == '\x7b' then plain ((s.push (.code s.cursor.pos [])).advance 1)
    else if c == ')' then
      match parens with
      | _ :: outer => plain ((s.replace (frame.withParens outer)).advance 1)
      | [] => plain (if embedded then s.pop else s.advance 1)
    else if parens.isEmpty && c == '\x7d' then
      plain (if embedded then s.pop else s.pop.advance 1)
    else if parens.isEmpty && embedded && (c == ']' || c == '\n') then plain s.pop
    else if parens.isEmpty && statement && c == ';' then plain (s.pop.advance 1)
    else if isIdentStart c then wordStep frame s
    else if parens.isEmpty && embedded && !statement then plain (expressionStep c s)
    else plain (s.advance 1)

/-! ## The whole text -/

/-- A step at the character `c`, which is the next one. -/
def State.step (c : Char) (s : State) : Outcome :=
  match s.frames with
  | [] => textStep false false c s
  | .content _ :: _ => textStep false true c s
  | .math _ :: _ => textStep true false c s
  | frame :: _ => codeStep frame c s

/-- Goes on to the end of the text; `fuel` bounds the number of steps, and `found` holds the findings
so far, last first. -/
def scanFrom (fuel : Nat) (found : List Finding) (s : State) : Outcome :=
  match fuel with
  | 0 => .ok (s, found)
  | fuel + 1 =>
    match s.cursor.rest with
    | [] => .ok (s, found)
    | c :: _ =>
      match s.step c with
      | .error fault => .error fault
      | .ok (s, new) => scanFrom fuel (new.reverse ++ found) s

/-- What a text holds. Each step reads a character or leaves a frame that was entered by reading one,
so twice the length of the text bounds their number. -/
def scan (text : List Char) : Except Fault Outline := do
  let (s, found) ← scanFrom (2 * text.length + 1) [] ⟨.ofText text, []⟩
  let unclosed := s.frames.reverse.flatMap Frame.issues
  return .ofFindings (found.reverse ++ unclosed.map .issue)

end TypstLint.Markup
