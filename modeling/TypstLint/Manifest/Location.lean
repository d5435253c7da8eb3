import TypstLint.Text.Blank
import TypstLint.Text.Lines
import TypstLint.Text.Span

set_option autoImplicit false

/-! # Where a key of a manifest stands

Keys are looked for in the lines of the text: a header line starts a table (`headerName?`), and a line
that starts with the key and an `=` holds the key (`holdsKey`). A line end of any kind ends a line.

`keySpan` does this without reading the text as TOML, so that a place is found even in a text that is no
manifest; what it takes for a header or a key is decided line by line. -/

namespace TypstLint.Manifest

open Text (Span)

/-- Whether `c` may stand in the name of a table. -/
def isTableChar (c : Char) : Bool := c.isAlphanum || c == '_' || c == '.' || c == '-'

/-- Whether a text is empty or a comment, up to one line end behind it. Line feeds end comments. -/
def isLineTail (cs : List Char) : Bool :=
  match cs.dropWhile Text.isBlank with
  | [] => true
  | c :: comment => c == '#' && (comment.dropWhile (· != '\n')).length ≤ 1

/-- The name of the table whose header a line is. -/
def headerName? (line : List Char) : Option (List Char) :=
  match line.dropWhile Text.isBlank with
  | '[' :: rest =>
    let rest := rest.dropWhile Text.isBlank
    let name := rest.takeWhile isTableChar
    match (rest.drop name.length).dropWhile Text.isBlank with
    | ']' :: tail => if !name.isEmpty && isLineTail tail then some name else none
    | _ => none
  | _ => none

/-- A text without a quote of either kind at its start. -/
def dropQuote (cs : List Char) : List Char :=
  match cs with
  | [] => []
  | c :: rest => if c == '\x22' || c == '\'' then rest else cs

/-- Whether a text starts with a key and an `=`; a quote may stand behind the key. -/
def startsWithKey (key cs : List Char) : Bool :=
  key.isPrefixOf cs && ((dropQuote (cs.drop key.length)).dropWhile Text.isBlank).head? == some '='

/-- Whether a line holds a key: blanks, the key, which may be quoted, and an `=`. -/
def holdsKey (key : List Char) : List Char → Bool
  | [] => false
  | c :: rest =>
    startsWithKey key (c :: rest) || startsWithKey key (dropQuote (c :: rest))
      || (Text.isBlank c && holdsKey key rest)

/-- The span of a line without the blanks around it, if the line starts at `offset`. -/
def trimmedSpan (offset : Nat) (line : List Char) : Span :=
  let indent := (line.takeWhile Text.isBlank).length
  .ofLength (offset + indent) (Text.trim line).length

/-- Looks for a key in lines of which the first starts at `offset` in the table `current`. -/
def findKey (table key : List Char) (offset : Nat) (current : Option (List Char)) :
    List (List Char) → Option Span
  | [] => none
  | line :: lines =>
    match headerName? line with
    | some name => findKey table key (offset + line.length) (some name) lines
    | none =>
      if current == some table && holdsKey key line then some (trimmedSpan offset line)
      else findKey table key (offset + line.length) current lines

/-- Looks for the header of a table in lines of which the first starts at `offset`. -/
def findTable (table : List Char) (offset : Nat) : List (List Char) → Option Span
  | [] => none
  | line :: lines =>
    if headerName? line == some table then some (trimmedSpan offset line)
    else findTable table (offset + line.length) lines

/-- The span of a key of a table, or of the header of the table. The empty key stands nowhere. -/
def keySpan (text : List Char) (table : String) (key : Option String) : Option Span :=
  match key with
  | none => findTable table.toList 0 (Text.lines text)
  | some key =>
    if key.isEmpty then none else findKey table.toList key.toList 0 none (Text.lines text)

end TypstLint.Manifest
