import TypstLint.Json.Reader
import TypstLint.Text.Lines
import TypstLint.Toml.Document
import TypstLint.Toml.Value

set_option autoImplicit false

/-! # Reading TOML

`read?` reads documents as TOML 1.0 has them, with dotted keys and inline tables (`define`, `defineAt`) and
with the rule that a table is not defined twice (`openTable`, `appendTable`). One rule is taken from
TOML 0.5, which manifests are held to: the items of an array are all of one kind (`Value.isLike`).

A text either is a document or is not; why it is not is left open. Every reader returns what it read
and the text behind it. Values nest, so `readValue`, `readItems` and `readMembers` are one recursion, with
fuel that no text uses up: each step reads a character. -/

namespace TypstLint.Toml

/-- Whether `c` is a blank within a line. -/
def isSpace (c : Char) : Bool := c == ' ' || c == '\t'

/-- Whether `c` may stand in a document at all. -/
def isAllowed (c : Char) : Bool :=
  c == '\t' || c == '\n' || (32 ≤ c.toNat && c.toNat != 127)

/-- Drops the blanks at the start of a text. -/
def skipSpace (cs : List Char) : List Char := cs.dropWhile isSpace

/-- Drops blanks, line ends and comments at the start of a text. -/
def skipGaps (inComment : Bool) : List Char → List Char
  | [] => []
  | c :: rest =>
    if inComment then skipGaps (c != '\n') rest
    else if c == '#' then skipGaps true rest
    else if isSpace c || c == '\n' then skipGaps false rest
    else c :: rest

/-! ## Strings -/

/-- The character of `width` hexadecimal digits at the start of a text. -/
def codePoint? (width : Nat) (cs : List Char) : Option Char :=
  let digits := cs.take width
  if digits.length == width && digits.all (isDigitOf 16) then
    let n := valueOf 16 digits
    if h : n.isValidChar then some (Char.ofNatAux n h) else none
  else none

/-- The character of the escape whose backslash stands before `cs`, and its length in `cs`. -/
def escape? (cs : List Char) : Option (Char × Nat) :=
  match cs with
  | 'u' :: rest => (codePoint? 4 rest).map (·, 5)
  | 'U' :: rest => (codePoint? 8 rest).map (·, 9)
  | '/' :: _ => none
  | c :: _ => (Json.simpleEscape? c).map (·, 1)
  | [] => none

/-- Reads a basic string from behind its quote. `skip` characters belong to an escape that was read
before. -/
def readBasic (skip : Nat) (done : List Char) : List Char → Option (String × List Char)
  | [] => none
  | c :: rest =>
    match skip with
    | skip + 1 => readBasic skip done rest
    | 0 =>
      if c == '\x22' then some (String.ofList done.reverse, rest)
      else if c == '\n' then none
      else if c == '\\' then
        match escape? rest with
        | some (d, length) => readBasic length (d :: done) rest
        | none => none
      else readBasic 0 (c :: done) rest

/-- Reads a literal string from behind its quote. -/
def readLiteral (cs : List Char) : Option (String × List Char) :=
  let body := cs.takeWhile fun c => c != '\'' && c != '\n'
  match cs.drop body.length with
  | '\'' :: rest => some (String.ofList body, rest)
  | _ => none

/-- How many quotes stand at the start of a text. -/
def quoteRun (quote : Char) (cs : List Char) : Nat := (cs.takeWhile (· == quote)).length

/-- The length of a line end that a backslash hides, with the blank lines and blanks behind it. -/
def hiddenBreak? (cs : List Char) : Option Nat :=
  let rest := skipSpace cs
  if rest.head? == some '\n' then
    some (cs.length - (rest.dropWhile fun c => isSpace c || c == '\n').length)
  else none

/-- Reads a string of several lines from behind its three quotes. Three quotes close it, and up to two
more belong to it. -/
def readMultiline (quote : Char) (skip : Nat) (done : List Char) :
    List Char → Option (String × List Char)
  | [] => none
  | c :: rest =>
    match skip with
    | skip + 1 => readMultiline quote skip done rest
    | 0 =>
      if c == quote && 2 ≤ quoteRun quote rest then
        let extra := min (quoteRun quote rest - 2) 2
        some (String.ofList (done.reverse ++ List.replicate extra quote), rest.drop (2 + extra))
      else if c == '\\' && quote == '\x22' then
        match hiddenBreak? rest with
        | some length => readMultiline quote length done rest
        | none =>
          match escape? rest with
          | some (d, length) => readMultiline quote length (d :: done) rest
          | none => none
      else readMultiline quote 0 (c :: done) rest

/-- Reads a string on one line. -/
def readLine (cs : List Char) : Option (String × List Char) :=
  match cs with
  | '\x22' :: rest => readBasic 0 [] rest
  | '\'' :: rest => readLiteral rest
  | _ => none

/-- Reads a string. A line end right behind three quotes does not count. -/
def readString (cs : List Char) : Option (String × List Char) :=
  match cs with
  | [] => none
  | quote :: rest =>
    if 2 ≤ quoteRun quote rest then
      let body := rest.drop 2
      readMultiline quote 0 [] (if body.head? == some '\n' then body.drop 1 else body)
    else readLine cs

/-! ## Keys -/

/-- Whether `c` may stand in a bare key. -/
def isBareChar (c : Char) : Bool := c.isAlphanum || c == '_' || c == '-'

/-- Reads one part of a key. -/
def readKeyPart (cs : List Char) : Option (String × List Char) :=
  let bare := cs.takeWhile isBareChar
  if bare.isEmpty then readLine cs else some (String.ofList bare, cs.drop bare.length)

/-- Reads a key whose parts are joined by points; `fuel` bounds their number. -/
def readParts (fuel : Nat) (cs : List Char) : Option (List String × List Char) :=
  match fuel with
  | 0 => none
  | fuel + 1 => do
    let (part, rest) ← readKeyPart cs
    match skipSpace rest with
    | '.' :: rest =>
      let (parts, rest) ← readParts fuel (skipSpace rest)
      return (part :: parts, rest)
    | rest => return ([part], rest)

/-- Reads a key and the blanks behind it. -/
def readKey (cs : List Char) : Option (List String × List Char) := readParts cs.length cs

/-- Reads a key, the `=` and the blanks behind it. -/
def readBinding (cs : List Char) : Option (List String × List Char) :=
  match readKey cs with
  | some (key, '=' :: rest) => some (key, skipSpace rest)
  | _ => none

/-! ## Values -/

mutual

/-- Reads a value; `fuel` bounds the elements inside it. -/
def readValue (fuel : Nat) (cs : List Char) : Option (Value × List Char) :=
  match fuel with
  | 0 => none
  | fuel + 1 =>
    match cs with
    | '[' :: rest => readItems fuel [] (skipGaps false rest)
    | '\x7b' :: rest =>
      match skipSpace rest with
      | '\x7d' :: rest => some (.table [], rest)
      | rest => readMembers fuel [] rest
    | c :: _ =>
      if c == '\x22' || c == '\'' then (readString cs).map fun (s, rest) => (.string s, rest)
      else readScalar cs
    | [] => none

/-- Reads the items of an array that are left and its closing bracket; `done` holds those before
them, last first. Every item is of the kind of the one before it. -/
def readItems (fuel : Nat) (done : List Value) (cs : List Char) : Option (Value × List Char) :=
  match fuel with
  | 0 => none
  | fuel + 1 =>
    match cs with
    | ']' :: rest => some (.array done.reverse, rest)
    | _ =>
      match readValue fuel cs with
      | none => none
      | some (v, rest) =>
        if !done.head?.all v.isLike then none
        else
          match skipGaps false rest with
          | ',' :: rest => readItems fuel (v :: done) (skipGaps false rest)
          | ']' :: rest => some (.array (v :: done).reverse, rest)
          | _ => none

/-- Reads the members of an inline table that are left and its closing brace. -/
def readMembers (fuel : Nat) (done : Members) (cs : List Char) : Option (Value × List Char) :=
  match fuel with
  | 0 => none
  | fuel + 1 =>
    match readBinding cs with
    | none => none
    | some (key, rest) =>
      match readValue fuel rest with
      | none => none
      | some (v, rest) =>
        match define 0 v key done with
        | none => none
        | some done =>
          match skipSpace rest with
          | ',' :: rest => readMembers fuel done (skipSpace rest)
          | '\x7d' :: rest => some (.table (membersToValues done), rest)
          | _ => none

end

/-! ## Documents -/

/-- A document that is being read: what it holds so far, the header of the current section, and the
number of that section. -/
structure Document where
  members : Members := []
  path : List String := []
  number : Nat := 0

/-- Drops the end of a line: blanks, a comment and the line end. -/
def dropLineEnd (cs : List Char) : Option (List Char) :=
  let rest := skipSpace cs
  let rest := if rest.head? == some '#' then rest.dropWhile (· != '\n') else rest
  match rest with
  | [] => some []
  | '\n' :: rest => some rest
  | _ => none

/-- Reads a header from behind its opening brackets. -/
def readHeader (close : List Char) (cs : List Char) : Option (List String × List Char) := do
  let (path, rest) ← readKey (skipSpace cs)
  if close.isPrefixOf rest then return (path, rest.drop close.length) else none

/-- Reads a statement: a header, a key with its value, or nothing. -/
def readStatement (doc : Document) (cs : List Char) : Option (Document × List Char) :=
  match cs with
  | '[' :: '[' :: rest => do
    let (path, rest) ← readHeader [']', ']'] rest
    return (⟨← appendTable path doc.members, path, doc.number + 1⟩, rest)
  | '[' :: rest => do
    let (path, rest) ← readHeader [']'] rest
    return (⟨← openTable path doc.members, path, doc.number + 1⟩, rest)
  | c :: _ =>
    if c == '#' || c == '\n' then some (doc, cs)
    else do
      let (key, rest) ← readBinding cs
      let (v, rest) ← readValue (2 * rest.length + 2) rest
      return (⟨← defineAt doc.number doc.path key v doc.members, doc.path, doc.number⟩, rest)
  | [] => some (doc, [])

/-- Reads the statements that are left; `fuel` bounds the number of lines. -/
def readStatements (fuel : Nat) (doc : Document) (cs : List Char) : Option Members :=
  match fuel with
  | 0 => none
  | fuel + 1 =>
    match skipSpace cs with
    | [] => some doc.members
    | cs =>
      match readStatement doc cs with
      | none => none
      | some (doc, rest) =>
        match dropLineEnd rest with
        | none => none
        | some rest => readStatements fuel doc rest

/-- The table that a text describes: TOML 1.0, with arrays of a single kind of values. -/
def read? (text : List Char) : Option (List (String × Value)) :=
  let text := Text.joinBreaks text
  if text.all isAllowed then (readStatements (text.length + 1) {} text).map membersToValues
  else none

end TypstLint.Toml
