import TypstLint.Json.Value
import TypstLint.Text.Quoted

set_option autoImplicit false

/-! # Writing JSON

Two layouts: on one line, with a space behind commas and colons, and indented by two spaces a level.
Everything outside printable ASCII is escaped, characters above U+FFFF as a surrogate pair. -/

namespace TypstLint.Json

/-- An escape of four hexadecimal digits. -/
def unicodeEscape (n : Nat) : List Char := '\\' :: 'u' :: Text.hexDigits 4 n

/-- A character as it stands in a string. -/
def escapeChar (c : Char) : List Char :=
  match c with
  | '\x22' => ['\\', '\x22']
  | '\\' => ['\\', '\\']
  | '\n' => ['\\', 'n']
  | '\r' => ['\\', 'r']
  | '\t' => ['\\', 't']
  | '\x08' => ['\\', 'b']
  | '\x0c' => ['\\', 'f']
  | c =>
    if 32 ≤ c.toNat && c.toNat < 127 then [c]
    else if c.toNat < 0x10000 then unicodeEscape c.toNat
    else
      let n := c.toNat - 0x10000
      unicodeEscape (0xD800 + n / 0x400) ++ unicodeEscape (0xDC00 + n % 0x400)

/-- A string with its quotes. -/
def writeString (s : String) : String :=
  String.ofList ('\x22' :: s.toList.flatMap escapeChar ++ ['\x22'])

/-- How values are laid out. -/
inductive Layout where
  | oneLine
  | indented
  deriving DecidableEq, Repr

/-- What separates the items of an array or object at the given depth, with what precedes the first
and follows the last. -/
def Layout.breaks (layout : Layout) (depth : Nat) : String × String × String :=
  match layout with
  | .oneLine => ("", ", ", "")
  | .indented =>
    let inner := "\n" ++ String.ofList (List.replicate (2 * (depth + 1)) ' ')
    let outer := "\n" ++ String.ofList (List.replicate (2 * depth) ' ')
    (inner, "," ++ inner, outer)

/-- Puts written items between brackets. -/
def bracket (layout : Layout) (depth : Nat) (lead trail : String) (items : List String) : String :=
  if items.isEmpty then lead ++ trail
  else
    let (first, between, last) := layout.breaks depth
    lead ++ first ++ between.intercalate items ++ last ++ trail

mutual

/-- A value at the given depth. -/
def writeAt (layout : Layout) (depth : Nat) : Value → String
  | .null => "null"
  | .bool true => "true"
  | .bool false => "false"
  | .int n => toString n
  | .real (.infinite negative) => if negative then "-Infinity" else "Infinity"
  | .real x => x.toText
  | .nan => "NaN"
  | .str s => writeString s
  | .arr items => bracket layout depth "[" "]" (writeItems layout (depth + 1) items)
  | .obj members => bracket layout depth "\x7b" "\x7d" (writeMembers layout (depth + 1) members)

/-- The items of an array. -/
def writeItems (layout : Layout) (depth : Nat) : List Value → List String
  | [] => []
  | v :: vs => writeAt layout depth v :: writeItems layout depth vs

/-- The members of an object. -/
def writeMembers (layout : Layout) (depth : Nat) : List (String × Value) → List String
  | [] => []
  | (name, v) :: ms =>
    (writeString name ++ ": " ++ writeAt layout depth v) :: writeMembers layout depth ms

end

/-- The text of a value. -/
def write (layout : Layout) (v : Value) : String := writeAt layout 0 v

end TypstLint.Json
