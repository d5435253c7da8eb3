import TypstLint.Text.Character

set_option autoImplicit false

/-! # A place in a text

A `Cursor` stands between the characters that were read, last one first, and those that are left. So
moving on by a character takes one step, and what stands before is at hand without a position to look it
up by. -/

namespace TypstLint.Markup

/-- A place in a text. -/
structure Cursor where
  pos : Nat
  past : List Char
  rest : List Char
  pos_eq : pos = past.length := by rfl

namespace Cursor

/-- The start of a text. -/
def ofText (text : List Char) : Cursor where
  pos := 0
  past := []
  rest := text

/-- The text around a cursor. -/
def text (cur : Cursor) : List Char := cur.past.reverse ++ cur.rest

/-- The length of the text around a cursor. -/
def size (cur : Cursor) : Nat := cur.pos + cur.rest.length

/-- The place behind the next character. -/
def next (cur : Cursor) : Cursor :=
  match cur.rest with
  | [] => cur
  | c :: rest =>
    { pos := cur.pos + 1, past := c :: cur.past, rest, pos_eq := by simp [cur.pos_eq] }

/-- The place behind the next `n` characters, or the end of the text. -/
def advance : Nat → Cursor → Cursor
  | 0, cur => cur
  | n + 1, cur => advance n cur.next

/-- The place behind the characters that all satisfy `p`. -/
def skipWhile (p : Char → Bool) (cur : Cursor) : Cursor :=
  advance (cur.rest.takeWhile p).length cur

/-- The end of the text. -/
def atEnd (cur : Cursor) : Cursor := advance cur.rest.length cur

/-- Whether the next character is `c`. -/
def meets (c : Char) (cur : Cursor) : Bool := cur.rest.head? == some c

/-- Moving keeps the text. -/
@[simp] theorem text_next (cur : Cursor) : cur.next.text = cur.text := by
  unfold next
  split
  · rfl
  · rename_i c rest h
    simp [text, h]

@[simp] theorem text_advance (n : Nat) (cur : Cursor) : (advance n cur).text = cur.text := by
  induction n generalizing cur with
  | zero => rfl
  | succ n ih => simp [advance, ih]

end Cursor

/-! ## Identifiers and blanks -/

/-- Whether an identifier may start with `c`. -/
def isIdentStart (c : Char) : Bool := Text.isLetter c || c == '_'

/-- Whether an identifier may go on with `c`. -/
def isIdentContinue (c : Char) : Bool := Text.isAlphanumeric c || c == '_' || c == '-'

/-- The identifier at the start of a text; empty if there is none. -/
def identOf (cs : List Char) : List Char :=
  match cs with
  | [] => []
  | c :: rest => if isIdentStart c then c :: rest.takeWhile isIdentContinue else []

/-- The words that start a statement after `#`. -/
def statementKeywords : List String :=
  ["let", "set", "show", "import", "include", "if", "for", "while", "return", "context", "break",
   "continue"]

/-- Whether `c` is a blank within a line of code. -/
def isInlineBlank (c : Char) : Bool := c == ' ' || c == '\t'

/-- Whether `c` is a blank of code. -/
def isCodeBlank (c : Char) : Bool := isInlineBlank c || c == '\r' || c == '\n'

/-- The place behind the blanks of a line. -/
def Cursor.skipBlanks (cur : Cursor) : Cursor := cur.skipWhile isInlineBlank

end TypstLint.Markup
