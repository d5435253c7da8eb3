import TypstLint.Text.Blank

set_option autoImplicit false

/-! # Lines

A line ends with a line feed, a carriage return, the two together, or one of the other line and
paragraph separators. `lines` keeps the terminators, so the lines put together give the text again. -/

namespace TypstLint.Text

/-- Whether `c` ends a line. -/
def isLineEnd (c : Char) : Bool :=
  c == '\n' || c == '\r' || c == '\x0b' || c == '\x0c' || c == '\x1c' || c == '\x1d' ||
    c == '\x1e' || c == '\u0085' || c == '\u2028' || c == '\u2029'

/-- The lines of `c` followed by a text with the given lines. -/
def consLine (c : Char) : List (List Char) → List (List Char)
  | [] => [[c]]
  | line :: rest =>
    if c == '\r' && line.head? == some '\n' then (c :: line) :: rest
    else if isLineEnd c then [c] :: line :: rest
    else (c :: line) :: rest

/-- The lines of a text, each with its terminator. -/
def lines (cs : List Char) : List (List Char) := cs.foldr consLine []

/-- The lines are the text, cut. -/
theorem flatten_lines (cs : List Char) : (lines cs).flatten = cs := by
  induction cs with
  | nil => rfl
  | cons c cs ih =>
    have h : ∀ ls : List (List Char), (consLine c ls).flatten = c :: ls.flatten := by
      intro ls
      cases ls with
      | nil => rfl
      | cons line rest =>
        simp only [consLine]
        split
        · rfl
        · split <;> rfl
    simpa [lines, h] using ih

/-- The lines of a text, each without its terminator. -/
def lineBodies (cs : List Char) : List (List Char) := (lines cs).map (dropEndWhile isLineEnd)

/-- A text with each carriage return that stands before a line feed left out. -/
def joinBreaks (cs : List Char) : List Char :=
  ((cs.zip (cs.drop 1 ++ [' '])).filter (· != ('\r', '\n'))).map Prod.fst

/-- Carriage returns, alone or before a line feed, read as line feeds. -/
def unifyNewlines (cs : List Char) : List Char :=
  (joinBreaks cs).map fun c => if c == '\r' then '\n' else c

end TypstLint.Text
