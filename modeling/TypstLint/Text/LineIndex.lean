set_option autoImplicit false

/-! # Lines and columns

The line and the column of an offset, both counted from one. Only line feeds end lines here. Offsets
outside the text are counted from the start of the first or of the last line; those before the text
count from the last one. -/

namespace TypstLint.Text

/-- The offsets at which the lines after the first one start, if the text starts at `offset`. -/
def startsAfterBreaks (offset : Nat) (starts : List Nat) : List Char → List Nat
  | [] => starts.reverse
  | c :: rest =>
    let starts := if c == '\n' then (offset + 1) :: starts else starts
    startsAfterBreaks (offset + 1) starts rest

/-- The offsets at which the lines of a text start. -/
def lineStarts (cs : List Char) : List Nat := 0 :: startsAfterBreaks 0 [] cs

/-- The line and the column of an offset, given the starts of the lines. -/
def placeOf (starts : List Nat) (offset : Int) : Int × Int :=
  let upTo := starts.takeWhile fun (start : Nat) => decide (Int.ofNat start ≤ offset)
  let start := (upTo.getLast? <|> starts.getLast?).getD 0
  (upTo.length, offset - start + 1)

/-- The line and the column of an offset in a text. -/
def lineCol (cs : List Char) (offset : Int) : Int × Int := placeOf (lineStarts cs) offset

end TypstLint.Text
