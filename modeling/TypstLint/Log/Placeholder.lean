import TypstLint.Text.Character

set_option autoImplicit false

/-! # Placeholders

A template is text with placeholders in it. A placeholder starts with a percent sign; then come, each of
which may be missing, a key in parentheses, flags, a width, a precision behind a point and a letter that
has no meaning; at the end there is a letter that says how a value is written. A size may be an asterisk,
which stands for the next value. -/

namespace TypstLint.Log

/-! ## Parts -/

/-- A width or a precision. -/
inductive Size where
  | given (n : Nat)
  /-- The next value is the size. -/
  | next
  deriving DecidableEq, Repr

/-- How a value is fitted into its width, and what is added to a number. -/
structure Flags where
  /-- Whether the value stands at the left. -/
  left : Bool := false
  /-- Whether a number that is not negative has a plus sign. -/
  plus : Bool := false
  /-- Whether a number that is not negative has a blank in place of a sign. -/
  blank : Bool := false
  /-- Whether the base of a number is marked, and its point is kept. -/
  marked : Bool := false
  /-- Whether a number is filled up with zeros. -/
  zeros : Bool := false
  deriving DecidableEq, Repr

/-- A key in parentheses. -/
inductive Key where
  | name (text : String)
  /-- The template ends within the key. -/
  | unclosed
  deriving DecidableEq, Repr

/-- How a placeholder ends. -/
inductive Ending where
  /-- With a letter, which has an offset in the template. -/
  | letter (c : Char) (offset : Nat)
  /-- With the template. -/
  | incomplete
  deriving DecidableEq, Repr

/-- A placeholder. -/
structure Placeholder where
  key : Option Key
  flags : Flags
  width : Option Size
  precision : Option Size
  ending : Ending
  deriving DecidableEq, Repr

/-- A piece of a template. -/
inductive Piece where
  | text (cs : List Char)
  | placeholder (p : Placeholder)
  deriving DecidableEq, Repr

/-! ## Reading -/

/-- Reads a key up to the parenthesis that closes it. `depth` counts the parentheses that are open inside
it, and `done` holds its characters so far, the last one first. -/
def readKey (depth : Nat) (done : List Char) : List Char → Key × List Char
  | [] => (.unclosed, [])
  | ')' :: cs =>
    match depth with
    | 0 => (.name (String.ofList done.reverse), cs)
    | depth + 1 => readKey depth (')' :: done) cs
  | '(' :: cs => readKey (depth + 1) ('(' :: done) cs
  | c :: cs => readKey depth (c :: done) cs

/-- Reads a key, if there is one. -/
def readKey? : List Char → Option Key × List Char
  | '(' :: cs => (some (readKey 0 [] cs).1, (readKey 0 [] cs).2)
  | cs => (none, cs)

/-- Reads flags. -/
def readFlags (flags : Flags) : List Char → Flags × List Char
  | '-' :: cs => readFlags { flags with left := true } cs
  | '+' :: cs => readFlags { flags with plus := true } cs
  | ' ' :: cs => readFlags { flags with blank := true } cs
  | '#' :: cs => readFlags { flags with marked := true } cs
  | '0' :: cs => readFlags { flags with zeros := true } cs
  | cs => (flags, cs)

/-- Reads digits, if there are any. -/
def readCount (cs : List Char) : Option Nat × List Char :=
  let digits := cs.takeWhile Char.isDigit
  (if digits.isEmpty then none else some (Text.digitsValue digits), cs.dropWhile Char.isDigit)

/-- Reads a size, if there is one. -/
def readSize : List Char → Option Size × List Char
  | '*' :: cs => (some .next, cs)
  | cs => ((readCount cs).1.map .given, (readCount cs).2)

/-- Reads a precision, if there is one. A point alone stands for a precision of zero. -/
def readPrecision : List Char → Option Size × List Char
  | '.' :: cs => (some ((readSize cs).1.getD (.given 0)), (readSize cs).2)
  | cs => (none, cs)

/-- Passes over the letter that has no meaning. -/
def skipLength : List Char → List Char
  | 'h' :: cs | 'l' :: cs | 'L' :: cs => cs
  | cs => cs

/-- Reads the end of a placeholder, where a template of a given length ends with `cs`. -/
def readEnding (length : Nat) : List Char → Ending × List Char
  | [] => (.incomplete, [])
  | c :: cs => (.letter c (length - cs.length - 1), cs)

/-- Reads a placeholder behind its percent sign. -/
def readPlaceholder (length : Nat) (cs : List Char) : Placeholder × List Char :=
  let (key, cs) := readKey? cs
  let (flags, cs) := readFlags {} cs
  let (width, cs) := readSize cs
  let (precision, cs) := readPrecision cs
  let (ending, cs) := readEnding length (skipLength cs)
  (⟨key, flags, width, precision, ending⟩, cs)

/-! ## Readers go forward -/

theorem readKey_suffix (depth : Nat) (done cs : List Char) : (readKey depth done cs).2 <:+ cs := by
  fun_induction readKey depth done cs with
  | case1 => exact List.suffix_refl _
  | case2 => exact List.suffix_cons _ _
  | case3 _ _ _ ih | case4 _ _ _ ih | case5 _ _ _ _ _ _ ih => exact ih.trans (List.suffix_cons _ _)

theorem readKey?_suffix (cs : List Char) : (readKey? cs).2 <:+ cs := by
  unfold readKey?
  split
  · exact (readKey_suffix _ _ _).trans (List.suffix_cons _ _)
  · exact List.suffix_refl _

theorem readFlags_suffix (flags : Flags) (cs : List Char) : (readFlags flags cs).2 <:+ cs := by
  fun_induction readFlags flags cs with
  | case6 => exact List.suffix_refl _
  | case1 _ _ ih | case2 _ _ ih | case3 _ _ ih | case4 _ _ ih | case5 _ _ ih =>
    exact ih.trans (List.suffix_cons _ _)

theorem readSize_suffix (cs : List Char) : (readSize cs).2 <:+ cs := by
  unfold readSize
  split
  · exact List.suffix_cons _ _
  · exact List.dropWhile_suffix _

theorem readPrecision_suffix (cs : List Char) : (readPrecision cs).2 <:+ cs := by
  unfold readPrecision
  split
  · exact (readSize_suffix _).trans (List.suffix_cons _ _)
  · exact List.suffix_refl _

theorem skipLength_suffix (cs : List Char) : skipLength cs <:+ cs := by
  unfold skipLength
  split
  · exact List.suffix_cons _ _
  · exact List.suffix_cons _ _
  · exact List.suffix_cons _ _
  · exact List.suffix_refl _

theorem readEnding_suffix (length : Nat) (cs : List Char) : (readEnding length cs).2 <:+ cs := by
  unfold readEnding
  split
  · exact List.suffix_refl _
  · exact List.suffix_cons _ _

/-- What is behind a placeholder is an end of what was read. -/
theorem readPlaceholder_suffix (length : Nat) (cs : List Char) :
    (readPlaceholder length cs).2 <:+ cs :=
  (readEnding_suffix _ _).trans <| (skipLength_suffix _).trans <| (readPrecision_suffix _).trans <|
    (readSize_suffix _).trans <| (readFlags_suffix _ _).trans <| readKey?_suffix _

/-! ## Templates -/

/-- The pieces of the rest of a template, where the whole template has a given length. Two percent signs
stand for one. -/
def piecesFrom (length : Nat) : List Char → List Piece
  | [] => []
  | '%' :: '%' :: cs => .text ['%'] :: piecesFrom length cs
  | '%' :: cs =>
    .placeholder (readPlaceholder length cs).1 :: piecesFrom length (readPlaceholder length cs).2
  | c :: cs => .text (c :: cs.takeWhile (· != '%')) :: piecesFrom length (cs.dropWhile (· != '%'))
termination_by cs => cs.length
decreasing_by
  · simp only [List.length_cons]
    omega
  · have := (readPlaceholder_suffix length cs).length_le
    simp only [List.length_cons]
    omega
  · have := (List.dropWhile_suffix (l := cs) (· != '%')).length_le
    simp only [List.length_cons]
    omega

/-- The pieces of a template. -/
def pieces (template : List Char) : List Piece := piecesFrom template.length template

end TypstLint.Log
