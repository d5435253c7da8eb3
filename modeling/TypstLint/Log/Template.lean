import TypstLint.Json.Value
import TypstLint.Log.Placeholder
import TypstLint.Text.Binary64
import TypstLint.Text.Quoted

set_option autoImplicit false

/-! # Message templates

The message of a log record may be a template with placeholders, which take the values that are given
one after another. If the only value is an object, placeholders can name its members instead. -/

/-! ## Shown values

A message shows a text as it is, and every other value in a notation of its own, in which the texts
inside arrays and objects stand between quotes. -/

namespace TypstLint.Log

open Json (Value)
open Text (Binary64)

mutual

/-- A value with its quotes. -/
def quotedValue : Value → String
  | .null => "None"
  | .bool true => "True"
  | .bool false => "False"
  | .int n => toString n
  | .real x => x.toText
  | .nan => "nan"
  | .str s => Text.quoted s
  | .arr items => "[" ++ ", ".intercalate (quotedItems items) ++ "]"
  | .obj members => "\x7b" ++ ", ".intercalate (quotedMembers members) ++ "\x7d"

/-- The items of an array. -/
def quotedItems : List Value → List String
  | [] => []
  | v :: vs => quotedValue v :: quotedItems vs

/-- The members of an object. -/
def quotedMembers : List (String × Value) → List String
  | [] => []
  | (name, v) :: ms => (Text.quoted name ++ ": " ++ quotedValue v) :: quotedMembers ms

end

/-- A value as it is shown. -/
def shownValue : Value → String
  | .str s => s
  | v => quotedValue v

/-- A character, as an escape if it is no ASCII character. -/
def asciiChar (c : Char) : List Char := if c.toNat < 128 then [c] else Text.escapeCode c

/-- A value with its quotes, written in ASCII. -/
def asciiValue (v : Value) : String := String.ofList ((quotedValue v).toList.flatMap asciiChar)

/-! ## Errors -/

/-- Why a template cannot be filled in. -/
inductive TemplateError where
  /-- There are too few values, too many of them, or one of the wrong kind. -/
  | badValue
  /-- A key names no member. -/
  | missingKey
  /-- A number is beyond what a placeholder can take. -/
  | outOfRange
  /-- A value is written wider than there is room for. -/
  | tooLarge
  /-- The template ends within a placeholder. -/
  | incomplete
  /-- The template ends within a key. -/
  | incompleteKey
  | widthTooBig
  | precisionTooBig
  /-- What is no number has no whole part. -/
  | notNumber
  | unsupported (c : Char) (offset : Nat)
  deriving DecidableEq, Repr

namespace TemplateError

/-- The kind of an error. -/
def label : TemplateError → String
  | badValue => "TypeError"
  | missingKey => "KeyError"
  | outOfRange => "OverflowError"
  | tooLarge => "MemoryError"
  | _ => "ValueError"

/-- A character in the wording of an error. -/
def charInMessage (c : Char) : Char := if 31 ≤ c.toNat && c.toNat ≤ 126 then c else '?'

/-- The wording of an error, if it is told by more than its kind. -/
def message? : TemplateError → Option String
  | badValue | missingKey | outOfRange | tooLarge => none
  | incomplete => some "incomplete format"
  | incompleteKey => some "incomplete format key"
  | widthTooBig => some "width too big"
  | precisionTooBig => some "precision too big"
  | notNumber => some "cannot convert float NaN to integer"
  | unsupported c offset =>
    some ("unsupported format character '" ++ (charInMessage c).toString ++ "' (0x"
      ++ String.ofList (Nat.toDigits 16 c.toNat) ++ s!") at index {offset}")

end TemplateError

/-! ## Numbers -/

/-- How a number is written. -/
structure Written where
  /-- Whether there is a minus sign. -/
  negative : Bool := false
  /-- The mark of the base. -/
  mark : List Char := []
  digits : List Char
  deriving DecidableEq, Repr

/-- A number in capital letters. -/
def Written.toUpper (w : Written) : Written :=
  { w with mark := w.mark.map Char.toUpper, digits := w.digits.map Char.toUpper }

/-- The whole number that a value stands for. -/
def wholeNumber : Value → Except TemplateError Int
  | .int n => .ok n
  | .bool b => .ok b.toInt
  | .real x =>
    match x.towardZero? with
    | some n => .ok n
    | none => .error .outOfRange
  | .nan => .error .notNumber
  | _ => .error .badValue

/-- The integer that a value is. -/
def integer : Value → Except TemplateError Int
  | .int n => .ok n
  | .bool b => .ok b.toInt
  | _ => .error .badValue

/-- The number that a value stands for; nothing for what is no number. -/
def realNumber : Value → Except TemplateError (Option Binary64)
  | .int n =>
    match Binary64.ofInt n with
    | .infinite _ => .error .outOfRange
    | x => .ok (some x)
  | .bool b => .ok (some (.ofInt b.toInt))
  | .real x => .ok (some x)
  | .nan => .ok none
  | _ => .error .badValue

/-- The mark of a base. -/
def markOf (base : Nat) : List Char :=
  if base == 16 then ['0', 'x'] else if base == 8 then ['0', 'o'] else []

/-- An integer with at least `precision` digits. -/
def writeInteger (base precision : Nat) (marked : Bool) (n : Int) : Written :=
  let digits := Nat.toDigits base n.natAbs
  { negative := decide (n < 0)
    mark := if marked then markOf base else []
    digits := List.replicate (precision - digits.length) '0' ++ digits }

/-- A number with a rounded fraction; six digits if there is no precision. -/
def writeReal (layout : Binary64.Layout) (precision : Option Nat) (marked : Bool) :
    Option Binary64 → Written
  | none => { digits := ['n', 'a', 'n'] }
  | some x => { negative := x.isNegative, digits := x.roundedText layout marked (precision.getD 6) }

/-- A character, or the character with a code. -/
def character : Value → Except TemplateError Char
  | .str s =>
    match s.toList with
    | [c] => .ok c
    | _ => .error .badValue
  | v => do
    let code ← integer v
    if 0 ≤ code && code < 0x110000 then return Char.ofNat code.toNat else throw .outOfRange

/-! ## Fitting -/

/-- The sign of a number. -/
def Flags.signOf (flags : Flags) (negative : Bool) : List Char :=
  if negative then ['-'] else if flags.plus then ['+'] else if flags.blank then [' '] else []

/-- Fills up to a width with blanks. -/
def Flags.fitText (flags : Flags) (width : Nat) (cs : List Char) : List Char :=
  let blanks := List.replicate (width - cs.length) ' '
  if flags.left then cs ++ blanks else blanks ++ cs

/-- Fills a number up to a width, with zeros behind its sign or with blanks. -/
def Flags.fitNumber (flags : Flags) (width : Nat) (w : Written) : List Char :=
  let start := flags.signOf w.negative ++ w.mark
  let count := width - start.length - w.digits.length
  if flags.zeros && !flags.left then start ++ List.replicate count '0' ++ w.digits
  else flags.fitText width (start ++ w.digits)

/-- A text without what is beyond a precision. -/
def cutText (precision : Option Nat) (s : String) : List Char :=
  match precision with
  | some n => s.toList.take n
  | none => s.toList

/-! ## Values -/

/-- The values of a template. -/
structure Values where
  /-- The members that keys can name. -/
  named : Option (List (String × Value))
  /-- The values that were not taken yet. -/
  pending : List Value

/-- The values that are given to a template. -/
def Values.ofList : List Value → Values
  | [.obj (m :: ms)] => ⟨some (m :: ms), [.obj (m :: ms)]⟩
  | vs => ⟨none, vs⟩

/-- A step of filling in a template, which takes values. -/
abbrev Filling := StateT Values (Except TemplateError)

namespace Filling

/-- Takes the next value. -/
def next : Filling Value := do
  let values ← get
  match values.pending with
  | v :: rest =>
    set { values with pending := rest }
    return v
  | [] => throw .badValue

/-- Makes the value with a key the next one. -/
def select (key : Key) : Filling Unit := do
  match (← get).named, key with
  | none, _ => throw .badValue
  | some _, .unclosed => throw .incompleteKey
  | some members, .name name =>
    match members.lookup name with
    | some v => set ({ named := some members, pending := [v] } : Values)
    | none => throw .missingKey

/-- The width that a size stands for; one that is negative asks for the left side. -/
def widthOf (flags : Flags) : Option Size → Filling (Flags × Nat)
  | none => return (flags, 0)
  | some (.given n) => if n < 0x8000000000000000 then return (flags, n) else throw .widthTooBig
  | some .next => do
    let n ← integer (← next)
    if 0x8000000000000000 ≤ n.natAbs then throw .outOfRange
    return ({ flags with left := flags.left || decide (n < 0) }, n.natAbs)

/-- The precision that a size stands for; one that is negative counts as zero. -/
def precisionOf : Option Size → Filling (Option Nat)
  | none => return none
  | some (.given n) => if n < 0x80000000 then return some n else throw .precisionTooBig
  | some .next => do
    let n ← integer (← next)
    if 0x80000000 ≤ n.natAbs then throw .outOfRange
    return some n.toNat

end Filling

/-- The number of characters for which there is room. -/
def maxLength : Nat := 0x40000000

/-- The width that is filled, if there is room for it. -/
def room (n : Nat) : Except TemplateError Nat := if n < maxLength then .ok n else .error .tooLarge

/-! ## Conversions -/

/-- How a value is written. -/
inductive Conversion where
  | shown
  | quoted
  | ascii
  | whole
  | based (base : Nat) (upper : Bool)
  | real (layout : Binary64.Layout) (upper : Bool)
  | character
  deriving DecidableEq, Repr

/-- The conversion of a letter. -/
def Conversion.ofLetter? : Char → Option Conversion
  | 's' => some .shown
  | 'r' => some .quoted
  | 'a' => some .ascii
  | 'd' | 'i' | 'u' => some .whole
  | 'o' => some (.based 8 false)
  | 'x' => some (.based 16 false)
  | 'X' => some (.based 16 true)
  | 'f' => some (.real .fixed false)
  | 'F' => some (.real .fixed true)
  | 'e' => some (.real .scientific false)
  | 'E' => some (.real .scientific true)
  | 'g' => some (.real .general false)
  | 'G' => some (.real .general true)
  | 'c' => some .character
  | _ => none

/-- Writes a value. -/
def Conversion.write (c : Conversion) (flags : Flags) (width : Nat) (precision : Option Nat)
    (v : Value) : Except TemplateError (List Char) := do
  let number (upper : Bool) (w : Written) : Except TemplateError (List Char) := do
    return flags.fitNumber (← room width) (if upper then w.toUpper else w)
  let text (cs : List Char) : Except TemplateError (List Char) := do
    return flags.fitText (← room width) cs
  match c with
  | .shown => text (cutText precision (shownValue v))
  | .quoted => text (cutText precision (quotedValue v))
  | .ascii => text (cutText precision (asciiValue v))
  | .character => text [← Log.character v]
  | .whole =>
    let n ← wholeNumber v
    number false (writeInteger 10 (← room (precision.getD 0)) false n)
  | .based base upper =>
    let n ← integer v
    number upper (writeInteger base (← room (precision.getD 0)) flags.marked n)
  | .real layout upper =>
    let x ← realNumber v
    let _ ← room (precision.getD 0)
    number upper (writeReal layout precision flags.marked x)

/-! ## Templates -/

namespace Filling

/-- Writes what a placeholder stands for. -/
def ending (flags : Flags) (width : Nat) (precision : Option Nat) : Ending → Filling (List Char)
  | .incomplete => throw .incomplete
  | .letter c offset => do
    let v ← next
    match Conversion.ofLetter? c with
    | some conversion => conversion.write flags width precision v
    | none => throw (.unsupported c offset)

/-- Fills in a placeholder. -/
def placeholder (p : Placeholder) : Filling (List Char) := do
  match p.key with
  | some key => select key
  | none => pure ()
  let (flags, width) ← widthOf p.flags p.width
  let precision ← precisionOf p.precision
  let written ← ending flags width precision p.ending
  let values ← get
  if values.named.isSome && !values.pending.isEmpty then throw .badValue
  return written

/-- Fills in a piece of a template. -/
def piece : Piece → Filling (List Char)
  | .text cs => return cs
  | .placeholder p => placeholder p

end Filling

/-- A message made from a template. Without values the template is the message. -/
def fill (template : String) (values : List Value) : Except TemplateError String := do
  if values.isEmpty then return template
  let (written, rest) ← ((pieces template.toList).mapM Filling.piece).run (.ofList values)
  if rest.named.isNone && !rest.pending.isEmpty then throw .badValue
  return String.ofList written.flatten

end TypstLint.Log
