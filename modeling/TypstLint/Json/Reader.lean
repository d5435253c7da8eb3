import TypstLint.Assoc
import TypstLint.Json.Value
import TypstLint.Text.Encoding
import TypstLint.Text.Numeral

set_option autoImplicit false

/-! # Reading JSON

A text holds one value between blanks. An error names what was expected and the place, as line,
column and offset. Besides the standard, `NaN`, `Infinity` and `-Infinity` are numbers. -/

namespace TypstLint.Json

/-- What is wrong with a text. -/
inductive Cause where
  | expectingValue
  | expectingName
  | expectingColon
  | expectingComma
  | extraData
  | unterminatedString
  | controlCharacter
  | badEscape
  | badUnicodeEscape
  deriving DecidableEq, Repr

/-- The wording of a cause. -/
def Cause.message : Cause → String
  | .expectingValue => "Expecting value"
  | .expectingName => "Expecting property name enclosed in double quotes"
  | .expectingColon => "Expecting ':' delimiter"
  | .expectingComma => "Expecting ',' delimiter"
  | .extraData => "Extra data"
  | .unterminatedString => "Unterminated string starting at"
  | .controlCharacter => "Invalid control character at"
  | .badEscape => "Invalid \\escape"
  | .badUnicodeEscape => "Invalid \\uXXXX escape"

/-- Why a text could not be read. -/
inductive ReadError where
  /-- The text is no JSON from an offset on. -/
  | malformed (cause : Cause) (offset : Nat)
  /-- An integer has too many digits. -/
  | numeralTooLong (digits : Nat)
  /-- Arrays and objects are nested too deeply. -/
  | tooDeep
  deriving DecidableEq, Repr

/-- How deeply arrays and objects may be nested. -/
def maxDepth : Nat := 985

/-- The message about malformed text: cause, line, column and offset. -/
def malformedMessage (text : List Char) (cause : Cause) (offset : Nat) : String :=
  let before := text.take offset
  let line := before.count '\n' + 1
  let column := (before.reverse.takeWhile (· != '\n')).length + 1
  s!"{cause.message}: line {line} column {column} (char {offset})"

/-- What is left of a text, and the offset at which it starts. -/
structure Cursor where
  offset : Nat
  rest : List Char

/-- Whether `c` may stand between the elements of a value. -/
def isSpace (c : Char) : Bool := c == ' ' || c == '\t' || c == '\n' || c == '\r'

/-- Skips the space before the next element. -/
def Cursor.skipSpace (cur : Cursor) : Cursor :=
  let n := (cur.rest.takeWhile isSpace).length
  ⟨cur.offset + n, cur.rest.drop n⟩

/-! ## Strings -/

/-- The value of four hexadecimal digits. -/
def hex4? (a b c d : Char) : Option Nat := do
  let a ← Text.digitValue? 16 a
  let b ← Text.digitValue? 16 b
  let c ← Text.digitValue? 16 c
  let d ← Text.digitValue? 16 d
  return ((a * 16 + b) * 16 + c) * 16 + d

/-- The character of an escape of one letter. -/
def simpleEscape? : Char → Option Char
  | '\x22' => some '\x22'
  | '\\' => some '\\'
  | '/' => some '/'
  | 'b' => some '\x08'
  | 'f' => some '\x0c'
  | 'n' => some '\n'
  | 'r' => some '\r'
  | 't' => some '\t'
  | _ => none

/-- The character of a code unit; half of a surrogate pair reads as a replacement character. -/
def unitChar (n : Nat) : Char := if 0xD800 ≤ n && n < 0xE000 then '\ufffd' else Char.ofNat n

/-- The value of the four hexadecimal digits at the start of a text, if a further character follows. -/
def codeUnit? : List Char → Option Nat
  | a :: b :: c :: d :: _ :: _ => hex4? a b c d
  | _ => none

/-- Whether `n` is the first half of a surrogate pair. -/
def isHighHalf (n : Nat) : Bool := 0xD800 ≤ n && n < 0xDC00

/-- Whether `n` is the second half of a surrogate pair. -/
def isLowHalf (n : Nat) : Bool := 0xDC00 ≤ n && n < 0xE000

/-- The escape whose `u` stands before `rest`: its character and its length behind the `u`, or how far
behind the `u` the escape at fault starts. -/
def readUnicode (rest : List Char) : Except Nat (Char × Nat) :=
  match codeUnit? rest with
  | none => .error 0
  | some high =>
    match rest.drop 4 with
    | '\\' :: 'u' :: second =>
      if isHighHalf high && 4 < second.length then
        match codeUnit? second with
        | none => .error 6
        | some low =>
          if isLowHalf low then
            .ok (Char.ofNat (0x10000 + (high - 0xD800) * 0x400 + (low - 0xDC00)), 10)
          else .ok (unitChar high, 4)
      else .ok (unitChar high, 4)
    | _ => .ok (unitChar high, 4)

/-- Reads the inside of a string that was opened at `start`. `skip` characters belong to an escape that
was read before; `done` holds the characters of the value so far, last first. -/
def readString (start offset skip : Nat) (done : List Char) :
    List Char → Except ReadError (String × Cursor)
  | [] => .error (.malformed .unterminatedString start)
  | c :: rest =>
    match skip with
    | skip + 1 => readString start (offset + 1) skip done rest
    | 0 =>
      if c == '\x22' then .ok (String.ofList done.reverse, ⟨offset + 1, rest⟩)
      else if c == '\\' then
        match rest.head? with
        | none => .error (.malformed .unterminatedString start)
        | some 'u' =>
          match readUnicode (rest.drop 1) with
          | .ok (c, length) => readString start (offset + 1) (length + 1) (c :: done) rest
          | .error shift => .error (.malformed .badUnicodeEscape (offset + 1 + shift))
        | some e =>
          match simpleEscape? e with
          | some c => readString start (offset + 1) 1 (c :: done) rest
          | none => .error (.malformed .badEscape offset)
      else if c.toNat < 32 then .error (.malformed .controlCharacter offset)
      else readString start (offset + 1) 0 (c :: done) rest

/-! ## Numbers -/

/-- The digits at the start of a text. -/
def digitsOf (cs : List Char) : List Char := cs.takeWhile Char.isDigit

/-- The whole part of a number: a zero, or digits that start with another one. -/
def wholePart? (cs : List Char) : Option (List Char) :=
  match cs with
  | [] => none
  | c :: _ => if c == '0' then some ['0'] else if c.isDigit then some (digitsOf cs) else none

/-- The fraction at the start of a text: the digits behind a point. -/
def fractionPart (cs : List Char) : List Char :=
  match cs with
  | '.' :: rest => digitsOf rest
  | _ => []

/-- The length of a sign at the start of a text. -/
def signLength (signs : List Char) (cs : List Char) : Nat :=
  match cs with
  | c :: _ => if signs.contains c then 1 else 0
  | [] => 0

/-- The exponent at the start of a text: its value and its length; no length if there is none. -/
def exponentPart (cs : List Char) : Int × Nat :=
  match cs with
  | [] => (0, 0)
  | e :: rest =>
    let sign := signLength ['+', '-'] rest
    let digits := digitsOf (rest.drop sign)
    if (e == 'e' || e == 'E') && !digits.isEmpty then
      let n : Int := Text.digitsValue digits
      (if rest.head? == some '-' then -n else n, 1 + sign + digits.length)
    else (0, 0)

/-- Reads a number. -/
def readNumber (cur : Cursor) : Except ReadError (Value × Cursor) :=
  let sign := signLength ['-'] cur.rest
  let negative := sign == 1
  let rest := cur.rest.drop sign
  match wholePart? rest with
  | none => .error (.malformed .expectingValue cur.offset)
  | some whole =>
    let rest := rest.drop whole.length
    let fraction := fractionPart rest
    let fractionLength := if fraction.isEmpty then 0 else fraction.length + 1
    let rest := rest.drop fractionLength
    let (exponent, exponentLength) := exponentPart rest
    let length := sign + whole.length + fractionLength + exponentLength
    let next : Cursor := ⟨cur.offset + length, rest.drop exponentLength⟩
    if fractionLength == 0 && exponentLength == 0 then
      if Text.maxDigits < whole.length then .error (.numeralTooLong whole.length)
      else
        let n : Int := Text.digitsValue whole
        .ok (.int (if negative then -n else n), next)
    else
      let x := Text.Binary64.ofDecimal negative (Text.digitsValue (whole ++ fraction))
        (exponent - fraction.length)
      .ok (.real x, next)

/-! ## Values -/

/-- The words that stand for values. -/
def namedValues : List (String × Value) :=
  [("null", .null), ("true", .bool true), ("false", .bool false), ("NaN", .nan),
   ("Infinity", .real (.infinite false)), ("-Infinity", .real (.infinite true))]

/-- Reads a word that stands for a value. -/
def readNamed? (cur : Cursor) : Option (Value × Cursor) :=
  (namedValues.find? fun (w, _) => w.toList.isPrefixOf cur.rest).map fun (w, v) =>
    (v, ⟨cur.offset + w.length, cur.rest.drop w.length⟩)

mutual

/-- Reads a value inside `depth` arrays and objects. `fuel` bounds the number of characters and
elements that are still to be read. -/
def readValue (fuel depth : Nat) (cur : Cursor) : Except ReadError (Value × Cursor) :=
  match fuel with
  | 0 => .error (.malformed .expectingValue cur.offset)
  | fuel + 1 =>
    match cur.rest with
    | [] => .error (.malformed .expectingValue cur.offset)
    | c :: rest =>
      if c == '\x22' then do
        let (s, next) ← readString cur.offset (cur.offset + 1) 0 [] rest
        return (.str s, next)
      else if c == '[' then
        if maxDepth ≤ depth then .error .tooDeep
        else
          let next := Cursor.skipSpace ⟨cur.offset + 1, rest⟩
          match next.rest with
          | ']' :: rest => .ok (.arr [], ⟨next.offset + 1, rest⟩)
          | _ => readItems fuel (depth + 1) [] next
      else if c == '\x7b' then
        if maxDepth ≤ depth then .error .tooDeep
        else
          let next := Cursor.skipSpace ⟨cur.offset + 1, rest⟩
          match next.rest with
          | '\x7d' :: rest => .ok (.obj [], ⟨next.offset + 1, rest⟩)
          | _ => readMembers fuel (depth + 1) [] next
      else
        match readNamed? cur with
        | some found => .ok found
        | none => readNumber cur

/-- Reads the items of an array from the first one that is left; `done` holds those before it, last
first. -/
def readItems (fuel depth : Nat) (done : List Value) (cur : Cursor) :
    Except ReadError (Value × Cursor) :=
  match fuel with
  | 0 => .error (.malformed .expectingValue cur.offset)
  | fuel + 1 =>
    match readValue fuel depth cur with
    | .error e => .error e
    | .ok (v, next) =>
      let next := next.skipSpace
      match next.rest with
      | ']' :: rest => .ok (.arr (v :: done).reverse, ⟨next.offset + 1, rest⟩)
      | ',' :: rest => readItems fuel depth (v :: done) (Cursor.skipSpace ⟨next.offset + 1, rest⟩)
      | _ => .error (.malformed .expectingComma next.offset)

/-- Reads the members of an object from the first one that is left. -/
def readMembers (fuel depth : Nat) (done : List (String × Value)) (cur : Cursor) :
    Except ReadError (Value × Cursor) :=
  match fuel with
  | 0 => .error (.malformed .expectingName cur.offset)
  | fuel + 1 =>
    match cur.rest with
    | '\x22' :: rest =>
      match readString cur.offset (cur.offset + 1) 0 [] rest with
      | .error e => .error e
      | .ok (name, next) =>
        let next := next.skipSpace
        match next.rest with
        | ':' :: rest =>
          match readValue fuel depth (Cursor.skipSpace ⟨next.offset + 1, rest⟩) with
          | .error e => .error e
          | .ok (v, next) =>
            let next := next.skipSpace
            let done := Assoc.set done name v
            match next.rest with
            | '\x7d' :: rest => .ok (.obj done, ⟨next.offset + 1, rest⟩)
            | ',' :: rest => readMembers fuel depth done (Cursor.skipSpace ⟨next.offset + 1, rest⟩)
            | _ => .error (.malformed .expectingComma next.offset)
        | _ => .error (.malformed .expectingColon next.offset)
    | _ => .error (.malformed .expectingName cur.offset)

end

/-- Reads a text that holds one value. -/
def read (text : List Char) : Except ReadError Value := do
  let (v, next) ← readValue (2 * text.length + 2) 0 (Cursor.skipSpace ⟨0, text⟩)
  let next := next.skipSpace
  if next.rest.isEmpty then return v else .error (.malformed .extraData next.offset)

end TypstLint.Json
