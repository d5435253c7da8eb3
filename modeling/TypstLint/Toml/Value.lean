import TypstLint.Text.Blank
import TypstLint.Text.Numeral

set_option autoImplicit false

/-! # TOML values

A number, a word or a date is one run of characters; these functions say which runs have which
meaning. Digits may be grouped by single underscores. -/

namespace TypstLint.Toml

/-- A value of a TOML document. Floats and dates keep the way they are written. -/
inductive Value where
  | string (s : String)
  | integer (n : Int)
  | float (text : String)
  | boolean (b : Bool)
  | dateTime (text : String)
  | array (items : List Value)
  | table (members : List (String × Value))

/-- The member of a table with a name. -/
def Value.get? : Value → String → Option Value
  | .table members, name => members.lookup name
  | _, _ => none

/-- The digits of a row whose groups are joined by single underscores. -/
def grouped? (isDigit : Char → Bool) (cs : List Char) : Option (List Char) :=
  let groups := Text.splitOn '_' cs
  if groups.all fun g => !g.isEmpty && g.all isDigit then some groups.flatten else none

/-- The number written by digits of a base. -/
def valueOf (base : Nat) (digits : List Char) : Nat :=
  digits.foldl (fun n c => n * base + (Text.digitValue? base c).getD 0) 0

/-- Whether `c` is an ASCII digit of a base. -/
def isDigitOf (base : Nat) (c : Char) : Bool := c.toNat < 128 && (Text.digitValue? base c).isSome

/-! ## Numbers -/

/-- A decimal number without sign: only zero itself starts with a zero. -/
def decimal? (cs : List Char) : Option Nat := do
  let digits ← grouped? (isDigitOf 10) cs
  if digits.head? == some '0' && digits.length != 1 then none else some (valueOf 10 digits)

/-- A number in base 16, 8 or 2, behind the mark of its base. -/
def based? (cs : List Char) : Option Nat :=
  match cs with
  | '0' :: mark :: digits => do
    let base ← match mark with
      | 'x' => some 16
      | 'o' => some 8
      | 'b' => some 2
      | _ => none
    return valueOf base (← grouped? (isDigitOf base) digits)
  | _ => none

/-- An integer. -/
def integer? (cs : List Char) : Option Int :=
  match cs with
  | '+' :: rest => (decimal? rest).map (Int.ofNat ·)
  | '-' :: rest => (decimal? rest).map (-Int.ofNat ·)
  | _ => (based? cs <|> decimal? cs).map (Int.ofNat ·)

/-- A text without its sign. -/
def dropSign (cs : List Char) : List Char :=
  match cs with
  | '+' :: rest => rest
  | '-' :: rest => rest
  | _ => cs

/-- Whether a text is a float: a whole part with a fraction, an exponent or both, or one of the words
for infinity and for no number. -/
def isFloat (cs : List Char) : Bool :=
  let body := dropSign cs
  let (mantissa, exponent) :=
    (body.takeWhile fun c => c != 'e' && c != 'E', body.dropWhile fun c => c != 'e' && c != 'E')
  let (whole, fraction) := Text.cut '.' mantissa
  let hasParts := fraction.isSome || !exponent.isEmpty
  body == "inf".toList || body == "nan".toList
    || (hasParts && (decimal? whole).isSome
      && (fraction.all fun f => (grouped? (isDigitOf 10) f).isSome)
      && (exponent.isEmpty || (grouped? (isDigitOf 10) (dropSign (exponent.drop 1))).isSome))

/-! ## Dates and times -/

/-- The value of a row of exactly `width` digits. -/
def fixed? (width : Nat) (cs : List Char) : Option Nat :=
  if cs.length == width && cs.all (isDigitOf 10) then some (valueOf 10 cs) else none

/-- The number of days of a month. -/
def daysOfMonth (year month : Nat) : Nat :=
  if month == 2 then
    if year % 4 == 0 && (year % 100 != 0 || year % 400 == 0) then 29 else 28
  else if month == 4 || month == 6 || month == 9 || month == 11 then 30
  else 31

/-- Whether a text is a date: year, month and day of the calendar. -/
def isDate (cs : List Char) : Bool :=
  match (Text.splitOn '-' cs) with
  | [year, month, day] =>
    match fixed? 4 year, fixed? 2 month, fixed? 2 day with
    | some y, some m, some d => 1 ≤ y && 1 ≤ m && m ≤ 12 && 1 ≤ d && d ≤ daysOfMonth y m
    | _, _, _ => false
  | _ => false

/-- Whether a text is an hour and a minute, the hour below 24. -/
def isClock (hour minute : List Char) : Bool :=
  match fixed? 2 hour, fixed? 2 minute with
  | some h, some m => h < 24 && m < 60
  | _, _ => false

/-- Whether a text is a time of day: hour, minute and second, which may have a fraction. -/
def isTime (cs : List Char) : Bool :=
  match Text.splitOn ':' cs with
  | [hour, minute, second] =>
    let (whole, fraction) := Text.cut '.' second
    isClock hour minute
      && (match fixed? 2 whole with
        | some s => s < 60
        | none => false)
      && (fraction.all fun f => !f.isEmpty && f.all (isDigitOf 10))
  | _ => false

/-- Whether a text is a time of day that may end with its distance from universal time. -/
def isZonedTime (cs : List Char) : Bool :=
  let isZoneMark := fun c => c == '+' || c == '-' || c == 'Z' || c == 'z'
  let time := cs.takeWhile (!isZoneMark ·)
  isTime time &&
    match cs.drop time.length with
    | [] => true
    | mark :: distance =>
      if mark == 'Z' || mark == 'z' then distance.isEmpty
      else match Text.splitOn ':' distance with
        | [hour, minute] => isClock hour minute
        | _ => false

/-- Whether a text is a date, a time, or both with a `T` between them. -/
def isDateTime (cs : List Char) : Bool :=
  isDate cs || isTime cs
    || (isDate (cs.take 10) && (cs.drop 10).head?.any (fun c => c == 'T' || c == 't')
      && isZonedTime (cs.drop 11))

/-! ## Runs -/

/-- Whether `c` may stand in a number, a word or a date. -/
def isScalarChar (c : Char) : Bool :=
  c.isAlphanum || c == '+' || c == '-' || c == '.' || c == '_' || c == ':'

/-- The value that a run of characters stands for. -/
def scalar? (cs : List Char) : Option Value :=
  if cs == "true".toList then some (.boolean true)
  else if cs == "false".toList then some (.boolean false)
  else
    match integer? cs with
    | some n => some (.integer n)
    | none =>
      if isFloat cs then some (.float (String.ofList cs))
      else if isDateTime cs then some (.dateTime (String.ofList cs))
      else none

/-- Reads a number, a word or a date. A blank may stand between a date and its time. -/
def readScalar (cs : List Char) : Option (Value × List Char) :=
  let run := cs.takeWhile isScalarChar
  let rest := cs.drop run.length
  let time := (rest.drop 1).takeWhile isScalarChar
  if isDate run && rest.head? == some ' ' && isZonedTime time then
    some (.dateTime (String.ofList (run ++ ' ' :: time)), rest.drop (1 + time.length))
  else (scalar? run).map (·, rest)

/-! ## Kinds -/

/-- Whether two values are of one kind. A time of day is of another kind than a date; what an array or a
table holds does not matter. -/
def Value.isLike : Value → Value → Bool
  | .string _, .string _ => true
  | .integer _, .integer _ => true
  | .float _, .float _ => true
  | .boolean _, .boolean _ => true
  | .dateTime s, .dateTime t => isTime s.toList == isTime t.toList
  | .array _, .array _ => true
  | .table _, .table _ => true
  | _, _ => false

end TypstLint.Toml
