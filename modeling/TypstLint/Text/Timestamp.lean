import TypstLint.Text.Binary64
import TypstLint.Text.Character

set_option autoImplicit false

/-! # Time stamps

A time stamp is a date, then a `T` or a space, then a time of day and perhaps how far the clock is ahead
of UTC; or it is a number of seconds or milliseconds. Times are counted in microseconds from the start of
1970. -/

namespace TypstLint.Text

/-- The reading of a clock, and how many minutes that clock is ahead of UTC, if it is known. -/
structure Timestamp where
  reading : Int
  offset : Option Int
  deriving DecidableEq, Repr

namespace Timestamp

/-- The microseconds of a second. -/
def second : Int := 1000000

/-- The microseconds of a minute. -/
def minute : Int := 60 * second

/-- The microseconds of a day. -/
def day : Int := 1440 * minute

/-- The point in time; without an offset the clock is taken to show UTC. -/
def toUtc (t : Timestamp) : Int := t.reading - t.offset.getD 0 * minute

/-! ## Days -/

/-- Whether a year has 366 days. -/
def isLeapYear (year : Nat) : Bool := year % 4 == 0 && (year % 100 != 0 || year % 400 == 0)

/-- The number of days of a month. -/
def monthLength (year month : Nat) : Nat :=
  if month == 2 then if isLeapYear year then 29 else 28
  else if [4, 6, 9, 11].contains month then 30
  else 31

/-- The number of days from the start of year 0 to the start of a year. -/
def daysBeforeYear (year : Nat) : Nat :=
  if year == 0 then 0 else year * 365 + (year - 1) / 4 - (year - 1) / 100 + (year - 1) / 400 + 1

/-- The number of days of a year before a month. -/
def daysBeforeMonth (year month : Nat) : Nat :=
  (List.range (month - 1)).foldl (fun days m => days + monthLength year (m + 1)) 0

/-- The number of days from the start of 1970 to a date. -/
def daysOf (year month dayOfMonth : Nat) : Int :=
  (daysBeforeYear year + daysBeforeMonth year month + dayOfMonth : Int) - 1 - daysBeforeYear 1970

/-- The month in which a day of a year lies, counted from `month` on, and the day of that month. -/
def monthOf (year month days : Nat) : Nat → Nat × Nat
  | 0 => (month, days + 1)
  | fuel + 1 =>
    if days < monthLength year month then (month, days + 1)
    else monthOf year (month + 1) (days - monthLength year month) fuel

/-- The date a number of days after the start of 1970. -/
def dateOf (days : Int) : Nat × Nat × Nat :=
  let days := (days + daysBeforeYear 1970).toNat
  let guess := days * 400 / 146097
  let year := if days < daysBeforeYear guess then guess - 1
    else if daysBeforeYear (guess + 1) ≤ days then guess + 1 else guess
  (year, monthOf year 1 (days - daysBeforeYear year) 12)

/-! ## Reading -/

/-- Reads a number of exactly `width` digits. -/
def takeNumber (width : Nat) (cs : List Char) : Option (Nat × List Char) :=
  let digits := cs.take width
  if digits.length == width && digits.all Char.isDigit then
    some (digitsValue digits, cs.drop width)
  else none

/-- Reads a number of exactly `width` digits behind a separator. -/
def takeAfter (sep : Char) (width : Nat) : List Char → Option (Nat × List Char)
  | c :: cs => if c == sep then takeNumber width cs else none
  | [] => none

/-- Reads the microseconds in a fraction of a second; more than six digits are cut off. -/
def takeFraction (cs : List Char) : Option (Nat × List Char) :=
  let takeDigits (rest : List Char) : Option (Nat × List Char) :=
    let digits := rest.takeWhile Char.isDigit
    if digits.isEmpty then none
    else
      let six := (digits ++ List.replicate 6 '0').take 6
      some (digitsValue six, rest.drop digits.length)
  match cs with
  | '.' :: rest | ',' :: rest => takeDigits rest
  | _ => some (0, cs)

/-- Reads a date. -/
def takeDate (cs : List Char) : Option (Int × List Char) := do
  let (year, cs) ← takeNumber 4 cs
  let (month, cs) ← takeAfter '-' 2 cs
  let (dayOfMonth, cs) ← takeAfter '-' 2 cs
  if 1 ≤ year && 1 ≤ month && month ≤ 12 && 1 ≤ dayOfMonth && dayOfMonth ≤ monthLength year month
  then some (daysOf year month dayOfMonth * day, cs) else none

/-- Reads the seconds of a time of day, in microseconds; they may be missing. -/
def takeSeconds (cs : List Char) : Option (Int × List Char) :=
  if cs.head? != some ':' then some (0, cs)
  else do
    let (seconds, cs) ← takeAfter ':' 2 cs
    let (micros, cs) ← takeFraction cs
    if seconds < 60 then some (seconds * second + micros, cs) else none

/-- Reads a time of day. -/
def takeTime (cs : List Char) : Option (Int × List Char) := do
  let (hours, cs) ← takeNumber 2 cs
  let (minutes, cs) ← takeAfter ':' 2 cs
  let (micros, cs) ← takeSeconds cs
  if hours < 24 && minutes < 60 then some ((hours * 60 + minutes) * minute + micros, cs) else none

/-- Reads an offset up to the end of a text. -/
def readOffset (cs : List Char) : Option (Option Int) :=
  match cs with
  | [] => some none
  | ['Z'] | ['z'] => some (some 0)
  | sign :: rest => do
    let (hours, rest) ← takeNumber 2 rest
    let (minutes, rest) ← takeNumber 2 (if rest.head? == some ':' then rest.drop 1 else rest)
    let size : Int := hours * 60 + minutes
    if rest.isEmpty && minutes < 60 && size < 1440 then
      if sign == '+' then some (some size)
      else if sign == '-' || sign == '\u2212' then some (some (-size))
      else none
    else none

/-- Reads a time stamp. A date alone stands for its first moment. -/
def parse? (cs : List Char) : Option Timestamp := do
  let (date, rest) ← takeDate cs
  match rest with
  | [] => some ⟨date, none⟩
  | sep :: rest =>
    if ['T', 't', ' ', '_'].contains sep then
      let (time, rest) ← takeTime rest
      let offset ← readOffset rest
      some ⟨date + time, offset⟩
    else none

/-! ## Numbers -/

/-- A point in time, if its year has four digits. -/
def ofMicros? (micros : Int) : Option Timestamp :=
  if daysOf 1 1 1 * day ≤ micros && micros < daysOf 10000 1 1 * day then some ⟨micros, some 0⟩ else none

/-- The greatest number of seconds; a greater number is one of milliseconds. -/
def maxSeconds : Nat := 20000000000

/-- The microseconds of a number of seconds or milliseconds. -/
def microsOf (n : Int) : Int := if n.natAbs ≤ maxSeconds then n * second else n * 1000

/-- The point in time for a number. -/
def ofInt? (n : Int) : Option Timestamp := ofMicros? (microsOf n)

/-- The microseconds by which a number of seconds is later than its whole seconds. The difference and its
product are rounded like all binary numbers, and the product then to the nearest integer. -/
def microsBehind (n : Int) (d : Nat) : Option Int := do
  let (rest, d) ← (Binary64.ofFraction (n.fmod d) d).toFraction?
  let (micros, d) ← (Binary64.ofFraction (rest * second) d).toFraction?
  return (2 * micros + d).fdiv (2 * d)

/-- The point in time for a number with a fraction. -/
def ofReal? (x : Binary64) : Option Timestamp := do
  let (n, d) ← x.toFraction?
  let seconds := if n.natAbs ≤ maxSeconds * d then x else .ofFraction n (d * 1000)
  let (n, d) ← seconds.toFraction?
  ofMicros? (microsOf (n.fdiv d) + (← microsBehind n d))

/-- Splits a sign off. -/
def takeSign : List Char → Bool × List Char
  | '-' :: cs => (true, cs)
  | '+' :: cs => (false, cs)
  | cs => (false, cs)

/-- Reads an exponent up to the end of a text; without one it is zero. -/
def readExponent : List Char → Option Int
  | [] => some 0
  | c :: cs =>
    let (negative, digits) := takeSign cs
    if (c == 'e' || c == 'E') && !digits.isEmpty && digits.all Char.isDigit then
      some (if negative then -(digitsValue digits : Int) else digitsValue digits)
    else none

/-- Reads a number of seconds or milliseconds: digits behind a sign that may be missing, then perhaps a
fraction, and behind it perhaps an exponent. -/
def readNumber? (cs : List Char) : Option Timestamp := do
  let (negative, cs) := takeSign cs
  let whole := cs.takeWhile Char.isDigit
  match cs.dropWhile Char.isDigit with
  | [] =>
    if whole.isEmpty then none
    else ofInt? (if negative then -(digitsValue whole : Int) else digitsValue whole)
  | c :: rest =>
    let fraction := rest.takeWhile Char.isDigit
    let exponent ← readExponent (rest.dropWhile Char.isDigit)
    if c == '.' && !(whole.isEmpty && fraction.isEmpty) then
      ofReal? (.ofDecimal negative (digitsValue (whole ++ fraction)) (exponent - fraction.length))
    else none

/-- Reads a time stamp in any form. -/
def read? (text : String) : Option Timestamp := (parse? text.toList).or (readNumber? text.toList)

/-! ## Writing -/

/-- A number with at least `width` digits. -/
def padded (width n : Nat) : String :=
  let digits := toString n
  String.ofList (List.replicate (width - digits.length) '0') ++ digits

/-- The text of an offset. -/
def offsetText : Option Int → String
  | none => ""
  | some offset =>
    let size := offset.natAbs
    if size == 0 then "Z"
    else (if offset < 0 then "-" else "+") ++ padded 2 (size / 60) ++ ":" ++ padded 2 (size % 60)

/-- The text of a time stamp; a fraction of a second is written with six digits, if there is one. -/
def render (t : Timestamp) : String :=
  let (year, month, dayOfMonth) := dateOf (t.reading.fdiv day)
  let time := (t.reading.fmod day).toNat
  let seconds := time / 1000000
  let micros := time % 1000000
  padded 4 year ++ "-" ++ padded 2 month ++ "-" ++ padded 2 dayOfMonth
    ++ "T" ++ padded 2 (seconds / 3600) ++ ":" ++ padded 2 (seconds / 60 % 60)
    ++ ":" ++ padded 2 (seconds % 60) ++ (if micros == 0 then "" else "." ++ padded 6 micros)
    ++ offsetText t.offset

end Timestamp

end TypstLint.Text
