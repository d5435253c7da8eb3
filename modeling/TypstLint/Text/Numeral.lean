import TypstLint.Text.Blank
import TypstLint.Text.Character

set_option autoImplicit false

/-! # Integer numerals

An integer is written with an optional sign and digits, between which single underscores may stand.
Decimal digits of every script count, and surrounding blanks are ignored. In base 16 the digits may
follow `0x`. A base 10 numeral has at most `maxDigits` digits. -/

namespace TypstLint.Text

/-- Why a text is no integer. -/
inductive NumeralError where
  /-- The text is not of the form of a numeral. -/
  | malformed
  /-- The numeral has too many digits. -/
  | tooLong (digits : Nat)
  deriving DecidableEq, Repr

/-- The greatest number of digits of a base 10 numeral. -/
def maxDigits : Nat := 4300

/-- The message about a numeral with too many digits. -/
def tooLongMessage (digits : Nat) : String :=
  s!"Exceeds the limit ({maxDigits} digits) for integer string conversion: value has {digits} digits; use sys.set_int_max_str_digits() to increase the limit"

/-- The value of an ASCII digit of a base up to 16. -/
def digitValue? (base : Nat) (c : Char) : Option Nat :=
  let v? :=
    if '0' ≤ c && c ≤ '9' then some (c.toNat - 48)
    else if 'a' ≤ c && c ≤ 'f' then some (c.toNat - 87)
    else if 'A' ≤ c && c ≤ 'F' then some (c.toNat - 55)
    else none
  v?.filter (· < base)

/-- Reads digits with single underscores between them; `afterDigit` tells whether an underscore may
come next. Returns the value and the number of digits. -/
def readDigits (base : Nat) (afterDigit : Bool) (value count : Nat) :
    List Char → Option (Nat × Nat)
  | [] => if afterDigit then some (value, count) else none
  | c :: cs =>
    if c == '_' then
      if afterDigit then readDigits base false value count cs else none
    else
      match digitValue? base c with
      | some d => readDigits base true (value * base + d) (count + 1) cs
      | none => none

/-- Whether `c` is one of the six ASCII blanks. -/
def isAsciiBlank (c : Char) : Bool :=
  c == ' ' || (9 ≤ c.toNat && c.toNat ≤ 13)

/-- A text with its non-ASCII blanks and digits replaced by ASCII ones. -/
def asciiNumeral (cs : List Char) : List Char :=
  cs.map fun c =>
    if c.toNat < 128 then c
    else if isBlank c then ' '
    else match decimalDigit? c with
      | some d => Char.ofNat (48 + d)
      | none => c

/-- Splits a sign off. -/
def readSign : List Char → Bool × List Char
  | '-' :: cs => (true, cs)
  | '+' :: cs => (false, cs)
  | cs => (false, cs)

/-- Splits the mark of a base 16 numeral off, with the underscore that may follow it. -/
def dropHexMark : List Char → List Char
  | '0' :: 'x' :: '_' :: cs | '0' :: 'X' :: '_' :: cs => cs
  | '0' :: 'x' :: cs | '0' :: 'X' :: cs => cs
  | cs => cs

/-- Reads an integer numeral of base 10 or 16. -/
def readInt (base : Nat) (cs : List Char) : Except NumeralError Int :=
  let (negative, body) := readSign (trimWhile isAsciiBlank (asciiNumeral cs))
  let body := if base == 16 then dropHexMark body else body
  match readDigits base false 0 0 body with
  | none => .error .malformed
  | some (value, count) =>
    if base == 10 && maxDigits < count then .error (.tooLong count)
    else .ok (if negative then -value else value)

end TypstLint.Text
