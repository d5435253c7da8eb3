set_option autoImplicit false

/-! # Binary floating-point numbers

A number of 64 bits is an integer of at most 53 bits times a power of two, or an infinity. Reading a
decimal rounds to the nearest such number, a tie going to the even one. The text of a number has the
fewest digits that read back; it is positional for decimal exponents from -4 to 15. -/

namespace TypstLint.Text

/-- A binary64 number: a sign with `mantissa * 2 ^ exponent` or with infinity. -/
inductive Binary64 where
  | finite (negative : Bool) (mantissa : Nat) (exponent : Int)
  | infinite (negative : Bool)
  deriving DecidableEq, Repr

namespace Binary64

/-- The least exponent of a number. -/
def minExponent : Int := -1074

/-- The greatest exponent of a number. -/
def maxExponent : Int := 971

/-- `n / d` rounded to the nearest integer, a tie going to the even one. -/
def roundRatio (n d : Nat) : Nat :=
  let q := n / d
  let r := n % d
  if 2 * r < d || (2 * r == d && q % 2 == 0) then q else q + 1

/-- `n * base ^ e / d` as a fraction. -/
def scale (base n d : Nat) (e : Int) : Nat × Nat :=
  if e < 0 then (n, d * Nat.pow base (-e).toNat) else (n * Nat.pow base e.toNat, d)

/-- `n * 2 ^ e / d` rounded to the nearest integer, a tie going to the even one. -/
def roundScaled (n d : Nat) (e : Int) : Nat :=
  let (n, d) := scale 2 n d e
  roundRatio n d

/-- The number nearest to `n / d`, as mantissa and exponent; nothing if it is too large. -/
def nearest? (n d : Nat) : Option (Nat × Int) :=
  if n == 0 then some (0, minExponent)
  else
    let guess : Int := (Nat.log2 n : Int) - Nat.log2 d - 52
    -- the quotient has 53 bits for the right exponent, and the guess is at most one too large
    let below := roundScaled n d (1 - guess)
    let exponent := if below < Nat.pow 2 53 then guess - 1 else guess
    let exponent := max exponent minExponent
    let mantissa := roundScaled n d (-exponent)
    let (mantissa, exponent) :=
      if mantissa == Nat.pow 2 53 then (Nat.pow 2 52, exponent + 1) else (mantissa, exponent)
    if maxExponent < exponent then none else some (mantissa, exponent)

/-- The number nearest to `n / d`, with a sign. -/
def ofRatio (negative : Bool) (n d : Nat) : Binary64 :=
  match nearest? n d with
  | some (m, e) => .finite negative m e
  | none => .infinite negative

/-- The number nearest to `digits * 10 ^ exponent`. -/
def ofDecimal (negative : Bool) (digits : Nat) (exponent : Int) : Binary64 :=
  let size : Int := (Nat.toDigits 10 digits).length
  if digits == 0 || size + exponent < -400 then .finite negative 0 minExponent
  else if 400 < size + exponent then .infinite negative
  else
    let (n, d) := scale 10 digits 1 exponent
    ofRatio negative n d

/-- The number nearest to a fraction. -/
def ofFraction (n : Int) (d : Nat) : Binary64 := ofRatio (decide (n < 0)) n.natAbs d

/-- The number nearest to an integer. -/
def ofInt (n : Int) : Binary64 := ofFraction n 1

/-- A number as a fraction. -/
def toFraction? : Binary64 → Option (Int × Nat)
  | .infinite _ => none
  | .finite negative m e =>
    let (n, d) := scale 2 m 1 e
    some (if negative then -(n : Int) else n, d)

/-- The integer that a number is equal to, if any. -/
def toInt? : Binary64 → Option Int
  | .infinite _ => none
  | .finite negative m e =>
    let value? : Option Nat :=
      if 0 ≤ e then some (m * Nat.pow 2 e.toNat)
      else if m % Nat.pow 2 (-e).toNat == 0 then some (m / Nat.pow 2 (-e).toNat) else none
    value?.map fun v => if negative then -(v : Int) else v

/-- A number without its fraction. -/
def towardZero? : Binary64 → Option Int
  | .infinite _ => none
  | .finite negative m e =>
    let size : Nat := if 0 ≤ e then m * Nat.pow 2 e.toNat else m / Nat.pow 2 (-e).toNat
    some (if negative then -(size : Int) else size)

/-- A number times `k`, rounded to the nearest integer, a tie going to the even one. -/
def times? (k : Nat) : Binary64 → Option Int
  | .infinite _ => none
  | .finite negative m e =>
    let size := roundScaled (m * k) 1 e
    some (if negative then -(size : Int) else size)

/-! ## Shortest text -/

/-- The decimals of `count` digits next to `n / d` from below and from above, as digits and exponent,
where `10 ^ (point - 1) ≤ n / d < 10 ^ point`. -/
def neighbours (n d count : Nat) (point : Int) : List (Nat × Int) :=
  let exponent := point - count
  let below :=
    if exponent < 0 then n * Nat.pow 10 (-exponent).toNat / d else n / (d * Nat.pow 10 exponent.toNat)
  [(below, exponent), (below + 1, exponent)]

/-- How far `digits * 10 ^ exponent` is from `n / d`, in units that do not depend on the digits. -/
def distance (n d : Nat) (c : Nat × Int) : Nat :=
  let (a, b) :=
    if c.2 < 0 then (n * Nat.pow 10 (-c.2).toNat, c.1 * d) else (n, c.1 * Nat.pow 10 c.2.toNat * d)
  a - b + (b - a)

/-- Whether a decimal reads back as mantissa `m` and exponent `e`. -/
def readsBack (m : Nat) (e : Int) (c : Nat × Int) : Bool :=
  ofDecimal false c.1 c.2 == .finite false m e

/-- The decimal with the fewest digits that reads back, the nearest of those with that many digits, and
of two that are equally near the even one; `fuel` bounds the number of digits still to be tried. -/
def shortestFrom (m : Nat) (e : Int) (n d : Nat) (point : Int) (count : Nat) :
    Nat → Nat × Int
  | 0 => (m, e)
  | fuel + 1 =>
    match (neighbours n d count point).filter (readsBack m e) with
    | [] => shortestFrom m e n d point (count + 1) fuel
    | [c] => c
    | c :: c' :: _ =>
      let (below, above) := (distance n d c, distance n d c')
      if above < below || (above == below && c'.1 % 2 == 0) then c' else c

/-- The position of the decimal point of `n / d`: the least `p` with `n / d < 10 ^ p`. -/
def pointOf (n d : Nat) : Int :=
  let guess : Int := (Nat.toDigits 10 n).length - (Nat.toDigits 10 d).length
  let reaches (p : Int) : Bool :=
    if p < 0 then d ≤ n * Nat.pow 10 (-p).toNat else d * Nat.pow 10 p.toNat ≤ n
  if reaches guess then guess + 1 else guess

/-- The text of an exponent, which has at least two digits. -/
def exponentText (exponent : Int) : List Char :=
  let mark := if exponent < 0 then '-' else '+'
  let power := Nat.toDigits 10 exponent.natAbs
  'e' :: mark :: (if power.length < 2 then '0' :: power else power)

/-- Digits with a decimal point, given how many of the digits stand before it. -/
def layOut (digits : List Char) (point : Int) : List Char :=
  if -4 < point && point ≤ 16 then
    if point ≤ 0 then '0' :: '.' :: List.replicate (-point).toNat '0' ++ digits
    else
      let whole := digits.take point.toNat
      let fraction := digits.drop point.toNat
      whole ++ List.replicate (point.toNat - digits.length) '0' ++
        '.' :: (if fraction.isEmpty then ['0'] else fraction)
  else
    digits.take 1 ++ (if digits.length ≤ 1 then [] else '.' :: digits.drop 1) ++ exponentText (point - 1)

/-- A text without the zeros at its end. -/
def dropEndZeros (digits : List Char) : List Char := (digits.reverse.dropWhile (· == '0')).reverse

/-- The text of a number. -/
def toText : Binary64 → String
  | .infinite negative => if negative then "-inf" else "inf"
  | .finite negative m e =>
    let sign := if negative then ['-'] else []
    if m == 0 then String.ofList (sign ++ ['0', '.', '0'])
    else
      let (n, d) := scale 2 m 1 e
      let (digits, exponent) := shortestFrom m e n d (pointOf n d) 1 17
      let text := Nat.toDigits 10 digits
      String.ofList (sign ++ layOut (dropEndZeros text) (text.length + exponent))

end Binary64

end TypstLint.Text

/-! ## Rounded decimals

Instead of with the fewest digits that read back, the size of a number can be written with a given
number of digits behind the point, or with a given number of significant ones. It is rounded to the
nearest such decimal, and from a tie to the one with an even last digit. -/

namespace TypstLint.Text.Binary64

/-- How the digits of a decimal are laid out. -/
inductive Layout where
  /-- A number of digits behind the point. -/
  | fixed
  /-- One digit before the point, a number of digits behind it, and an exponent. -/
  | scientific
  /-- A number of significant digits; there is an exponent if the number is very small, or has more
  digits before the point. -/
  | general
  deriving DecidableEq, Repr

/-- The first `count` digits of `n / d` after rounding, and the exponent of the first of them. -/
def significant (n d count : Nat) : List Char × Int :=
  if n == 0 then (List.replicate count '0', 0)
  else
    let first := pointOf n d - 1
    let (a, b) := scale 10 n d (count - 1 - first)
    let digits := Nat.toDigits 10 (roundRatio a b)
    if count < digits.length then (digits.take count, first + 1) else (digits, first)

/-- Digits before and behind a point, which is left out if no digit follows unless it is kept. -/
def withPoint (keep : Bool) (whole fraction : List Char) : List Char :=
  if fraction.isEmpty && !keep then whole else whole ++ '.' :: fraction

/-- `n / d` with `places` digits behind the point. -/
def fixedText (keep : Bool) (n d places : Nat) : List Char :=
  let digits := Nat.toDigits 10 (roundRatio (n * Nat.pow 10 places) d)
  let digits := List.replicate (places + 1 - digits.length) '0' ++ digits
  withPoint keep (digits.take (digits.length - places)) (digits.drop (digits.length - places))

/-- Significant digits with an exponent. -/
def scientificText (keep : Bool) (digits : List Char) (exponent : Int) : List Char :=
  withPoint keep (digits.take 1) (digits.drop 1) ++ exponentText exponent

/-- `n / d` with `count` significant digits. Zeros at the end of a fraction are left out unless they are
kept. -/
def generalText (keep : Bool) (n d count : Nat) : List Char :=
  let (digits, exponent) := significant n d count
  let trim := if keep then id else dropEndZeros
  if exponent < -4 || count ≤ exponent then
    scientificText keep (digits.take 1 ++ trim (digits.drop 1)) exponent
  else if exponent < 0 then
    withPoint keep ['0'] (trim (List.replicate (-exponent - 1).toNat '0' ++ digits))
  else
    let whole := exponent.toNat + 1
    withPoint keep (digits.take whole) (trim (digits.drop whole))

/-- The size of a number as a rounded decimal of `count` digits. With `keep` the point stays where no
digit follows it, and so do zeros at the end. -/
def roundedText (layout : Layout) (keep : Bool) (count : Nat) : Binary64 → List Char
  | .infinite _ => ['i', 'n', 'f']
  | .finite _ m e =>
    let (n, d) := scale 2 m 1 e
    match layout with
    | .fixed => fixedText keep n d count
    | .scientific =>
      let (digits, exponent) := significant n d (count + 1)
      scientificText keep digits exponent
    | .general => generalText keep n d (max count 1)

/-- Whether a number has a minus sign. -/
def isNegative : Binary64 → Bool
  | .infinite negative | .finite negative _ _ => negative

end TypstLint.Text.Binary64
