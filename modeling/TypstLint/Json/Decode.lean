import TypstLint.Json.Reader
import TypstLint.Text.Encoding

set_option autoImplicit false

/-! # Decoding JSON values

A value is decoded into a type by looking at every part of it, so that all mistakes are counted
(`Decoded`, `Decoder`). An object may have more members than are asked for. An integer may also be given
as a truth value, as a number with a fraction of zeros or as a text (`int`). -/

namespace TypstLint.Json

/-! ## Values or mistakes -/

/-- What a value decodes to, or the number of mistakes that keep it from being decoded. -/
inductive Decoded (α : Type) where
  | valid (x : α)
  | invalid (mistakes : Nat)
  deriving DecidableEq, Repr

namespace Decoded

/-- A single mistake. -/
def mistake {α : Type} : Decoded α := .invalid 1

/-- Applies a function to what was decoded. -/
def map {α β : Type} (f : α → β) : Decoded α → Decoded β
  | valid x => valid (f x)
  | invalid n => invalid n

/-- Applies a function that was decoded itself; the mistakes of both count. -/
def apply {α β : Type} : Decoded (α → β) → Decoded α → Decoded β
  | valid f, x => x.map f
  | invalid n, valid _ => invalid n
  | invalid n, invalid m => invalid (n + m)

instance : Functor Decoded where
  map f x := x.map f

instance : Seq Decoded where
  seq f x := f.apply (x ())

/-- What was decoded, if there was no mistake. -/
def toExcept {α : Type} : Decoded α → Except Nat α
  | valid x => .ok x
  | invalid n => .error n

end Decoded

/-- How values are decoded into a type. -/
abbrev Decoder (α : Type) := Value → Decoded α

/-! ## Integers in text -/

/-- Whether `c` may stand around an integer: a blank that is no information separator. -/
def isPadding (c : Char) : Bool := Text.isBlank c && !(0x1C ≤ c.toNat && c.toNat ≤ 0x1F)

/-- Passes over zeros and underscores behind a zero, of which `last` was the last one. -/
def passZeros (last : Char) : List Char → Option (List Char)
  | [] => some [last]
  | c :: cs =>
    if c == '0' || c == '_' then passZeros c cs
    else if c == '.' then some (last :: c :: cs)
    else if c == '-' || c.isDigit then some (c :: cs)
    else none

/-- A number without the zeros in front of its first digit or of its sign. -/
def dropZeros : List Char → Option (List Char)
  | [] => none
  | c :: cs =>
    if c == '0' then passZeros c cs else if c == '-' || c.isDigit then some (c :: cs) else none

/-- A number without a fraction of zeros. -/
def dropZeroFraction (cs : List Char) : List Char :=
  match Text.cut '.' cs with
  | (whole, some fraction) =>
    if !fraction.isEmpty && fraction.all (· == '0') then whole else cs
  | _ => cs

/-- A number without its underscores, of which there may be single ones anywhere but at the ends. -/
def dropUnderscores? (cs : List Char) : Option (List Char) :=
  let runs := Text.splitOn '_' cs
  if runs.all (!·.isEmpty) then some runs.flatten else none

/-- A number without what does not count: leading zeros, a fraction of zeros and underscores. -/
def plainNumber? (cs : List Char) : Option (List Char) := do
  dropUnderscores? (dropZeroFraction (← dropZeros cs))

/-- The number of a row of digits; only zero itself starts with a zero. -/
def digits? (cs : List Char) : Option Nat :=
  if cs.isEmpty || !cs.all Char.isDigit || (cs.head? == some '0' && cs.length != 1) then none
  else some (Text.digitsValue cs)

/-- The number of a row of digits that may have a minus sign before it. -/
def signedDigits? : List Char → Option Int
  | '-' :: cs => (digits? cs).map (-Int.ofNat ·)
  | cs => (digits? cs).map (Int.ofNat ·)

/-- A number without its plus sign, behind which no other sign may stand. -/
def dropPlus? : List Char → Option (List Char)
  | '+' :: '-' :: _ => none
  | '+' :: cs => some cs
  | cs => some cs

/-- The integer that a text stands for. Padding, a plus sign and what does not count in a number are
passed over. A minus sign may stand in front of the zeros or behind them, but not in both places. -/
def intOfText? (cs : List Char) : Option Int :=
  let body := Text.trimWhile isPadding cs
  if Text.maxDigits < body.length then none
  else do
    match ← dropPlus? body with
    | '-' :: rest => (digits? (← plainNumber? rest)).map (-Int.ofNat ·)
    | rest => signedDigits? (← plainNumber? rest)

/-! ## Decoders -/

/-- A text. -/
def text : Decoder String
  | .str s => .valid s
  | _ => .mistake

/-- The bound of the numbers with a fraction that may stand for integers. -/
def maxWhole : Int := 0x8000000000000000

/-- An integer, which may also be given as a truth value, as a number with a fraction of zeros or as a
text. -/
def int : Decoder Int
  | .int n => .valid n
  | .bool b => .valid (if b then 1 else 0)
  | .real x =>
    match x.toInt? with
    | some n => if -maxWhole < n && n < maxWhole then .valid n else .mistake
    | none => .mistake
  | .str s =>
    match intOfText? s.toList with
    | some n => .valid n
    | none => .mistake
  | _ => .mistake

/-- A value that may be null. -/
def nullable {α : Type} (f : Decoder α) : Decoder (Option α)
  | .null => .valid none
  | v => (f v).map some

/-- An array. -/
def array {α : Type} (f : Decoder α) : Decoder (List α)
  | .arr vs => vs.foldr (fun v rest => ((f v).map List.cons).apply rest) (.valid [])
  | _ => .mistake

/-- The members of an object. -/
abbrev Members := List (String × Value)

/-- An object. -/
def object {α : Type} (f : Members → Decoded α) : Decoder α
  | .obj members => f members
  | _ => .mistake

/-- A member that has to be there. -/
def Members.required {α : Type} (members : Members) (name : String) (f : Decoder α) : Decoded α :=
  match members.lookup name with
  | some v => f v
  | none => .mistake

/-- A member with a value for the case that it is missing. -/
def Members.optional {α : Type} (members : Members) (name : String) (f : Decoder α) (default : α) :
    Decoded α :=
  match members.lookup name with
  | some v => f v
  | none => .valid default

/-- A member that may be missing or null. -/
def Members.optional? {α : Type} (members : Members) (name : String) (f : Decoder α) :
    Decoded (Option α) :=
  members.optional name (nullable f) none

/-! ## Encoded values -/

/-- Why bytes hold no value. -/
inductive BodyError where
  /-- The bytes are no text. -/
  | encoding (fault : Text.Encoding.Fault)
  /-- The text is no value. -/
  | content (text : List Char) (error : ReadError)
  deriving Repr

/-- Reads the value in bytes. -/
def readBytes (body : ByteArray) : Except BodyError Value :=
  match Text.Encoding.decode body.toList with
  | .error fault => .error (.encoding fault)
  | .ok text => (read text).mapError (.content text)

end TypstLint.Json
