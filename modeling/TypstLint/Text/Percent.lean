import TypstLint.Text.Encoding
import TypstLint.Text.Numeral

set_option autoImplicit false

/-! # Percent encoding

Letters, digits and `_.-~` stand for themselves in URLs; every other byte of the UTF-8 form is written
as a percent sign and two digits. Decoding leaves percent signs alone that no two digits follow. -/

namespace TypstLint.Text.Percent

/-- The characters that are never encoded. -/
def isUnreserved (c : Char) : Bool :=
  c.isAlphanum || c == '_' || c == '.' || c == '-' || c == '~'

/-- A byte as a percent sign and two digits. -/
def encodeByte (b : UInt8) : List Char :=
  let digit (n : Nat) : Char := if n < 10 then Char.ofNat (48 + n) else Char.ofNat (55 + n)
  ['%', digit (b.toNat / 16), digit (b.toNat % 16)]

/-- The encoding of a text in which the characters with property `plain` stand for themselves. -/
def encodeWith (plain : Char → Bool) (s : String) : String :=
  String.ofList <| s.toList.flatMap fun c =>
    if plain c then [c] else c.toString.toUTF8.toList.flatMap encodeByte

/-- A path: slashes stand for themselves. -/
def encodePath (s : String) : String := encodeWith (fun c => isUnreserved c || c == '/') s

/-- The value of a query parameter: a space is written as a plus sign. -/
def encodeQuery (s : String) : String :=
  String.ofList <| (encodeWith (fun c => isUnreserved c || c == ' ') s).toList.map fun c =>
    if c == ' ' then '+' else c

/-! ## Decoding -/

/-- The value of a byte that is a digit of base 16. -/
def digitOf? (b : UInt8) : Option Nat := digitValue? 16 (Char.ofNat b.toNat)

/-- Bytes in which each percent sign with two digits behind it is replaced by the byte that they stand
for. -/
def decodeBytes : List UInt8 → List UInt8
  | 37 :: high :: low :: rest =>
    match digitOf? high, digitOf? low with
    | some h, some l => UInt8.ofNat (16 * h + l) :: decodeBytes rest
    | _, _ => 37 :: decodeBytes (high :: low :: rest)
  | b :: rest => b :: decodeBytes rest
  | [] => []

/-- The text that an encoding stands for. What cannot be read is replaced. -/
def decode (cs : List Char) : List Char :=
  Utf8.decodeLossy ⟨(decodeBytes (String.ofList cs).toUTF8.toList).toArray⟩

end TypstLint.Text.Percent
