set_option autoImplicit false

/-! # Encodings

Bytes may be text in UTF-8 or in units of two or four bytes. Which it is shows in a byte order mark, or
else in where zeros stand, if the text starts with an ASCII character. Half of a surrogate pair that
stands alone is read as a replacement character. -/

/-! ## UTF-8

Strict decoding: overlong forms, surrogates and code points above U+10FFFF are faults. A fault covers
the bytes that could still have begun a character, and at least one byte; `decodeLossy` puts a
replacement character in the place of each fault. -/

namespace TypstLint.Text.Utf8

/-- What is wrong with a sequence of bytes. -/
inductive Cause where
  | invalidStart
  | invalidContinuation
  | unexpectedEnd
  deriving DecidableEq, Repr

/-- The wording of a cause. -/
def Cause.message : Cause → String
  | .invalidStart => "invalid start byte"
  | .invalidContinuation => "invalid continuation byte"
  | .unexpectedEnd => "unexpected end of data"

/-- The first undecodable bytes of a text: where they start, how many they are, and the first one. -/
structure Fault where
  start : Nat
  length : Nat
  first : UInt8
  cause : Cause
  deriving DecidableEq, Repr

/-- The message about bytes that cannot be decoded. -/
def undecodable (encoding : String) (start length : Nat) (first : UInt8) (cause : String) : String :=
  let digits := (if first < 16 then "0" else "") ++ String.ofList (Nat.toDigits 16 first.toNat)
  let where_ :=
    if length ≤ 1 then s!"byte 0x{digits} in position {start}"
    else s!"bytes in position {start}-{start + length - 1}"
  s!"'{encoding}' codec can't decode {where_}: {cause}"

/-- The message about a fault. -/
def Fault.message (f : Fault) : String :=
  undecodable "utf-8" f.start f.length f.first f.cause.message

/-- The outcome of decoding at one place: a character with the number of its bytes, or the number of
faulty bytes. -/
inductive Step where
  | char (c : Char) (width : Nat)
  | fault (width : Nat) (cause : Cause)
  deriving DecidableEq, Repr

/-- Whether a byte continues a character. -/
def isContinuation (b : UInt8) : Bool := 0x80 ≤ b && b ≤ 0xBF

/-- The six payload bits of a continuation byte. -/
def payload (b : UInt8) : Nat := b.toNat - 0x80

/-- The bytes that may follow a leading byte; the bounds keep out overlong forms, surrogates and
values above U+10FFFF. -/
def isSecond (lead second : UInt8) : Bool :=
  if lead == 0xE0 then 0xA0 ≤ second && second ≤ 0xBF
  else if lead == 0xED then 0x80 ≤ second && second ≤ 0x9F
  else if lead == 0xF0 then 0x90 ≤ second && second ≤ 0xBF
  else if lead == 0xF4 then 0x80 ≤ second && second ≤ 0x8F
  else isContinuation second

/-- Decodes one character from a leading byte and what follows it. -/
def decodeOne (lead : UInt8) (rest : List UInt8) : Step :=
  if lead < 0x80 then .char (Char.ofNat lead.toNat) 1
  else if lead < 0xC2 || 0xF4 < lead then .fault 1 .invalidStart
  else
    match rest with
    | [] => .fault 1 .unexpectedEnd
    | b :: rest =>
      if !isSecond lead b then .fault 1 .invalidContinuation
      else if lead < 0xE0 then .char (Char.ofNat ((lead.toNat - 0xC0) * 64 + payload b)) 2
      else
        match rest with
        | [] => .fault 2 .unexpectedEnd
        | c :: rest =>
          if !isContinuation c then .fault 2 .invalidContinuation
          else if lead < 0xF0 then
            .char (Char.ofNat ((lead.toNat - 0xE0) * 4096 + payload b * 64 + payload c)) 3
          else
            match rest with
            | [] => .fault 3 .unexpectedEnd
            | d :: _ =>
              if !isContinuation d then .fault 3 .invalidContinuation
              else .char (Char.ofNat ((lead.toNat - 0xF0) * 262144 + payload b * 4096 +
                payload c * 64 + payload d)) 4

/-- Decodes bytes from position `pos` on. `skip` bytes belong to the character before; `done` holds
the characters so far, last first. -/
def decodeFrom (pos skip : Nat) (done : List Char) : List UInt8 → Except Fault (List Char)
  | [] => .ok done.reverse
  | b :: bs =>
    match skip with
    | skip + 1 => decodeFrom (pos + 1) skip done bs
    | 0 =>
      match decodeOne b bs with
      | .char c width => decodeFrom (pos + 1) (width - 1) (c :: done) bs
      | .fault width cause => .error ⟨pos, width, b, cause⟩

/-- The characters of well-formed bytes, or the first fault. -/
def decodeBytes (bytes : List UInt8) : Except Fault (List Char) := decodeFrom 0 0 [] bytes

/-- The characters of well-formed bytes, or the first fault. -/
def decode (bytes : ByteArray) : Except Fault (List Char) := decodeBytes bytes.toList

/-- The characters of well-formed bytes. -/
def decode? (bytes : ByteArray) : Option (List Char) := (decode bytes).toOption

/-- Decodes bytes with a replacement character for each fault. -/
def decodeLossyFrom (skip : Nat) (done : List Char) : List UInt8 → List Char
  | [] => done.reverse
  | b :: bs =>
    match skip with
    | skip + 1 => decodeLossyFrom skip done bs
    | 0 =>
      match decodeOne b bs with
      | .char c width => decodeLossyFrom (width - 1) (c :: done) bs
      | .fault width _ => decodeLossyFrom (width - 1) ('\ufffd' :: done) bs

/-- Decodes bytes with a replacement character for each fault. -/
def decodeLossy (bytes : ByteArray) : List Char := decodeLossyFrom 0 [] bytes.toList

/-! ## Halves of surrogate pairs -/

/-- Puts the three bytes of a replacement character in the place of those that stand for half of a
surrogate pair. `done` holds the bytes so far, last first. -/
def replaceHalves (done : List UInt8) : List UInt8 → List UInt8
  | 0xED :: b :: c :: rest =>
    if 0xA0 ≤ b && b ≤ 0xBF && isContinuation c then
      replaceHalves (0xBD :: 0xBF :: 0xEF :: done) rest
    else replaceHalves (0xED :: done) (b :: c :: rest)
  | b :: rest => replaceHalves (b :: done) rest
  | [] => done.reverse

/-- Decodes bytes in which halves of surrogate pairs may stand alone. -/
def decodeWithHalves (bytes : List UInt8) : Except Fault (List Char) :=
  decodeBytes (replaceHalves [] bytes)

end TypstLint.Text.Utf8

/-! ## Encodings of text -/

namespace TypstLint.Text

/-- An encoding of text. -/
inductive Encoding where
  | utf8
  | utf16 (bigEndian : Bool)
  | utf32 (bigEndian : Bool)
  deriving DecidableEq, Repr

namespace Encoding

/-- The name of an encoding. -/
def name : Encoding → String
  | utf8 => "utf-8"
  | utf16 bigEndian => if bigEndian then "utf-16-be" else "utf-16-le"
  | utf32 bigEndian => if bigEndian then "utf-32-be" else "utf-32-le"

/-! ## Detecting -/

/-- The byte order marks; a longer one comes before one that it starts with. -/
def marks : List (List UInt8 × Encoding) :=
  [([0x00, 0x00, 0xFE, 0xFF], utf32 true), ([0xFF, 0xFE, 0x00, 0x00], utf32 false),
   ([0xFE, 0xFF], utf16 true), ([0xFF, 0xFE], utf16 false), ([0xEF, 0xBB, 0xBF], utf8)]

/-- The encoding of a text without a mark. -/
def guess : List UInt8 → Encoding
  | [a, b] => if a == 0 then utf16 true else if b == 0 then utf16 false else utf8
  | a :: b :: c :: d :: _ =>
    if a == 0 then if b == 0 then utf32 true else utf16 true
    else if b == 0 then if c == 0 && d == 0 then utf32 false else utf16 false
    else utf8
  | _ => utf8

/-- The encoding of a text, and the length of its mark. -/
def detect (bytes : List UInt8) : Encoding × Nat :=
  match marks.find? fun (mark, _) => mark.isPrefixOf bytes with
  | some (mark, e) => (e, mark.length)
  | none => (guess bytes, 0)

/-! ## Faults -/

/-- What is wrong with bytes. -/
inductive Fault where
  | utf8 (fault : Utf8.Fault)
  /-- The last unit, which starts at a place, has only some of its bytes. -/
  | truncated (e : Encoding) (start length : Nat) (first : UInt8)
  /-- The unit at a place is too large for a character. -/
  | outOfRange (e : Encoding) (start : Nat)
  deriving DecidableEq, Repr

/-- The message about a fault. -/
def Fault.message : Fault → String
  | utf8 fault => fault.message
  | truncated e start length first => Utf8.undecodable e.name start length first "truncated data"
  | outOfRange e start => Utf8.undecodable e.name start 4 0 "code point not in range(0x110000)"

/-! ## Wide units -/

/-- Cuts bytes into units of `width`, and the bytes that are left over. `unit` is begun, and `done`
holds the units so far, both last first. -/
def unitsFrom (width : Nat) (unit : List UInt8) (done : List (List UInt8)) :
    List UInt8 → List (List UInt8) × List UInt8
  | [] => (done.reverse, unit.reverse)
  | b :: bs =>
    if unit.length + 1 == width then unitsFrom width [] ((b :: unit).reverse :: done) bs
    else unitsFrom width (b :: unit) done bs

/-- The value of a unit. -/
def unitValue (bigEndian : Bool) (unit : List UInt8) : Nat :=
  (if bigEndian then unit else unit.reverse).foldl (fun n b => n * 256 + b.toNat) 0

/-- Whether a unit is the first half of a surrogate pair. -/
def isFirstHalf (n : Nat) : Bool := 0xD800 ≤ n && n < 0xDC00

/-- Whether a unit is the second half of a surrogate pair. -/
def isSecondHalf (n : Nat) : Bool := 0xDC00 ≤ n && n < 0xE000

/-- The character with a number. -/
def charOf (n : Nat) : Char :=
  if isFirstHalf n || isSecondHalf n then '\ufffd' else Char.ofNat n

/-- Joins surrogate pairs. `done` holds the characters so far, last first. -/
def joinPairs (done : List Char) : List Nat → List Char
  | a :: b :: rest =>
    if isFirstHalf a && isSecondHalf b then
      joinPairs (Char.ofNat (0x10000 + (a - 0xD800) * 0x400 + (b - 0xDC00)) :: done) rest
    else joinPairs (charOf a :: done) (b :: rest)
  | [a] => (charOf a :: done).reverse
  | [] => done.reverse

/-- Decodes bytes that start at a place in units of `width`, whose values `join` makes characters. -/
def decodeWide (e : Encoding) (bigEndian : Bool) (width start : Nat) (join : List Nat → List Char)
    (bytes : List UInt8) : Except Fault (List Char) :=
  let (units, left) := unitsFrom width [] [] bytes
  let values := units.map (unitValue bigEndian)
  match values.findIdx? (0x10FFFF < ·), left with
  | some i, _ => .error (.outOfRange e (start + width * i))
  | none, first :: _ => .error (.truncated e (start + width * units.length) left.length first)
  | none, [] => .ok (join values)

/-- Decodes bytes that start at a place. -/
def decodeAt (e : Encoding) (start : Nat) (bytes : List UInt8) : Except Fault (List Char) :=
  match e with
  | utf8 => (Utf8.decodeWithHalves bytes).mapError .utf8
  | utf16 bigEndian => decodeWide e bigEndian 2 start (joinPairs []) bytes
  | utf32 bigEndian => decodeWide e bigEndian 4 start (·.map charOf) bytes

/-- Decodes bytes in the encoding that they show; a mark is passed over. -/
def decode (bytes : List UInt8) : Except Fault (List Char) :=
  let (e, mark) := detect bytes
  e.decodeAt mark (bytes.drop mark)

end Encoding

end TypstLint.Text
