import TypstLint.Fault
import TypstLint.Markup.Finding

set_option autoImplicit false

/-! # Regions without code

Comments, raw text and string literals hide what stands in them (`RegionKind`). `Region.read` gives the
length of the region that a text starts with. A region that is not closed reaches to the end of the text,
and is an issue.

The text that a string literal stands for is read along with it (`readLiteral`). There, an escape beyond
32 bits is a fault. -/

/-! ## Escapes of string literals

A backslash and a letter stand for a control character, a quote or a backslash; a number in
hexadecimal between braces stands for a character. Any other character after a backslash stands for
itself. -/

namespace TypstLint.Markup

/-- The character of an escape of one letter. -/
def letterEscape? : Char → Option Char
  | 'n' => some '\n'
  | 't' => some '\t'
  | 'r' => some '\r'
  | '\\' => some '\\'
  | '\x22' => some '\x22'
  | _ => none

/-- The text up to the closing brace of `u\x7b…\x7d`, if `cs` starts with one. -/
def bracedNumber? (cs : List Char) : Option (List Char) :=
  match cs with
  | 'u' :: '\x7b' :: rest =>
    let body := rest.takeWhile (· != '\x7d')
    if (rest.drop body.length).isEmpty then none else some body
  | _ => none

/-- The character with a number. Half of a surrogate pair, which can be written as an escape but is no
`Char`, is kept as the replacement character U+FFFD: the literal still has a text, in which such halves
are not told apart. A number of no character is none, unless it is beyond 32 bits. -/
def charOfNumber (n : Int) : Except Fault (Option Char) :=
  if n < -0x80000000 || 0x7FFFFFFF < n then .error .escapeTooLarge
  else if n < 0 || 0x10FFFF < n then .ok none
  else if 0xD800 ≤ n && n < 0xE000 then .ok (some '\ufffd')
  else .ok (some (Char.ofNat n.toNat))

/-- The escape whose backslash stands before `cs`, which is not empty: its character, and its length
in `cs`. -/
def decodeEscape (cs : List Char) : Except Fault (Char × Nat) :=
  let plain := (cs.headD '\\', 1)
  match letterEscape? plain.1 with
  | some c => .ok (c, 1)
  | none =>
    match bracedNumber? cs with
    | none => .ok plain
    | some body =>
      match Text.readInt 16 body with
      | .error _ => .ok plain
      | .ok n => (charOfNumber n).map fun c? => (c?.map (·, body.length + 3)).getD plain

/-- Reads a string literal from behind its opening quote. `skip` characters belong to an escape that
was read before, `length` is that of the literal so far, and `done` holds its characters, last first.
Returns the text, if the literal is closed, and its length. -/
def readLiteralFrom (skip length : Nat) (done : List Char) :
    List Char → Except Fault (Option (List Char) × Nat)
  | [] => .ok (none, length)
  | c :: rest =>
    match skip with
    | skip + 1 => readLiteralFrom skip (length + 1) done rest
    | 0 =>
      if c == '\\' && !rest.isEmpty then
        match decodeEscape rest with
        | .error fault => .error fault
        | .ok (d, size) => readLiteralFrom size (length + 1) (d :: done) rest
      else if c == '\x22' then .ok (some done.reverse, length + 1)
      else readLiteralFrom 0 (length + 1) (c :: done) rest

/-- Reads the string literal whose opening quote starts the text. -/
def readLiteral (cs : List Char) : Except Fault (Option (List Char) × Nat) :=
  readLiteralFrom 0 1 [] (cs.drop 1)

/-! ## Regions -/

/-- The kinds of regions. -/
inductive RegionKind where
  | lineComment
  | blockComment
  | raw
  | string
  deriving DecidableEq, Repr

/-- The kind of region that the text starts with. -/
def RegionKind.at? : List Char → Option RegionKind
  | '/' :: '/' :: _ => some .lineComment
  | '/' :: '*' :: _ => some .blockComment
  | '\x60' :: _ => some .raw
  | '\x22' :: _ => some .string
  | _ => none

/-- A region at the start of a text: its length, and what is wrong if it is not closed. -/
structure Region where
  length : Nat
  fault : Option IssueKind
  deriving DecidableEq, Repr

/-- The issue of a region that starts at a position. -/
def Region.issues (pos : Nat) (region : Region) : List Issue :=
  region.fault.toList.map fun kind => ⟨kind, .ofLength pos region.length⟩

/-- Reads a block comment from behind its opening; `depth` comments are open around the innermost
one, and `length` characters were read. -/
def readComment (depth length : Nat) : List Char → Region
  | [] => ⟨length, some .unterminatedComment⟩
  | '*' :: '/' :: rest =>
    match depth with
    | 0 => ⟨length + 2, none⟩
    | depth + 1 => readComment depth (length + 2) rest
  | '/' :: '*' :: rest => readComment (depth + 1) (length + 2) rest
  | _ :: rest => readComment depth (length + 1) rest

/-- Reads raw text from behind its `ticks` backticks up to as many in a row; `run` of them stand right
before the rest, and `length` characters were read. -/
def readRaw (ticks run length : Nat) : List Char → Region
  | [] => ⟨length, some (if 3 ≤ ticks then .unterminatedRawBlock else .unterminatedRawText)⟩
  | c :: rest =>
    if c == '\x60' then
      if run + 1 == ticks then ⟨length + 1, none⟩ else readRaw ticks (run + 1) (length + 1) rest
    else readRaw ticks 0 (length + 1) rest

/-- Reads the region of a kind that the text starts with. Two backticks are an empty raw text. -/
def Region.read (kind : RegionKind) (cs : List Char) : Except Fault Region :=
  match kind with
  | .lineComment => .ok ⟨(cs.takeWhile (· != '\n')).length, none⟩
  | .blockComment => .ok (readComment 0 2 (cs.drop 2))
  | .raw =>
    let ticks := (cs.takeWhile (· == '\x60')).length
    .ok (if ticks == 2 then ⟨2, none⟩ else readRaw ticks 0 ticks (cs.drop ticks))
  | .string =>
    (readLiteral cs).map fun (text?, length) =>
      ⟨length, if text?.isSome then none else some .unterminatedString⟩

end TypstLint.Markup
