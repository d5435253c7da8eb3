import TypstLint.Digest.Block

set_option autoImplicit false

/-! # Keyed digests

The keyed digest of a message hashes it behind a block made from the key, and hashes the result
behind a second such block. A key longer than a block is replaced by its own digest. -/

/-! ## SHA-1 -/

namespace TypstLint.Digest.Sha1

/-- The chaining value. -/
structure State where
  a : UInt32
  b : UInt32
  c : UInt32
  d : UInt32
  e : UInt32

/-- The chaining value before the first block. -/
def State.init : State := ⟨0x67452301, 0xEFCDAB89, 0x98BADCFE, 0x10325476, 0xC3D2E1F0⟩

/-- Extends a message schedule, held last word first, by `n` words. -/
def extend : Nat → List UInt32 → List UInt32
  | 0, ws => ws
  | n + 1, ws =>
    let at_ (i : Nat) := ws.getD (i - 1) 0
    extend n (rotl (at_ 3 ^^^ at_ 8 ^^^ at_ 14 ^^^ at_ 16) 1 :: ws)

/-- The mixing function and the constant of round `t`. -/
def roundMix (t : Nat) (s : State) : UInt32 :=
  if t < 20 then ((s.b &&& s.c) ||| (~~~s.b &&& s.d)) + 0x5A827999
  else if t < 40 then (s.b ^^^ s.c ^^^ s.d) + 0x6ED9EBA1
  else if t < 60 then ((s.b &&& s.c) ||| (s.b &&& s.d) ||| (s.c &&& s.d)) + 0x8F1BBCDC
  else (s.b ^^^ s.c ^^^ s.d) + 0xCA62C1D6

/-- One round with its schedule word. -/
def round (s : State) (tw : UInt32 × Nat) : State :=
  ⟨rotl s.a 5 + roundMix tw.2 s + s.e + tw.1, s.a, rotl s.b 30, s.c, s.d⟩

/-- Takes one block into the chaining value. -/
def compress (s : State) (block : List UInt32) : State :=
  let t := (extend 64 block.reverse).reverse.zipIdx.foldl round s
  ⟨s.a + t.a, s.b + t.b, s.c + t.c, s.d + t.d, s.e + t.e⟩

/-- The digest of a message. -/
def hash (message : ByteArray) : List UInt8 :=
  let s := foldMessage compress State.init message
  bytesOf [s.a, s.b, s.c, s.d, s.e]

end TypstLint.Digest.Sha1

/-! ## SHA-256 -/

namespace TypstLint.Digest.Sha256

/-- The round constants: fractional parts of the cube roots of the first 64 primes. -/
def constants : List UInt32 :=
  [0x428a2f98, 0x71374491, 0xb5c0fbcf, 0xe9b5dba5, 0x3956c25b, 0x59f111f1, 0x923f82a4, 0xab1c5ed5,
   0xd807aa98, 0x12835b01, 0x243185be, 0x550c7dc3, 0x72be5d74, 0x80deb1fe, 0x9bdc06a7, 0xc19bf174,
   0xe49b69c1, 0xefbe4786, 0x0fc19dc6, 0x240ca1cc, 0x2de92c6f, 0x4a7484aa, 0x5cb0a9dc, 0x76f988da,
   0x983e5152, 0xa831c66d, 0xb00327c8, 0xbf597fc7, 0xc6e00bf3, 0xd5a79147, 0x06ca6351, 0x14292967,
   0x27b70a85, 0x2e1b2138, 0x4d2c6dfc, 0x53380d13, 0x650a7354, 0x766a0abb, 0x81c2c92e, 0x92722c85,
   0xa2bfe8a1, 0xa81a664b, 0xc24b8b70, 0xc76c51a3, 0xd192e819, 0xd6990624, 0xf40e3585, 0x106aa070,
   0x19a4c116, 0x1e376c08, 0x2748774c, 0x34b0bcb5, 0x391c0cb3, 0x4ed8aa4a, 0x5b9cca4f, 0x682e6ff3,
   0x748f82ee, 0x78a5636f, 0x84c87814, 0x8cc70208, 0x90befffa, 0xa4506ceb, 0xbef9a3f7, 0xc67178f2]

/-- The chaining value. -/
structure State where
  a : UInt32
  b : UInt32
  c : UInt32
  d : UInt32
  e : UInt32
  f : UInt32
  g : UInt32
  h : UInt32

/-- The chaining value before the first block. -/
def State.init : State :=
  ⟨0x6a09e667, 0xbb67ae85, 0x3c6ef372, 0xa54ff53a, 0x510e527f, 0x9b05688c, 0x1f83d9ab, 0x5be0cd19⟩

/-- Extends a message schedule, held last word first, by `n` words. -/
def extend : Nat → List UInt32 → List UInt32
  | 0, ws => ws
  | n + 1, ws =>
    let at_ (i : Nat) := ws.getD (i - 1) 0
    let s0 := rotr (at_ 15) 7 ^^^ rotr (at_ 15) 18 ^^^ at_ 15 >>> 3
    let s1 := rotr (at_ 2) 17 ^^^ rotr (at_ 2) 19 ^^^ at_ 2 >>> 10
    extend n ((at_ 16 + s0 + at_ 7 + s1) :: ws)

/-- One round with its schedule word and constant. -/
def round (s : State) (wk : UInt32 × UInt32) : State :=
  let s1 := rotr s.e 6 ^^^ rotr s.e 11 ^^^ rotr s.e 25
  let choice := (s.e &&& s.f) ^^^ (~~~s.e &&& s.g)
  let t1 := s.h + s1 + choice + wk.2 + wk.1
  let s0 := rotr s.a 2 ^^^ rotr s.a 13 ^^^ rotr s.a 22
  let majority := (s.a &&& s.b) ^^^ (s.a &&& s.c) ^^^ (s.b &&& s.c)
  ⟨t1 + s0 + majority, s.a, s.b, s.c, s.d + t1, s.e, s.f, s.g⟩

/-- Takes one block into the chaining value. -/
def compress (s : State) (block : List UInt32) : State :=
  let t := ((extend 48 block.reverse).reverse.zip constants).foldl round s
  ⟨s.a + t.a, s.b + t.b, s.c + t.c, s.d + t.d, s.e + t.e, s.f + t.f, s.g + t.g, s.h + t.h⟩

/-- The digest of a message. -/
def hash (message : ByteArray) : List UInt8 :=
  let s := foldMessage compress State.init message
  bytesOf [s.a, s.b, s.c, s.d, s.e, s.f, s.g, s.h]

end TypstLint.Digest.Sha256

/-! ## Keys -/

namespace TypstLint.Digest

/-- The hash functions that webhook signatures use. -/
inductive Algorithm where
  | sha1
  | sha256
  deriving DecidableEq, Repr

/-- The name of a hash function in a signature header. -/
def Algorithm.name : Algorithm → String
  | .sha1 => "sha1"
  | .sha256 => "sha256"

/-- The digest of a message. -/
def Algorithm.hash : Algorithm → ByteArray → List UInt8
  | .sha1 => Sha1.hash
  | .sha256 => Sha256.hash

/-- The key filled up to one block of 64 bytes. -/
def keyBlock (alg : Algorithm) (key : ByteArray) : List UInt8 :=
  let k := if key.size ≤ 64 then key.toList else alg.hash key
  k ++ List.replicate (64 - k.length) 0

/-- The keyed digest of a message. -/
def hmac (alg : Algorithm) (key message : ByteArray) : List UInt8 :=
  let block := keyBlock alg key
  let inner := alg.hash (⟨(block.map (· ^^^ 0x36)).toArray⟩ ++ message)
  alg.hash ⟨(block.map (· ^^^ 0x5C) ++ inner).toArray⟩

end TypstLint.Digest
