set_option autoImplicit false

/-! # Blocks of a message

Both hash functions of this library work on blocks of sixteen big-endian 32-bit words. The message is
padded with a one bit, zeros and its length in bits, so that it fills whole blocks. -/

namespace TypstLint.Digest

/-- The last `width` bytes of `n`, most significant first. -/
def bigEndian (width n : Nat) : List UInt8 :=
  (List.range width).map fun i => UInt8.ofNat (n / Nat.pow 256 (width - 1 - i))

/-- The padding of a message of `size` bytes. -/
def padding (size : Nat) : List UInt8 :=
  0x80 :: List.replicate ((119 - size % 64) % 64) 0 ++ bigEndian 8 (8 * size)

/-- The word that four bytes make. -/
def word (a b c d : UInt8) : UInt32 :=
  a.toUInt32 <<< 24 ||| b.toUInt32 <<< 16 ||| c.toUInt32 <<< 8 ||| d.toUInt32

/-- The words of a sequence of bytes. -/
def wordsOf : List UInt8 → List UInt32
  | a :: b :: c :: d :: rest => word a b c d :: wordsOf rest
  | _ => []

/-- Rotation to the left. -/
def rotl (x : UInt32) (n : UInt32) : UInt32 := x <<< n ||| x >>> (32 - n)

/-- Rotation to the right. -/
def rotr (x : UInt32) (n : UInt32) : UInt32 := x >>> n ||| x <<< (32 - n)

/-- Folds a function over the blocks of 64 bytes, each as sixteen words; `count` is their number. -/
def foldBlocks {σ : Type} (f : σ → List UInt32 → σ) : Nat → σ → List UInt8 → σ
  | 0, s, _ => s
  | count + 1, s, bytes => foldBlocks f count (f s (wordsOf (bytes.take 64))) (bytes.drop 64)

/-- The blocks of a padded message folded from the state `init`. -/
def foldMessage {σ : Type} (f : σ → List UInt32 → σ) (init : σ) (message : ByteArray) : σ :=
  let bytes := message.toList ++ padding message.size
  foldBlocks f (bytes.length / 64) init bytes

/-- The bytes of a row of words. -/
def bytesOf (ws : List UInt32) : List UInt8 := ws.flatMap fun w => bigEndian 4 w.toNat

/-- The lower-case hexadecimal text of bytes. -/
def toHex (bytes : List UInt8) : String :=
  String.ofList <| bytes.flatMap fun b =>
    [Nat.digitChar (b.toNat / 16), Nat.digitChar (b.toNat % 16)]

end TypstLint.Digest
