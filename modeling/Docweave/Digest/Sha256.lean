import Docweave.Text.Quoted

set_option autoImplicit false

/-! # SHA-256

The digest of a message is computed block by block over words of 32 bits: the message is padded to
whole blocks of 64 bytes, each block is spread to 64 words, and these are mixed one by one into a
state of eight words. -/

namespace Docweave.Sha256

/-! ## Words -/

/-- A word turned to the right. -/
def rotate (x n : UInt32) : UInt32 := (x >>> n) ||| (x <<< (32 - n))

/-- The word that four bytes make, highest first. -/
def wordOf (a b c d : UInt8) : UInt32 :=
  (a.toUInt32 <<< 24) ||| (b.toUInt32 <<< 16) ||| (c.toUInt32 <<< 8) ||| d.toUInt32

/-- The words that bytes make. -/
def wordsOf : List UInt8 → List UInt32
  | a :: b :: c :: d :: rest => wordOf a b c d :: wordsOf rest
  | _ => []

/-- The bytes of a word, highest first. -/
def bytesOf (x : UInt32) : List UInt8 :=
  [(x >>> 24).toUInt8, (x >>> 16).toUInt8, (x >>> 8).toUInt8, x.toUInt8]

/-- The word mixed in at each of the 64 rounds. -/
def roundWords : List UInt32 :=
  [0x428a2f98, 0x71374491, 0xb5c0fbcf, 0xe9b5dba5, 0x3956c25b, 0x59f111f1, 0x923f82a4, 0xab1c5ed5,
    0xd807aa98, 0x12835b01, 0x243185be, 0x550c7dc3, 0x72be5d74, 0x80deb1fe, 0x9bdc06a7, 0xc19bf174,
    0xe49b69c1, 0xefbe4786, 0x0fc19dc6, 0x240ca1cc, 0x2de92c6f, 0x4a7484aa, 0x5cb0a9dc, 0x76f988da,
    0x983e5152, 0xa831c66d, 0xb00327c8, 0xbf597fc7, 0xc6e00bf3, 0xd5a79147, 0x06ca6351, 0x14292967,
    0x27b70a85, 0x2e1b2138, 0x4d2c6dfc, 0x53380d13, 0x650a7354, 0x766a0abb, 0x81c2c92e, 0x92722c85,
    0xa2bfe8a1, 0xa81a664b, 0xc24b8b70, 0xc76c51a3, 0xd192e819, 0xd6990624, 0xf40e3585, 0x106aa070,
    0x19a4c116, 0x1e376c08, 0x2748774c, 0x34b0bcb5, 0x391c0cb3, 0x4ed8aa4a, 0x5b9cca4f, 0x682e6ff3,
    0x748f82ee, 0x78a5636f, 0x84c87814, 0x8cc70208, 0x90befffa, 0xa4506ceb, 0xbef9a3f7, 0xc67178f2]

/-! ## Blocks -/

/-- One more word, from the words before it, last first. -/
def nextWord (before : List UInt32) : UInt32 :=
  let word (i : Nat) : UInt32 := before[i]?.getD 0
  let low := rotate (word 14) 7 ^^^ rotate (word 14) 18 ^^^ (word 14 >>> 3)
  let high := rotate (word 1) 17 ^^^ rotate (word 1) 19 ^^^ (word 1 >>> 10)
  high + word 6 + low + word 15

/-- The words before, last first, with `n` more. -/
def extend (before : List UInt32) : Nat → List UInt32
  | 0 => before
  | n + 1 => extend (nextWord before :: before) n

/-- The 64 words that the sixteen words of a block are spread to. -/
def spread (block : List UInt32) : List UInt32 := (extend block.reverse 48).reverse

/-- The eight words of the state. -/
structure State where
  /-- The first word. -/
  a : UInt32
  /-- The second word. -/
  b : UInt32
  /-- The third word. -/
  c : UInt32
  /-- The fourth word. -/
  d : UInt32
  /-- The fifth word. -/
  e : UInt32
  /-- The sixth word. -/
  f : UInt32
  /-- The seventh word. -/
  g : UInt32
  /-- The eighth word. -/
  h : UInt32

/-- The state before the first block. -/
def State.start : State :=
  ⟨0x6a09e667, 0xbb67ae85, 0x3c6ef372, 0xa54ff53a, 0x510e527f, 0x9b05688c, 0x1f83d9ab, 0x5be0cd19⟩

/-- The words of a state in order. -/
def State.words (s : State) : List UInt32 := [s.a, s.b, s.c, s.d, s.e, s.f, s.g, s.h]

/-- The state after one round. -/
def State.round (s : State) (mixed : UInt32) : State :=
  let choice := (s.e &&& s.f) ^^^ ((s.e ^^^ 0xffffffff) &&& s.g)
  let majority := (s.a &&& s.b) ^^^ (s.a &&& s.c) ^^^ (s.b &&& s.c)
  let first := s.h + (rotate s.e 6 ^^^ rotate s.e 11 ^^^ rotate s.e 25) + choice + mixed
  let second := (rotate s.a 2 ^^^ rotate s.a 13 ^^^ rotate s.a 22) + majority
  ⟨first + second, s.a, s.b, s.c, s.d + first, s.e, s.f, s.g⟩

/-- The state after one block. -/
def State.block (s : State) (words : List UInt32) : State :=
  let t := ((spread words).zipWith (· + ·) roundWords).foldl State.round s
  ⟨s.a + t.a, s.b + t.b, s.c + t.c, s.d + t.d, s.e + t.e, s.f + t.f, s.g + t.g, s.h + t.h⟩

/-- The state after the first `n` blocks of some words. -/
def State.blocks (s : State) (words : List UInt32) : Nat → State
  | 0 => s
  | n + 1 => (s.block (words.take 16)).blocks (words.drop 16) n

/-! ## Messages -/

/-- The message filled up to whole blocks: a one bit, zero bits, and its length in bits. -/
def pad (message : List UInt8) : List UInt8 :=
  let bits := 8 * message.length
  let zeros := (119 - message.length % 64) % 64
  message ++ 0x80 :: List.replicate zeros 0 ++
    bytesOf (UInt32.ofNat (bits / Nat.pow 2 32)) ++ bytesOf (UInt32.ofNat bits)

end Docweave.Sha256

namespace Docweave

/-- The digest of a text. -/
structure Digest where
  /-- The 32 bytes of the digest. -/
  bytes : List UInt8
deriving DecidableEq, Repr

namespace Digest

/-- The bytes of a text in UTF-8. -/
def utf8 (s : List Char) : List UInt8 := s.flatMap String.utf8EncodeChar

/-- The digest of a list of bytes. -/
def ofBytes (message : List UInt8) : Digest :=
  let words := Sha256.wordsOf (Sha256.pad message)
  ⟨(Sha256.State.start.blocks words (words.length / 16)).words.flatMap Sha256.bytesOf⟩

/-- The digest of the UTF-8 form of a text. -/
def ofText (s : List Char) : Digest := ofBytes (utf8 s)

/-- A byte in two hexadecimal digits. -/
def hexByte (b : UInt8) : List Char :=
  [Nat.digitChar (b.toNat / 16), Nat.digitChar (b.toNat % 16)]

/-- The first eight bytes in hexadecimal. -/
def display (d : Digest) : String := .ofList ((d.bytes.take 8).flatMap hexByte)

end Digest

end Docweave
