/-
# Theory.Sha256 — SHA-256 on byte lists

The hash function of FIPS 180-4 as executable definitions, so that an instance of
a model that is generic in its digest can be the real one: big-endian words,
padding to whole 64-byte blocks, the rolling 16-word message schedule and the 64
rounds over eight working variables.
-/
import Mathlib.Data.Vector.Basic

namespace CsdPool.Theory.Sha256

set_option autoImplicit false

abbrev Word := BitVec 32

/-- The first 32 fractional bits of the cube roots of the first 64 primes. -/
def roundConstants : List Word :=
  [0x428a2f98, 0x71374491, 0xb5c0fbcf, 0xe9b5dba5, 0x3956c25b, 0x59f111f1, 0x923f82a4, 0xab1c5ed5,
   0xd807aa98, 0x12835b01, 0x243185be, 0x550c7dc3, 0x72be5d74, 0x80deb1fe, 0x9bdc06a7, 0xc19bf174,
   0xe49b69c1, 0xefbe4786, 0x0fc19dc6, 0x240ca1cc, 0x2de92c6f, 0x4a7484aa, 0x5cb0a9dc, 0x76f988da,
   0x983e5152, 0xa831c66d, 0xb00327c8, 0xbf597fc7, 0xc6e00bf3, 0xd5a79147, 0x06ca6351, 0x14292967,
   0x27b70a85, 0x2e1b2138, 0x4d2c6dfc, 0x53380d13, 0x650a7354, 0x766a0abb, 0x81c2c92e, 0x92722c85,
   0xa2bfe8a1, 0xa81a664b, 0xc24b8b70, 0xc76c51a3, 0xd192e819, 0xd6990624, 0xf40e3585, 0x106aa070,
   0x19a4c116, 0x1e376c08, 0x2748774c, 0x34b0bcb5, 0x391c0cb3, 0x4ed8aa4a, 0x5b9cca4f, 0x682e6ff3,
   0x748f82ee, 0x78a5636f, 0x84c87814, 0x8cc70208, 0x90befffa, 0xa4506ceb, 0xbef9a3f7, 0xc67178f2]

/-- The eight working variables. -/
structure Working where
  a : Word
  b : Word
  c : Word
  d : Word
  e : Word
  f : Word
  g : Word
  h : Word

/-- The first 32 fractional bits of the square roots of the first 8 primes. -/
def initial : Working :=
  ⟨0x6a09e667, 0xbb67ae85, 0x3c6ef372, 0xa54ff53a,
   0x510e527f, 0x9b05688c, 0x1f83d9ab, 0x5be0cd19⟩

/-! ## Message schedule -/

/-- The two functions that spread the bits of the message schedule. -/
def smallSigma0 (x : Word) : Word := x.rotateRight 7 ^^^ x.rotateRight 18 ^^^ x >>> 3

def smallSigma1 (x : Word) : Word := x.rotateRight 17 ^^^ x.rotateRight 19 ^^^ x >>> 10

/-- The word after a window of sixteen. -/
def nextWord (window : List Word) : Word :=
  smallSigma1 (window.getD 14 0) + window.getD 9 0 + smallSigma0 (window.getD 1 0) +
    window.getD 0 0

/-- The next `n` words of the schedule, from the window of sixteen that begins it. -/
def schedule : Nat → List Word → List Word
  | 0, _ => []
  | _ + 1, [] => []
  | n + 1, word :: rest => word :: schedule n (rest ++ [nextWord (word :: rest)])

/-! ## Compression -/

/-- The two functions that spread the bits of the working variables. -/
def bigSigma0 (x : Word) : Word := x.rotateRight 2 ^^^ x.rotateRight 13 ^^^ x.rotateRight 22

def bigSigma1 (x : Word) : Word := x.rotateRight 6 ^^^ x.rotateRight 11 ^^^ x.rotateRight 25

/-- Each bit of `x` chooses between the bits of `y` and `z`. -/
def choose (x y z : Word) : Word := (x &&& y) ^^^ (~~~x &&& z)

/-- Each bit is the one that two of the three have at least. -/
def majority (x y z : Word) : Word := (x &&& y) ^^^ (x &&& z) ^^^ (y &&& z)

/-- One of the 64 rounds: all variables move one place, and two of them are made anew. -/
def round (s : Working) (input : Word × Word) : Working :=
  let t1 := s.h + bigSigma1 s.e + choose s.e s.f s.g + input.1 + input.2
  let t2 := bigSigma0 s.a + majority s.a s.b s.c
  ⟨t1 + t2, s.a, s.b, s.c, s.d + t1, s.e, s.f, s.g⟩

/-- The rounds of one block, added to what there was before it. -/
def compress (s : Working) (block : List Word) : Working :=
  let t := (roundConstants.zip (schedule 64 block)).foldl round s
  ⟨s.a + t.a, s.b + t.b, s.c + t.c, s.d + t.d, s.e + t.e, s.f + t.f, s.g + t.g, s.h + t.h⟩

/-! ## Bytes -/

/-- The low `width` bytes of a number, the highest first. -/
def bigEndian (width n : Nat) : List UInt8 :=
  (List.range width).reverse.map fun i => UInt8.ofNat (n / 256 ^ i)

/-- Four bytes to a word; what is left over at the end is dropped. -/
def words : List UInt8 → List Word
  | a :: b :: c :: d :: rest =>
      BitVec.ofNat 32 (((a.toNat * 256 + b.toNat) * 256 + c.toNat) * 256 + d.toNat) :: words rest
  | _ => []

/-- A one bit, zeros, and the length in bits, up to a whole number of blocks. -/
def padding (length : Nat) : List UInt8 :=
  0x80 :: List.replicate ((119 - length % 64) % 64) 0 ++ bigEndian 8 (8 * length)

/-- Sixteen words to a block. -/
def compressBlocks : Nat → List Word → Working → Working
  | 0, _, s => s
  | blocks + 1, message, s =>
      compressBlocks blocks (message.drop 16) (compress s (message.take 16))

def Working.words (s : Working) : List Word := [s.a, s.b, s.c, s.d, s.e, s.f, s.g, s.h]

/-- The digest of a text of bytes, as 32 of them. -/
def digest (bytes : List UInt8) : List.Vector UInt8 32 :=
  let message := words (bytes ++ padding bytes.length)
  let result := compressBlocks (message.length / 16) message initial
  List.Vector.ofFn fun i =>
    UInt8.ofNat ((result.words.getD (i.val / 4) 0).toNat / 256 ^ (3 - i.val % 4))

-- The standard's own example, the text "abc".
example : (digest [0x61, 0x62, 0x63]).toList.take 4 = [0xba, 0x78, 0x16, 0xbf] := by
  decide +kernel

end CsdPool.Theory.Sha256
