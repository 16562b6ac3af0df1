/-
# PolicyClient.Digest.Sha256 -- the SHA-256 digest

The message is padded to blocks of 64 bytes (`padding`), each block is worked into
eight registers by 64 rounds, and the registers of all rounds add up to the digest.
The schedule is a window on the last sixteen words: each round uses its first word and
appends the one that follows (`Window.next`).
-/

namespace PolicyClient

set_option autoImplicit false

namespace Sha256

/-- The eight working words. -/
structure Registers where
  a : UInt32
  b : UInt32
  c : UInt32
  d : UInt32
  e : UInt32
  f : UInt32
  g : UInt32
  h : UInt32
deriving DecidableEq

/-- Fractional parts of the square roots of the first eight primes. -/
def initial : Registers :=
  ⟨0x6a09e667, 0xbb67ae85, 0x3c6ef372, 0xa54ff53a, 0x510e527f, 0x9b05688c, 0x1f83d9ab, 0x5be0cd19⟩

/-- Fractional parts of the cube roots of the first 64 primes. -/
def roundConstants : List UInt32 := [
  0x428a2f98, 0x71374491, 0xb5c0fbcf, 0xe9b5dba5, 0x3956c25b, 0x59f111f1, 0x923f82a4, 0xab1c5ed5,
  0xd807aa98, 0x12835b01, 0x243185be, 0x550c7dc3, 0x72be5d74, 0x80deb1fe, 0x9bdc06a7, 0xc19bf174,
  0xe49b69c1, 0xefbe4786, 0x0fc19dc6, 0x240ca1cc, 0x2de92c6f, 0x4a7484aa, 0x5cb0a9dc, 0x76f988da,
  0x983e5152, 0xa831c66d, 0xb00327c8, 0xbf597fc7, 0xc6e00bf3, 0xd5a79147, 0x06ca6351, 0x14292967,
  0x27b70a85, 0x2e1b2138, 0x4d2c6dfc, 0x53380d13, 0x650a7354, 0x766a0abb, 0x81c2c92e, 0x92722c85,
  0xa2bfe8a1, 0xa81a664b, 0xc24b8b70, 0xc76c51a3, 0xd192e819, 0xd6990624, 0xf40e3585, 0x106aa070,
  0x19a4c116, 0x1e376c08, 0x2748774c, 0x34b0bcb5, 0x391c0cb3, 0x4ed8aa4a, 0x5b9cca4f, 0x682e6ff3,
  0x748f82ee, 0x78a5636f, 0x84c87814, 0x8cc70208, 0x90befffa, 0xa4506ceb, 0xbef9a3f7, 0xc67178f2]

def rotateRight (x : UInt32) (n : UInt32) : UInt32 := (x >>> n) ||| (x <<< (32 - n))

/-- Big-endian words of a list of bytes; trailing bytes that fill no word are left. -/
def words : List UInt8 → List UInt32
  | a :: b :: c :: d :: rest =>
    ((a.toUInt32 <<< 24) ||| (b.toUInt32 <<< 16) ||| (c.toUInt32 <<< 8) ||| d.toUInt32) :: words rest
  | _ => []

/-- The word that follows sixteen words of the schedule. -/
def nextWord (window : List UInt32) : UInt32 :=
  let x := window.getD 1 0
  let y := window.getD 14 0
  let s0 := rotateRight x 7 ^^^ rotateRight x 18 ^^^ (x >>> 3)
  let s1 := rotateRight y 17 ^^^ rotateRight y 19 ^^^ (y >>> 10)
  window.getD 0 0 + s0 + window.getD 9 0 + s1

/-- One round, with its constant and its word of the schedule. -/
def round (r : Registers) (constant word : UInt32) : Registers :=
  let s1 := rotateRight r.e 6 ^^^ rotateRight r.e 11 ^^^ rotateRight r.e 25
  let choice := (r.e &&& r.f) ^^^ ((~~~ r.e) &&& r.g)
  let t1 := r.h + s1 + choice + constant + word
  let s0 := rotateRight r.a 2 ^^^ rotateRight r.a 13 ^^^ rotateRight r.a 22
  let majority := (r.a &&& r.b) ^^^ (r.a &&& r.c) ^^^ (r.b &&& r.c)
  ⟨t1 + s0 + majority, r.a, r.b, r.c, r.d + t1, r.e, r.f, r.g⟩

def Registers.add (r s : Registers) : Registers :=
  ⟨r.a + s.a, r.b + s.b, r.c + s.c, r.d + s.d, r.e + s.e, r.f + s.f, r.g + s.g, r.h + s.h⟩

/-- Works one block of sixteen words into the registers. -/
def compress (r : Registers) (block : List UInt32) : Registers :=
  let finish := roundConstants.foldl
    (fun (state : Registers × List UInt32) constant =>
      (round state.1 constant (state.2.headD 0), state.2.tail ++ [nextWord state.2]))
    (r, block)
  r.add finish.1

/-- Works words into the registers, sixteen at a time. -/
def compressAll (r : Registers) (message : List UInt32) : Registers :=
  if message.isEmpty then r else compressAll (compress r (message.take 16)) (message.drop 16)
termination_by message.length
decreasing_by
  rename_i h
  cases message with
  | nil => simp at h
  | cons w ws => simp only [List.length_drop, List.length_cons]; omega

/-- `n` in `width` bytes, highest first. -/
def bigEndian : (width : Nat) → (n : Nat) → List UInt8
  | 0, _ => []
  | width + 1, n => bigEndian width (n / 256) ++ [UInt8.ofNat n]

/-- A one bit, zeros, and the length in bits, up to a whole number of blocks. -/
def padding (length : Nat) : List UInt8 :=
  0x80 :: (List.replicate ((119 - length % 64) % 64) 0 ++ bigEndian 8 (8 * length))

end Sha256

/-- The 32 bytes of a SHA-256 digest. -/
structure Digest where
  bytes : List UInt8
deriving DecidableEq, Inhabited, Repr

/-- The SHA-256 digest of a message. -/
def Digest.of (message : List UInt8) : Digest :=
  let r := Sha256.compressAll Sha256.initial
    (Sha256.words (message ++ Sha256.padding message.length))
  ⟨[r.a, r.b, r.c, r.d, r.e, r.f, r.g, r.h].flatMap fun w => Sha256.bigEndian 4 w.toNat⟩

end PolicyClient
