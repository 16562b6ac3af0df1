/-
# PolicyClient.Wire.Varint -- numbers in bytes of seven bits

A number is written lowest bits first, seven to a byte, every byte but the last with its
high bit set.  Reading takes at most ten bytes, of which the tenth holds one bit; shorter
forms padded with zero bits are read like any other.
-/

namespace PolicyClient

set_option autoImplicit false

namespace Wire

namespace Varint

def encode (n : Nat) : List UInt8 :=
  if n < 128 then [UInt8.ofNat n] else UInt8.ofNat (n % 128 + 128) :: encode (n / 128)
termination_by n
decreasing_by omega

/-- Reads a number of at most `limit` bytes, and gives the bytes after it. -/
def decodeWithin? : (limit : Nat) → List UInt8 → Option (Nat × List UInt8)
  | 0, _ => none
  | _, [] => none
  | limit + 1, b :: rest =>
    if b.toNat < 128 then
      if limit = 0 ∧ 2 ≤ b.toNat then none else some (b.toNat, rest)
    else (decodeWithin? limit rest).map fun (high, rest) => (b.toNat - 128 + 128 * high, rest)

/-- Reads a number of 64 bits, and gives the bytes after it. -/
def decode? (bytes : List UInt8) : Option (Nat × List UInt8) := decodeWithin? 10 bytes

end Varint

end Wire

end PolicyClient
