/-
# PolicyClient.Text.Hex -- bytes as pairs of hexadecimal digits
-/

namespace PolicyClient

set_option autoImplicit false

namespace Hex

def digit (n : Nat) : Char := Nat.digitChar (n % 16)

/-- Two lower-case digits per byte. -/
def encode (bytes : List UInt8) : String :=
  String.ofList (bytes.flatMap fun b => [digit (b.toNat / 16), digit b.toNat])

/-- The value of a digit of either case. -/
def value? (c : Char) : Option Nat :=
  if '0' ≤ c ∧ c ≤ '9' then some (c.toNat - '0'.toNat)
  else if 'a' ≤ c ∧ c ≤ 'f' then some (c.toNat - 'a'.toNat + 10)
  else if 'A' ≤ c ∧ c ≤ 'F' then some (c.toNat - 'A'.toNat + 10)
  else none

/-- The bytes of a text of digit pairs. -/
def decode? : List Char → Option (List UInt8)
  | [] => some []
  | high :: low :: rest => do
    let h ← value? high
    let l ← value? low
    let bytes ← decode? rest
    return UInt8.ofNat (16 * h + l) :: bytes
  | [_] => none

/-- The number that sixteen or fewer digits write. -/
def number? (digits : List Char) : Option Nat :=
  digits.foldlM (fun n c => (value? c).map (16 * n + ·)) 0

/-- The `width` last hexadecimal digits of `n`. -/
def fixed : (width : Nat) → (n : Nat) → List Char
  | 0, _ => []
  | width + 1, n => fixed width (n / 16) ++ [digit n]

end Hex

end PolicyClient
