/-
# PolicyClient.Duration -- spans of time in nanoseconds

A duration counts nanoseconds; a point in time is the duration since the clock
started.  `Duration.text` writes a duration in the largest of the units s, ms, µs, ns
that it reaches.  The conversions to and from seconds as a double each round once, to
nearest and ties to even.
-/
import PolicyClient.Binary64

namespace PolicyClient

set_option autoImplicit false

/-- A span of time, in whole nanoseconds. -/
structure Duration where
  nanos : Nat
deriving DecidableEq, Inhabited, Repr

/-- A point in time: what has passed since the clock started. -/
abbrev Instant := Duration

namespace Duration

instance : LE Duration := ⟨fun a b => a.nanos ≤ b.nanos⟩

instance : LT Duration := ⟨fun a b => a.nanos < b.nanos⟩

instance (a b : Duration) : Decidable (a ≤ b) := inferInstanceAs (Decidable (a.nanos ≤ b.nanos))

instance (a b : Duration) : Decidable (a < b) := inferInstanceAs (Decidable (a.nanos < b.nanos))

instance : Add Duration := ⟨fun a b => ⟨a.nanos + b.nanos⟩⟩

/-- What is left of `a` beyond `b`; nothing if `a` is shorter. -/
instance : Sub Duration := ⟨fun a b => ⟨a.nanos - b.nanos⟩⟩

def zero : Duration := ⟨0⟩

def nanosPerSecond : Nat := 1000000000

def nanosPerMillisecond : Nat := 1000000

/-- A span of `secs` seconds and `nanos` nanoseconds; the latter may exceed a second. -/
def ofParts (secs nanos : Nat) : Duration := ⟨secs * nanosPerSecond + nanos⟩

def ofSeconds (n : Nat) : Duration := ofParts n 0

def ofMilliseconds (n : Nat) : Duration := ⟨n * nanosPerMillisecond⟩

/-- Whole seconds. -/
def seconds (d : Duration) : Nat := d.nanos / nanosPerSecond

/-- Nanoseconds beyond the whole seconds. -/
def subsecond (d : Duration) : Nat := d.nanos % nanosPerSecond

/-- Whole milliseconds. -/
def milliseconds (d : Duration) : Nat := d.nanos / nanosPerMillisecond

/-- The first whole millisecond not before `d`. -/
def roundUp (d : Duration) : Duration :=
  ⟨(d.nanos + (nanosPerMillisecond - 1)) / nanosPerMillisecond * nanosPerMillisecond⟩

/-- Where a clock ends that counts up to 2^63 seconds, and had counted one of them at the start. -/
def horizon : Instant := .ofParts (Nat.pow 2 63 - 2) 999999999

/-! ## Text -/

/-- `part` out of `unit` as decimal places without trailing zeros; nothing if `part`
is zero.  `unit` is a power of ten. -/
def places (part unit : Nat) : List Char :=
  if part = 0 ∨ unit ≤ 1 then []
  else Nat.digitChar (part / (unit / 10)) :: places (part % (unit / 10)) (unit / 10)
termination_by unit
decreasing_by omega

/-- `d` counted in a unit of `unit` nanoseconds. -/
def textIn (d : Duration) (unit : Nat) (name : String) : String :=
  let fraction := places (d.nanos % unit) unit
  let point := if fraction.isEmpty then "" else "."
  toString (d.nanos / unit) ++ point ++ String.ofList fraction ++ name

/-- The duration in the largest unit it reaches. -/
def text (d : Duration) : String :=
  if nanosPerSecond ≤ d.nanos then d.textIn nanosPerSecond "s"
  else if nanosPerMillisecond ≤ d.nanos then d.textIn nanosPerMillisecond "ms"
  else if 1000 ≤ d.nanos then d.textIn 1000 "µs"
  else d.textIn 1 "ns"

/-! ## Seconds as a double -/

/-- The seconds and the part of a second, each rounded, and their rounded sum. -/
def asSeconds (d : Duration) : Binary64 :=
  (Binary64.ofNat d.seconds).add
    ((Binary64.ofNat d.subsecond).div (Binary64.ofNat nanosPerSecond))

/-- The nanoseconds nearest to a number of seconds.  There are none for a negative
number, for NaN, or from 2^64 seconds on. -/
def ofSecondsNearest? (x : Binary64) : Option Duration :=
  if x.isNaN || x.lt Binary64.zero then none
  else if (Binary64.ofNat (Nat.pow 2 64)).le x then none
  else if 0 ≤ x.scale then some ⟨x.significand * Nat.pow 2 x.scale.toNat * nanosPerSecond⟩
  else some ⟨Binary64.roundedQuotient (x.significand * nanosPerSecond) (Nat.pow 2 (-x.scale).toNat)⟩

end Duration

end PolicyClient
