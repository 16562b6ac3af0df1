/-
# PolicyClient.Binary64 -- double precision numbers as bits

A number is its 64 bits: a sign, eleven exponent bits and 52 fraction bits.  Every
operation is exact arithmetic on `significand * 2 ^ scale` followed by one rounding
to the nearest double, a tie going to the even one (`nearest`).  Comparison goes
through `rank`, which gives both zeros the same place.

An operation that has no number as its answer gives the quiet NaN `nan`.
-/

namespace PolicyClient

set_option autoImplicit false

/-- A double precision number, given by its bits. -/
structure Binary64 where
  bits : UInt64
deriving DecidableEq, Inhabited, Repr

namespace Binary64

/-! ## Parts -/

def isNegative (x : Binary64) : Bool := x.bits.toNat ≥ Nat.pow 2 63

/-- The biased exponent. -/
def exponentField (x : Binary64) : Nat := x.bits.toNat / Nat.pow 2 52 % Nat.pow 2 11

/-- The fraction bits. -/
def fraction (x : Binary64) : Nat := x.bits.toNat % Nat.pow 2 52

def isNaN (x : Binary64) : Bool := x.exponentField == 2047 && x.fraction != 0

def isInfinite (x : Binary64) : Bool := x.exponentField == 2047 && x.fraction == 0

def isFinite (x : Binary64) : Bool := x.exponentField != 2047

def isZero (x : Binary64) : Bool := x.exponentField == 0 && x.fraction == 0

/-- A finite number is `significand * 2 ^ scale`, up to its sign. -/
def significand (x : Binary64) : Nat :=
  if x.exponentField = 0 then x.fraction else Nat.pow 2 52 + x.fraction

/-- The binary place of the last bit of `significand`. -/
def scale (x : Binary64) : Int := (Nat.max x.exponentField 1 : Int) - 1075

/-! ## Building -/

/-- The number with this sign and these 63 magnitude bits. -/
def ofMagnitude (negative : Bool) (magnitude : Nat) : Binary64 :=
  ⟨UInt64.ofNat ((if negative then Nat.pow 2 63 else 0) + magnitude)⟩

/-- The magnitude bits of infinity, above those of every finite number. -/
def infiniteMagnitude : Nat := 2047 * Nat.pow 2 52

def zero : Binary64 := ofMagnitude false 0

def one : Binary64 := ofMagnitude false (1023 * Nat.pow 2 52)

def nan : Binary64 := ofMagnitude false (infiniteMagnitude + Nat.pow 2 51)

def infinity (negative : Bool) : Binary64 := ofMagnitude negative infiniteMagnitude

/-- The quotient `num / den` rounded to an integer, a tie going to the even one. -/
def roundedQuotient (num den : Nat) : Nat :=
  let quotient := num / den
  let twice := 2 * (num % den)
  if twice < den then quotient
  else if den < twice then quotient + 1
  else quotient + quotient % 2

/-- The place of the last bit that a number near `num / den` can hold: the place at
which the quotient has 53 bits, and never below that of the smallest number. -/
def lastPlace (num den : Nat) : Int :=
  let estimate : Int := (num.log2 : Int) - den.log2 - 53
  let tooLow : Bool :=
    if 0 ≤ estimate then den * Nat.pow 2 (53 + estimate.toNat) ≤ num
    else den * Nat.pow 2 53 ≤ num * Nat.pow 2 (-estimate).toNat
  max (-1074) (if tooLow then estimate + 1 else estimate)

/-- The double nearest to `num / den`, of two equally near ones the even one.  A
quotient beyond the largest double rounds to infinity. -/
def nearest (negative : Bool) (num den : Nat) : Binary64 :=
  if num = 0 then ofMagnitude negative 0
  else
    let place := lastPlace num den
    let rounded :=
      if 0 ≤ place then roundedQuotient num (den * Nat.pow 2 place.toNat)
      else roundedQuotient (num * Nat.pow 2 (-place).toNat) den
    ofMagnitude negative (min infiniteMagnitude ((place + 1074).toNat * Nat.pow 2 52 + rounded))

/-- The double nearest to `significand * 2 ^ scale`. -/
def nearestScaled (negative : Bool) (significand : Nat) (scale : Int) : Binary64 :=
  if 0 ≤ scale then nearest negative (significand * Nat.pow 2 scale.toNat) 1
  else nearest negative significand (Nat.pow 2 (-scale).toNat)

def ofNat (n : Nat) : Binary64 := nearest false n 1

def ofInt (i : Int) : Binary64 := nearest (i < 0) i.natAbs 1

/-- The double nearest to `digits * 10 ^ exponent`.  Exponents that put the value
outside the range of doubles whatever the digits are cut off before the power is
formed. -/
def ofDecimal (negative : Bool) (digits : Nat) (exponent : Int) : Binary64 :=
  if digits = 0 then ofMagnitude negative 0
  else if 0 ≤ exponent then
    if 400 < exponent then infinity negative
    else nearest negative (digits * Nat.pow 10 exponent.toNat) 1
  else if 400 + (digits.log2 : Int) < -exponent then ofMagnitude negative 0
  else nearest negative digits (Nat.pow 10 (-exponent).toNat)

/-! ## Order -/

/-- The place of a number among all numbers that are not NaN; both zeros are at 0. -/
def rank (x : Binary64) : Int :=
  let magnitude : Int := (x.bits.toNat % Nat.pow 2 63 : Nat)
  if x.isNegative then -magnitude else magnitude

/-- Numeric equality: the zeros are equal, NaN equals nothing. -/
def same (x y : Binary64) : Bool := !x.isNaN && !y.isNaN && x.rank == y.rank

def le (x y : Binary64) : Bool := !x.isNaN && !y.isNaN && x.rank ≤ y.rank

def lt (x y : Binary64) : Bool := !x.isNaN && !y.isNaN && x.rank < y.rank

/-- The lesser of two numbers; a NaN gives way to the other. -/
def least (x y : Binary64) : Binary64 :=
  if x.isNaN then y else if y.isNaN then x else if y.lt x then y else x

/-- The greater of two numbers; a NaN gives way to the other. -/
def greatest (x y : Binary64) : Binary64 :=
  if x.isNaN then y else if y.isNaN then x else if x.lt y then y else x

/-! ## Arithmetic -/

/-- A finite number in units of `2 ^ place`, where `place` is at most its scale. -/
def unitsAt (x : Binary64) (place : Int) : Int :=
  let units : Int := (x.significand * Nat.pow 2 (x.scale - place).toNat : Nat)
  if x.isNegative then -units else units

def add (x y : Binary64) : Binary64 :=
  if x.isNaN || y.isNaN then nan
  else if x.isInfinite then
    if y.isInfinite && x.isNegative != y.isNegative then nan else x
  else if y.isInfinite then y
  else
    let place := min x.scale y.scale
    let sum := x.unitsAt place + y.unitsAt place
    let negative := if sum = 0 then x.isNegative && y.isNegative else decide (sum < 0)
    nearestScaled negative sum.natAbs place

/-- The number with the other sign. -/
def negate (x : Binary64) : Binary64 := ofMagnitude (!x.isNegative) (x.bits.toNat % Nat.pow 2 63)

def sub (x y : Binary64) : Binary64 := x.add y.negate

def mul (x y : Binary64) : Binary64 :=
  let negative := x.isNegative != y.isNegative
  if x.isNaN || y.isNaN then nan
  else if x.isInfinite || y.isInfinite then
    if x.isZero || y.isZero then nan else infinity negative
  else nearestScaled negative (x.significand * y.significand) (x.scale + y.scale)

def div (x y : Binary64) : Binary64 :=
  let negative := x.isNegative != y.isNegative
  if x.isNaN || y.isNaN then nan
  else if x.isInfinite then if y.isInfinite then nan else infinity negative
  else if y.isInfinite then ofMagnitude negative 0
  else if y.isZero then if x.isZero then nan else infinity negative
  else
    let place := x.scale - y.scale
    if 0 ≤ place then nearest negative (x.significand * Nat.pow 2 place.toNat) y.significand
    else nearest negative x.significand (y.significand * Nat.pow 2 (-place).toNat)

/-- `result * base ^ n` by repeated squaring, each product rounded: the lowest bit of
`n` decides whether `base` is a factor, then `base` is squared for the next bit. -/
def powFrom (result base : Binary64) (n : Nat) : Binary64 :=
  let result := if n % 2 = 1 then result.mul base else result
  if n / 2 = 0 then result else powFrom result (base.mul base) (n / 2)
termination_by n
decreasing_by omega

def pow (base : Binary64) (n : Nat) : Binary64 := powFrom one base n

/-! ## Canonical form -/

/-- One representative for both zeros and one for all NaNs; other numbers are their
own. -/
def canonical (x : Binary64) : Binary64 :=
  if x.isZero then zero else if x.isNaN then nan else x

end Binary64

end PolicyClient
