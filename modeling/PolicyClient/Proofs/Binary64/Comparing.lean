/-
# PolicyClient.Proofs.Binary64.Comparing -- which of two numbers is less

Comparisons go by rank and refuse what is no number (`Binary64.le_iff`, `Binary64.lt_iff`).  The
lesser of two numbers passes over one that is none (`Binary64.le_least_iff`), and so the lesser of
anything and a number is a number no greater than that (`Binary64.rank_least_le`).

A product of what is not negative is not negative, also if it overflows.  A share of a number, up to
one, is no more than the number, and what is left of it when the share is taken off is rounded once
(`Ordinary.rank_mul_le`, `Ordinary.rounds_sub`).
-/
import PolicyClient.Proofs.Binary64.Rounding

namespace PolicyClient

set_option autoImplicit false

namespace Binary64

/-! ## Comparing -/

theorem le_iff (x y : Binary64) :
    x.le y = true ↔ x.isNaN = false ∧ y.isNaN = false ∧ x.rank ≤ y.rank := by
  simp [le, and_assoc]

theorem lt_iff (x y : Binary64) :
    x.lt y = true ↔ x.isNaN = false ∧ y.isNaN = false ∧ x.rank < y.rank := by
  simp [lt, and_assoc]

theorem rank_nonneg {x : Binary64} (positive : x.isNegative = false) : 0 ≤ x.rank := by
  simp only [rank, positive, Bool.false_eq_true, if_false]
  exact Int.natCast_nonneg _

theorem isNegative_of_rank_pos {x : Binary64} (pos : 0 < x.rank) : x.isNegative = false := by
  rw [Bool.eq_false_iff]
  intro negative
  simp only [rank, negative, if_true] at pos
  omega

/-- A number with a minus that is not below zero is a zero. -/
theorem size_eq_zero {x : Binary64} (negative : x.isNegative = true) (nonneg : 0 ≤ x.rank) : x.size = 0 := by
  have magnitude : x.bits.toNat % Nat.pow 2 63 = 0 := by
    simp only [rank, negative, if_true] at nonneg
    omega
  have exponent : x.exponentField = 0 := by
    simp only [exponentField, Nat.pow_eq] at magnitude ⊢
    omega
  have fraction : x.fraction = 0 := by
    simp only [Binary64.fraction, Nat.pow_eq] at magnitude ⊢
    omega
  rw [size, significand, if_pos exponent, fraction, Nat.cast_zero, zero_mul]

/-- What has no minus is a number if it is neither NaN nor infinite. -/
theorem ordinary_of_isNaN_eq {x : Binary64} (positive : x.isNegative = false) (numeral : x.isNaN = false)
    (finite : x.isInfinite = false) : x.Ordinary := by
  refine ⟨positive, ?_⟩
  simp only [isNaN, isInfinite, Bool.and_eq_false_iff, beq_eq_false_iff_ne, bne_eq_false_iff_eq] at numeral finite
  simp only [isFinite, bne_iff_ne, ne_eq]
  intro special
  rcases numeral with other | none
  · exact other special
  · exact (finite.resolve_left (not_not_intro special)) none

/-- The lesser of two numbers reaches as far as both do. -/
theorem le_least_iff {x y z : Binary64} (limit : z.isNaN = false) (cap : y.isNaN = false) :
    z.le (x.least y) = true ↔ z.le y = true ∧ (x.isNaN = true ∨ z.le x = true) := by
  simp only [least, cap, Bool.false_eq_true, if_false, le_iff, limit, true_and]
  cases nan : x.isNaN with
  | true => simp [cap]
  | false =>
    simp only [Bool.false_eq_true, if_false, lt_iff, cap, nan, true_and, false_or]
    split <;> simp only [cap, nan, true_and] <;> omega

theorem isNaN_least {x y : Binary64} (cap : y.isNaN = false) : (x.least y).isNaN = false := by
  simp only [least, cap, Bool.false_eq_true, if_false]
  cases nan : x.isNaN with
  | true => simpa using cap
  | false =>
    rw [if_neg Bool.false_ne_true]
    split <;> assumption

theorem rank_least_le {x y : Binary64} (cap : y.isNaN = false) : (x.least y).rank ≤ y.rank := by
  simp only [least, cap, Bool.false_eq_true, if_false]
  cases nan : x.isNaN with
  | true => simp
  | false =>
    simp only [Bool.false_eq_true, if_false, lt_iff, cap, nan, true_and]
    split <;> omega

theorem isNegative_least {x y : Binary64} (hx : x.isNegative = false) (hy : y.isNegative = false) :
    (x.least y).isNegative = false := by
  simp only [least]
  split
  · exact hy
  · split
    · exact hx
    · split <;> assumption

theorem greatest_zero {x : Binary64} (numeral : x.isNaN = false) :
    x.greatest zero = if x.rank < 0 then zero else x := by
  have origin : zero.isNaN = false ∧ zero.rank = 0 := by decide
  simp [greatest, lt_iff, numeral, origin]

/-! ## Products that are not negative -/

theorem isNegative_mul {x y : Binary64} (hx : x.isNegative = false) (hy : y.isNegative = false) :
    (x.mul y).isNegative = false := by
  simp only [mul, hx, hy, bne_self_eq_false]
  split
  · decide
  · split
    · split <;> decide
    · exact (rounds_nearestScaled _ _).isNegative_eq

theorem isNegative_powFrom {result base : Binary64} (n : Nat) (hr : result.isNegative = false)
    (hb : base.isNegative = false) : (powFrom result base n).isNegative = false := by
  have factor : ∀ {result base : Binary64} (n : Nat), result.isNegative = false → base.isNegative = false →
      (if n % 2 = 1 then result.mul base else result).isNegative = false := by
    intro result base n hr hb
    split
    · exact isNegative_mul hr hb
    · exact hr
  induction result, base, n using powFrom.induct with
  | case1 result base n last =>
    rw [powFrom, if_pos last]
    exact factor n hr hb
  | case2 result base n next more ih =>
    rw [powFrom, if_neg more]
    exact ih (factor n hr hb) (isNegative_mul hb hb)

/-! ## Shares -/

theorem zero_ordinary : zero.Ordinary := ⟨by decide, by decide⟩

theorem size_zero : zero.size = 0 := by
  have significand : zero.significand = 0 := by decide
  rw [size, significand, Nat.cast_zero, zero_mul]

theorem one_ordinary : one.Ordinary := ⟨by decide, by decide⟩

theorem size_one : one.size = 1 := by
  have significand : one.significand = 2 ^ 52 := by decide
  have scale : one.scale = -52 := by decide
  rw [size, significand, scale]
  norm_num

theorem Rounds.rank_le_one {q : ℚ} {x : Binary64} (h : Rounds q x) (le : q ≤ 1) : x.rank ≤ one.rank :=
  h.rank_le one_ordinary.rounds_size (size_one ▸ le)

namespace Ordinary

variable {x y : Binary64}

/-- What is no greater than a number is one. -/
theorem of_rank_le (hx : x.Ordinary) (positive : y.isNegative = false) (le : y.rank ≤ x.rank) : y.Ordinary := by
  refine ordinary_of_rank_lt positive (le.trans_lt ?_)
  rw [hx.rank_eq]
  exact_mod_cast hx.toNat_lt

theorem value_negate (h : x.Ordinary) :
    x.negate.value = -x.size ∧ x.negate.isNaN = false ∧ x.negate.isInfinite = false := by
  have lt := h.toNat_lt.trans infiniteMagnitude_lt
  have bits : x.negate.bits.toNat = 2 ^ 63 + x.bits.toNat := by
    simp only [negate, ofMagnitude, h.positive, Bool.not_false, if_true, Nat.pow_eq, UInt64.toNat_ofNat']
    omega
  have exponent : x.negate.exponentField = x.exponentField := by
    simp only [exponentField, bits, Nat.pow_eq]
    omega
  have fraction : x.negate.fraction = x.fraction := by
    simp only [Binary64.fraction, bits, Nat.pow_eq]
    omega
  have negative : x.negate.isNegative = true := by
    simp only [isNegative, bits, Nat.pow_eq, ge_iff_le, decide_eq_true_eq]
    omega
  refine ⟨?_, ?_, ?_⟩
  · rw [value, if_pos negative, size, significand, scale, exponent, fraction]
    rfl
  · rw [isNaN, exponent, fraction]
    exact h.isNaN_eq
  · rw [isInfinite, exponent, fraction]
    exact h.isInfinite_eq

/-- Taking off what is no greater takes one rounding. -/
theorem rounds_sub (hx : x.Ordinary) (hy : y.Ordinary) (le : y.rank ≤ x.rank) :
    Rounds (x.size - y.size) (x.sub y) := by
  obtain ⟨value, numeral, finite⟩ := hy.value_negate
  have difference : x.value + y.negate.value = x.size - y.size := by
    rw [hx.value_eq, value, sub_eq_add_neg]
  have nonneg : 0 ≤ x.value + y.negate.value := by
    rw [difference, sub_nonneg]
    exact (hy.size_le_iff hx).2 le
  exact difference ▸ hx.rounds_add numeral finite nonneg

/-- A share of a number is no more than the number. -/
theorem rank_mul_le (hx : x.Ordinary) (hy : y.Ordinary) (share : y.rank ≤ one.rank) :
    (x.mul y).rank ≤ x.rank := by
  have atMost : y.size ≤ 1 := size_one ▸ (hy.size_le_iff one_ordinary).2 share
  exact (hx.rounds_mul hy).rank_le hx.rounds_size (mul_le_of_le_one_right x.size_nonneg atMost)

end Ordinary

end Binary64

end PolicyClient
