/-
# PolicyClient.Proofs.Binary64.Rounding -- what one rounding does

A number that is not negative and not infinite has a size, a rational (`Binary64.size`), and every
operation on such numbers is exact but for one rounding at its end (`Binary64.Rounds`):
`rounds_ofNat`, `Ordinary.rounds_add`, `Ordinary.rounds_mul`, `Ordinary.rounds_div`.

Rounding keeps the order (`Rounds.rank_le`), and a number is its own rounding
(`Ordinary.rounds_size`).  So bounds on exact results are bounds on rounded ones if the bound is a
double, and sizes are in order when ranks are (`Ordinary.size_le_iff`).

The place of the last bit is what a rounding hinges on.  It is told by two inequalities
(`EndsAt`), of which there is one solution, and it does not fall as numbers grow.
-/
import Mathlib.Algebra.Order.Field.Power
import Mathlib.Data.Rat.Cast.Order
import Mathlib.Tactic.FieldSimp
import Mathlib.Tactic.Linarith
import Mathlib.Tactic.NormNum
import Mathlib.Tactic.Positivity
import Mathlib.Tactic.Ring
import PolicyClient.Binary64

namespace PolicyClient

set_option autoImplicit false

namespace Binary64

/-! ## Rounding to an integer -/

/-- `r` is an integer nearest to `y`, and even if there are two. -/
structure IsNearest (r : Nat) (y : ℚ) : Prop where
  upper : (r : ℚ) ≤ y + 1 / 2
  lower : y ≤ r + 1 / 2
  evenAbove : (r : ℚ) = y + 1 / 2 → Even r
  evenBelow : y = r + 1 / 2 → Even r

theorem IsNearest.mono {r r' : Nat} {y y' : ℚ} (h : IsNearest r y) (h' : IsNearest r' y') (le : y ≤ y') :
    r ≤ r' := by
  by_contra lt
  have apart : (r' : ℚ) + 1 ≤ r := by exact_mod_cast Nat.lt_of_not_le lt
  have upper := h.upper
  have lower := h'.lower
  -- Two integers apart and in the wrong order leave room for ties only.
  have even : Even r := h.evenAbove (by linarith)
  have even' : Even r' := h'.evenBelow (by linarith)
  have next : r = r' + 1 := by exact_mod_cast (by linarith : (r : ℚ) = r' + 1)
  rw [next, Nat.even_add_one] at even
  exact even even'

theorem isNearest_self (r : Nat) : IsNearest r r := by
  constructor <;> intros <;> linarith

theorem isNearest_roundedQuotient (num : Nat) {den : Nat} (pos : 0 < den) :
    IsNearest (roundedQuotient num den) (num / den : ℚ) := by
  have posQ : (0 : ℚ) < den := by exact_mod_cast pos
  let part : ℚ := (num % den : Nat) / den
  have quotient : (num / den : ℚ) = (num / den : Nat) + part := by
    have split : (num : ℚ) = den * (num / den : Nat) + (num % den : Nat) := by
      exact_mod_cast (Nat.div_add_mod num den).symm
    rw [split]
    simp only [part]
    field_simp
  have part_nonneg : 0 ≤ part := by positivity
  have part_lt : part < 1 := by
    rw [div_lt_one posQ]
    exact_mod_cast Nat.mod_lt num pos
  rw [quotient]
  simp only [roundedQuotient]
  split
  · rename_i below
    have low : part < 1 / 2 := by
      rw [div_lt_iff₀ posQ]
      have : (2 * (num % den : Nat) : ℚ) < den := by exact_mod_cast below
      linarith
    constructor <;> intros <;> linarith
  · rename_i above
    split
    · rename_i below
      have high : 1 / 2 < part := by
        rw [lt_div_iff₀ posQ]
        have : (den : ℚ) < 2 * (num % den : Nat) := by exact_mod_cast below
        linarith
      constructor <;> intros <;> push_cast at * <;> linarith
    · rename_i notBelow
      have tie : part = 1 / 2 := by
        rw [div_eq_iff posQ.ne']
        have : (2 * (num % den : Nat) : ℚ) = den := by
          exact_mod_cast Nat.le_antisymm (Nat.le_of_not_lt notBelow) (Nat.le_of_not_lt above)
        linarith
      rcases Nat.mod_two_eq_zero_or_one (num / den) with even | odd
      · rw [even, Nat.add_zero, tie]
        constructor <;> intros <;> first | linarith | exact Nat.even_iff.2 even
      · rw [odd, tie]
        have next : Even (num / den + 1) := Nat.even_iff.2 (by omega)
        constructor <;> intros <;> first | exact next | (push_cast; linarith)

/-! ## The place of the last bit -/

/-- `place` is where the 53 bits of a number of size `q` end, or the last place that there is. -/
structure EndsAt (q : ℚ) (place : Int) : Prop where
  floor : -1074 ≤ place
  below : q < 2 ^ (place + 53)
  above : place = -1074 ∨ 2 ^ (place + 52) ≤ q

theorem EndsAt.mono {q q' : ℚ} {place place' : Int} (h : EndsAt q place) (h' : EndsAt q' place')
    (le : q ≤ q') : place ≤ place' := by
  rcases h.above with last | above
  · exact last ▸ h'.floor
  · have lt : (2 : ℚ) ^ (place + 52) < 2 ^ (place' + 53) := above.trans_lt (le.trans_lt h'.below)
    have := (zpow_lt_zpow_iff_right₀ (by norm_num : (1 : ℚ) < 2)).1 lt
    omega

theorem EndsAt.unique {q : ℚ} {place place' : Int} (h : EndsAt q place) (h' : EndsAt q place') :
    place = place' :=
  le_antisymm (h.mono h' le_rfl) (h'.mono h le_rfl)

theorem two_zpow_add (a b : Int) : (2 : ℚ) ^ (a + b) = 2 ^ a * 2 ^ b := zpow_add₀ (by norm_num) a b

theorem two_zpow_toNat {a : Int} (nonneg : 0 ≤ a) : ((2 ^ a.toNat : Nat) : ℚ) = 2 ^ a := by
  rw [Nat.cast_pow, ← zpow_natCast, Int.toNat_of_nonneg nonneg]
  rfl

theorem two_zpow_neg_toNat {a : Int} (neg : a < 0) : ((2 ^ (-a).toNat : Nat) : ℚ) = (2 ^ a)⁻¹ := by
  rw [two_zpow_toNat (by omega), zpow_neg]

/-- The logarithms place a quotient within a factor of four. -/
theorem quotient_bounds {num den : Nat} (some : num ≠ 0) (pos : 0 < den) :
    (2 : ℚ) ^ ((num.log2 : Int) - den.log2 - 1) < num / den ∧
      (num / den : ℚ) < 2 ^ ((num.log2 : Int) - den.log2 + 1) := by
  have posQ : (0 : ℚ) < den := by exact_mod_cast pos
  have numLow : (2 : ℚ) ^ (num.log2 : Int) ≤ num := by exact_mod_cast Nat.log2_self_le some
  have numHigh : (num : ℚ) < 2 ^ ((num.log2 : Int) + 1) := by exact_mod_cast Nat.lt_log2_self (n := num)
  have denLow : (2 : ℚ) ^ (den.log2 : Int) ≤ den := by exact_mod_cast Nat.log2_self_le pos.ne'
  have denHigh : (den : ℚ) < 2 ^ ((den.log2 : Int) + 1) := by exact_mod_cast Nat.lt_log2_self (n := den)
  rw [lt_div_iff₀ posQ, div_lt_iff₀ posQ]
  constructor
  · calc (2 : ℚ) ^ ((num.log2 : Int) - den.log2 - 1) * den
        < 2 ^ ((num.log2 : Int) - den.log2 - 1) * 2 ^ ((den.log2 : Int) + 1) := by gcongr
      _ = 2 ^ (num.log2 : Int) := by rw [← two_zpow_add]; congr 1; ring
      _ ≤ num := numLow
  · calc (num : ℚ) < 2 ^ ((num.log2 : Int) + 1) := numHigh
      _ = 2 ^ ((num.log2 : Int) - den.log2 + 1) * 2 ^ (den.log2 : Int) := by
        rw [← two_zpow_add]; congr 1; ring
      _ ≤ 2 ^ ((num.log2 : Int) - den.log2 + 1) * den := by gcongr

theorem endsAt_max {q : ℚ} {place : Int} (above : 2 ^ (place + 52) ≤ q) (below : q < 2 ^ (place + 53)) :
    EndsAt q (max (-1074) place) := by
  rcases le_total (-1074) place with le | le
  · rw [max_eq_right le]
    exact ⟨le, below, .inr above⟩
  · rw [max_eq_left le]
    have wide : (2 : ℚ) ^ (place + 53) ≤ 2 ^ (-1074 + 53 : Int) :=
      zpow_le_zpow_right₀ (by norm_num) (by omega)
    exact ⟨le_rfl, below.trans_le wide, .inl rfl⟩

/-- What `lastPlace` tests its estimate by. -/
theorem tooLow_iff (num : Nat) {den : Nat} (pos : 0 < den) (estimate : Int) :
    (if 0 ≤ estimate then decide (den * 2 ^ (53 + estimate.toNat) ≤ num)
      else decide (den * 2 ^ 53 ≤ num * 2 ^ (-estimate).toNat)) = true ↔
      (2 : ℚ) ^ (estimate + 53) ≤ num / den := by
  have posQ : (0 : ℚ) < den := by exact_mod_cast pos
  rw [le_div_iff₀ posQ]
  split
  · have power : (2 : ℚ) ^ (estimate + 53) = (2 ^ (53 + estimate.toNat) : Nat) := by
      rw [← two_zpow_toNat (by omega)]
      congr 2
      omega
    rw [decide_eq_true_iff, power, mul_comm]
    exact_mod_cast Iff.rfl
  · have power : (2 : ℚ) ^ estimate = ((2 ^ (-estimate).toNat : Nat) : ℚ)⁻¹ := by
      rw [two_zpow_neg_toNat (by omega), inv_inv]
    have posP : (0 : ℚ) < (2 ^ (-estimate).toNat : Nat) := by exact_mod_cast Nat.two_pow_pos _
    rw [decide_eq_true_iff, two_zpow_add, power, mul_assoc, inv_mul_le_iff₀ posP, mul_comm _ (den : ℚ),
      mul_comm _ (num : ℚ)]
    exact_mod_cast Iff.rfl

theorem endsAt_lastPlace {num den : Nat} (some : num ≠ 0) (pos : 0 < den) :
    EndsAt (num / den) (lastPlace num den) := by
  obtain ⟨low, high⟩ := quotient_bounds some pos
  simp only [lastPlace, Nat.pow_eq]
  generalize estimated : (num.log2 : Int) - den.log2 - 53 = estimate
  have tooLow := tooLow_iff num pos estimate
  by_cases above : (2 : ℚ) ^ (estimate + 53) ≤ num / den
  · rw [if_pos (tooLow.2 above)]
    refine endsAt_max ?_ ?_
    · rwa [add_assoc]
    · rwa [← estimated, show (num.log2 : Int) - den.log2 - 53 + 1 + 53 = num.log2 - den.log2 + 1 by ring]
  · rw [if_neg (mt tooLow.1 above)]
    refine endsAt_max (le_of_lt ?_) (lt_of_not_ge above)
    rwa [← estimated, show (num.log2 : Int) - den.log2 - 53 + 52 = num.log2 - den.log2 - 1 by ring]

/-! ## The nearest double -/

/-- `x` is the double nearest to `q`. -/
def Rounds (q : ℚ) (x : Binary64) : Prop :=
  ∃ num den : Nat, 0 < den ∧ (num / den : ℚ) = q ∧ x = nearest false num den

theorem rounds_nearest (num : Nat) {den : Nat} (pos : 0 < den) :
    Rounds (num / den) (nearest false num den) := ⟨num, den, pos, rfl, rfl⟩

theorem rounds_nearestScaled (significand : Nat) (scale : Int) :
    Rounds (significand * 2 ^ scale) (nearestScaled false significand scale) := by
  simp only [nearestScaled, Nat.pow_eq]
  split
  · have exact := rounds_nearest (significand * 2 ^ scale.toNat) Nat.one_pos
    rwa [Nat.cast_mul, two_zpow_toNat (by omega), Nat.cast_one, div_one] at exact
  · have exact := rounds_nearest significand (Nat.two_pow_pos (-scale).toNat)
    rwa [two_zpow_neg_toNat (by omega), div_inv_eq_mul] at exact

/-- The magnitude bits of a double nearest to `q`: the place at which it ends, and the integer nearest
to `q` in units of that place. -/
theorem Rounds.magnitude {q : ℚ} {x : Binary64} (h : Rounds q x) :
    ∃ place r, EndsAt q place ∧ IsNearest r (q / 2 ^ place) ∧
      x = ofMagnitude false (min infiniteMagnitude ((place + 1074).toNat * 2 ^ 52 + r)) := by
  obtain ⟨num, den, pos, rfl, rfl⟩ := h
  by_cases none : num = 0
  · subst none
    refine ⟨-1074, 0, ⟨le_rfl, ?_, .inl rfl⟩, ?_, ?_⟩
    · rw [Nat.cast_zero, zero_div]
      positivity
    · rw [Nat.cast_zero, zero_div, zero_div]
      exact_mod_cast isNearest_self 0
    · rfl
  · refine ⟨lastPlace num den, _, endsAt_lastPlace none pos, ?_, by rw [nearest, if_neg none]; rfl⟩
    generalize lastPlace num den = place
    simp only [Nat.pow_eq]
    split
    · have unit : (num / den / 2 ^ place : ℚ) = num / (den * 2 ^ place.toNat : Nat) := by
        rw [div_div, ← two_zpow_toNat (by omega), Nat.cast_mul]
      rw [unit]
      exact isNearest_roundedQuotient num (Nat.mul_pos pos (Nat.two_pow_pos _))
    · have unit : (num / den / 2 ^ place : ℚ) = (num * 2 ^ (-place).toNat : Nat) / den := by
        rw [Nat.cast_mul, two_zpow_neg_toNat (by omega), ← div_eq_mul_inv, div_right_comm]
      rw [unit]
      exact isNearest_roundedQuotient _ pos

theorem EndsAt.le_of_isNearest {q : ℚ} {place : Int} {r : Nat} (ends : EndsAt q place)
    (near : IsNearest r (q / 2 ^ place)) : r ≤ 2 ^ 53 := by
  refine near.mono (isNearest_self (2 ^ 53)) (le_of_lt ?_)
  rw [div_lt_iff₀ (by positivity), mul_comm]
  calc q < 2 ^ (place + 53) := ends.below
    _ = 2 ^ place * ((2 ^ 53 : Nat) : ℚ) := by rw [two_zpow_add]; norm_num

theorem EndsAt.ge_of_isNearest {q : ℚ} {place : Int} {r : Nat} (ends : EndsAt q place)
    (higher : place ≠ -1074) (near : IsNearest r (q / 2 ^ place)) : 2 ^ 52 ≤ r := by
  refine (isNearest_self (2 ^ 52)).mono near ?_
  rw [le_div_iff₀ (by positivity), mul_comm]
  calc 2 ^ place * ((2 ^ 52 : Nat) : ℚ) = 2 ^ (place + 52) := by rw [two_zpow_add]; norm_num
    _ ≤ q := ends.above.resolve_left higher

theorem infiniteMagnitude_lt : infiniteMagnitude < 2 ^ 63 := by decide

theorem toNat_ofMagnitude {m : Nat} (lt : m < 2 ^ 63) : (ofMagnitude false m).bits.toNat = m := by
  simp only [ofMagnitude, Bool.false_eq_true, if_false, Nat.zero_add, UInt64.toNat_ofNat']
  exact Nat.mod_eq_of_lt (by omega)

theorem isNegative_ofMagnitude {m : Nat} (lt : m < 2 ^ 63) : (ofMagnitude false m).isNegative = false := by
  simp only [isNegative, toNat_ofMagnitude lt, Nat.pow_eq, ge_iff_le, decide_eq_false_iff_not]
  omega

theorem rank_ofMagnitude {m : Nat} (lt : m < 2 ^ 63) : (ofMagnitude false m).rank = m := by
  simp only [rank, isNegative_ofMagnitude lt, toNat_ofMagnitude lt, Bool.false_eq_true, if_false, Nat.pow_eq]
  omega

/-- **Rounding keeps the order.** -/
theorem Rounds.rank_le {q q' : ℚ} {x x' : Binary64} (h : Rounds q x) (h' : Rounds q' x') (le : q ≤ q') :
    x.rank ≤ x'.rank := by
  obtain ⟨place, r, ends, near, rfl⟩ := h.magnitude
  obtain ⟨place', r', ends', near', rfl⟩ := h'.magnitude
  have bound : ∀ n, min infiniteMagnitude n < 2 ^ 63 := fun n =>
    (Nat.min_le_left ..).trans_lt infiniteMagnitude_lt
  rw [rank_ofMagnitude (bound _), rank_ofMagnitude (bound _)]
  have magnitudes : (place + 1074).toNat * 2 ^ 52 + r ≤ (place' + 1074).toNat * 2 ^ 52 + r' := by
    have floor := ends.floor
    rcases (ends.mono ends' le).eq_or_lt with rfl | lt
    · have := near.mono near' (by gcongr)
      omega
    · have := ends.le_of_isNearest near
      have := ends'.ge_of_isNearest (by omega) near'
      omega
  exact_mod_cast min_le_min_left _ magnitudes

theorem Rounds.unique {q : ℚ} {x y : Binary64} (hx : Rounds q x) (hy : Rounds q y) : x.rank = y.rank :=
  le_antisymm (hx.rank_le hy le_rfl) (hy.rank_le hx le_rfl)

/-! ## Numbers and their sizes -/

/-- A number that is neither negative nor infinite. -/
structure Ordinary (x : Binary64) : Prop where
  positive : x.isNegative = false
  finite : x.isFinite = true

/-- The size of a finite number. -/
def size (x : Binary64) : ℚ := x.significand * 2 ^ x.scale

theorem scale_eq (x : Binary64) : x.scale = (max x.exponentField 1 : Nat) - 1075 := rfl

theorem size_nonneg (x : Binary64) : 0 ≤ x.size := by
  unfold size
  positivity

theorem endsAt_scale (x : Binary64) : EndsAt x.size x.scale := by
  have fraction : x.fraction < 2 ^ 52 := Nat.mod_lt _ (by decide)
  refine ⟨?_, ?_, ?_⟩
  · rw [scale_eq]
    omega
  · have lt : x.significand < 2 ^ 53 := by
      simp only [significand, Nat.pow_eq]
      split <;> omega
    have ltQ : (x.significand : ℚ) < 2 ^ (53 : Int) := by exact_mod_cast lt
    rw [size, add_comm, two_zpow_add]
    gcongr
  · by_cases least : x.exponentField = 0
    · left
      rw [scale_eq, least]
      rfl
    · right
      have ge : 2 ^ 52 ≤ x.significand := by
        simp only [significand, if_neg least, Nat.pow_eq]
        omega
      have geQ : (2 : ℚ) ^ (52 : Int) ≤ x.significand := by exact_mod_cast ge
      rw [size, add_comm, two_zpow_add]
      gcongr

variable {x y : Binary64}

namespace Ordinary

theorem toNat_lt (h : x.Ordinary) : x.bits.toNat < infiniteMagnitude := by
  have positive := h.positive
  have finite := h.finite
  simp only [isNegative, isFinite, exponentField, infiniteMagnitude, Nat.pow_eq, ge_iff_le, bne_iff_ne,
    decide_eq_false_iff_not] at *
  omega

theorem rank_eq (h : x.Ordinary) : x.rank = x.bits.toNat := by
  have lt := h.toNat_lt.trans infiniteMagnitude_lt
  simp only [rank, h.positive, Bool.false_eq_true, if_false, Nat.pow_eq]
  omega

theorem eq_of_rank_eq (hx : x.Ordinary) (hy : y.Ordinary) (same : x.rank = y.rank) : x = y := by
  rw [hx.rank_eq, hy.rank_eq] at same
  exact congrArg Binary64.mk (UInt64.toNat_inj.1 (by exact_mod_cast same))

theorem isNaN_eq (h : x.Ordinary) : x.isNaN = false := by
  have finite := h.finite
  simp only [isNaN, isFinite, bne_iff_ne, Bool.and_eq_false_iff, beq_eq_false_iff_ne] at *
  exact .inl finite

theorem isInfinite_eq (h : x.Ordinary) : x.isInfinite = false := by
  have finite := h.finite
  simp only [isInfinite, isFinite, bne_iff_ne, Bool.and_eq_false_iff, beq_eq_false_iff_ne] at *
  exact .inl finite

/-- The bits of a number tell its place and its significand. -/
theorem toNat_eq (h : x.Ordinary) :
    (x.scale + 1074).toNat * 2 ^ 52 + x.significand = x.bits.toNat := by
  have lt := h.toNat_lt.trans infiniteMagnitude_lt
  have exponent : x.exponentField = x.bits.toNat / 2 ^ 52 := by
    simp only [exponentField, Nat.pow_eq]
    omega
  have fraction : x.fraction = x.bits.toNat % 2 ^ 52 := rfl
  rw [scale_eq]
  simp only [significand, Nat.pow_eq]
  split <;> omega

/-- **A number is its own rounding.** -/
theorem rounds_size (h : x.Ordinary) : Rounds x.size x := by
  have rounds := rounds_nearestScaled x.significand x.scale
  obtain ⟨place, r, ends, near, nearest⟩ := rounds.magnitude
  have place_eq : place = x.scale := ends.unique x.endsAt_scale
  subst place_eq
  have units : (x.significand * 2 ^ x.scale / 2 ^ x.scale : ℚ) = x.significand :=
    mul_div_cancel_right₀ _ (by positivity)
  rw [units] at near
  have r_eq : r = x.significand :=
    le_antisymm (near.mono (isNearest_self _) le_rfl) ((isNearest_self _).mono near le_rfl)
  subst r_eq
  have own : ofMagnitude false x.bits.toNat = x := by
    simp only [ofMagnitude, Bool.false_eq_true, if_false, Nat.zero_add, UInt64.ofNat_toNat]
  rw [h.toNat_eq, min_eq_right h.toNat_lt.le, own] at nearest
  rwa [nearest] at rounds

/-- Sizes are in order when ranks are. -/
theorem size_le_iff (hx : x.Ordinary) (hy : y.Ordinary) : x.size ≤ y.size ↔ x.rank ≤ y.rank := by
  refine ⟨hx.rounds_size.rank_le hy.rounds_size, fun le => ?_⟩
  by_contra lt
  have ge : y.rank ≤ x.rank := hy.rounds_size.rank_le hx.rounds_size (le_of_not_ge lt)
  exact lt (congrArg size (hx.eq_of_rank_eq hy (le_antisymm le ge))).le

end Ordinary

theorem ordinary_of_rank_lt (positive : x.isNegative = false) (lt : x.rank < infiniteMagnitude) :
    x.Ordinary := by
  refine ⟨positive, ?_⟩
  simp only [rank, isNegative, isFinite, exponentField, infiniteMagnitude, Nat.pow_eq, ge_iff_le,
    bne_iff_ne, decide_eq_false_iff_not] at *
  rw [if_neg (by simpa using positive)] at lt
  omega

theorem Rounds.isNegative_eq {q : ℚ} (h : Rounds q x) : x.isNegative = false := by
  obtain ⟨place, r, -, -, rfl⟩ := h.magnitude
  exact isNegative_ofMagnitude ((Nat.min_le_left ..).trans_lt infiniteMagnitude_lt)

/-- What a rounding gives is a number or infinity. -/
theorem Rounds.ordinary_or {q : ℚ} (h : Rounds q x) : x.Ordinary ∨ x = infinity false := by
  obtain ⟨place, r, -, -, nearest⟩ := h.magnitude
  rcases Nat.lt_or_ge ((place + 1074).toNat * 2 ^ 52 + r) infiniteMagnitude with lt | ge
  · rw [min_eq_right lt.le] at nearest
    refine .inl (ordinary_of_rank_lt h.isNegative_eq ?_)
    rw [nearest, rank_ofMagnitude (lt.trans infiniteMagnitude_lt)]
    exact_mod_cast lt
  · exact .inr (nearest.trans (by rw [min_eq_left ge]; rfl))

theorem Rounds.isNaN_eq {q : ℚ} (h : Rounds q x) : x.isNaN = false := by
  rcases h.ordinary_or with ordinary | rfl
  · exact ordinary.isNaN_eq
  · decide

/-! ## Operations -/

theorem rounds_ofNat (n : Nat) : Rounds n (ofNat n) := by
  have exact := rounds_nearest n Nat.one_pos
  rwa [Nat.cast_one, div_one] at exact

/-- A finite number as a rational. -/
def value (x : Binary64) : ℚ := if x.isNegative then -x.size else x.size

theorem Ordinary.value_eq (h : x.Ordinary) : x.value = x.size := by
  rw [value, h.positive, if_neg Bool.false_ne_true]

theorem value_eq_unitsAt (x : Binary64) {place : Int} (le : place ≤ x.scale) :
    x.value = x.unitsAt place * 2 ^ place := by
  have units : ((x.significand * 2 ^ (x.scale - place).toNat : Nat) : ℚ) * 2 ^ place = x.size := by
    rw [Nat.cast_mul, two_zpow_toNat (by omega), mul_assoc, ← two_zpow_add, sub_add_cancel, size]
  simp only [value, unitsAt, Nat.pow_eq]
  split
  · rw [Int.cast_neg, Int.cast_natCast, neg_mul, units]
  · rw [Int.cast_natCast, units]

namespace Ordinary

/-- A sum is rounded once. -/
theorem rounds_add (hx : x.Ordinary) (numeral : y.isNaN = false) (finite : y.isInfinite = false)
    (nonneg : 0 ≤ x.value + y.value) : Rounds (x.value + y.value) (x.add y) := by
  have sum : x.value + y.value =
      ((x.unitsAt (min x.scale y.scale) + y.unitsAt (min x.scale y.scale) : Int) : ℚ) *
        2 ^ min x.scale y.scale := by
    rw [x.value_eq_unitsAt (min_le_left _ _), y.value_eq_unitsAt (min_le_right _ _)]
    push_cast
    ring
  simp only [add, hx.isNaN_eq, numeral, hx.isInfinite_eq, finite, Bool.or_false, Bool.false_eq_true,
    if_false, hx.positive, Bool.false_and]
  rw [sum] at nonneg ⊢
  generalize min x.scale y.scale = place at *
  generalize x.unitsAt place + y.unitsAt place = units at *
  have unitsNonneg : 0 ≤ units := by
    have := nonneg_of_mul_nonneg_left nonneg (by positivity)
    exact_mod_cast this
  have sign : (if units = 0 then false else decide (units < 0)) = false := by
    split
    · rfl
    · exact decide_eq_false (not_lt.2 unitsNonneg)
  have cast : (units : ℚ) = (units.natAbs : Nat) := by
    rw [← Int.cast_natCast, Int.natAbs_of_nonneg unitsNonneg]
  rw [sign, cast]
  exact rounds_nearestScaled _ _

theorem rounds_mul (hx : x.Ordinary) (hy : y.Ordinary) : Rounds (x.size * y.size) (x.mul y) := by
  have product : x.size * y.size =
      (x.significand * y.significand : Nat) * 2 ^ (x.scale + y.scale) := by
    rw [size, size, two_zpow_add, Nat.cast_mul]
    ring
  simp only [mul, hx.isNaN_eq, hy.isNaN_eq, hx.isInfinite_eq, hy.isInfinite_eq, hx.positive, hy.positive,
    Bool.or_false, Bool.false_eq_true, if_false, bne_self_eq_false]
  rw [product]
  exact rounds_nearestScaled _ _

theorem significand_pos (nonzero : y.isZero = false) : 0 < y.significand := by
  simp only [isZero, Bool.and_eq_false_iff, beq_eq_false_iff_ne] at nonzero
  simp only [significand, Nat.pow_eq]
  split <;> omega

theorem rounds_div (hx : x.Ordinary) (hy : y.Ordinary) (nonzero : y.isZero = false) :
    Rounds (x.size / y.size) (x.div y) := by
  have pos := significand_pos nonzero
  have quotient : x.size / y.size = x.significand * 2 ^ (x.scale - y.scale) / y.significand := by
    rw [size, size, zpow_sub₀ (by norm_num)]
    field_simp
  simp only [div, hx.isNaN_eq, hy.isNaN_eq, hx.isInfinite_eq, hy.isInfinite_eq, hx.positive, hy.positive,
    nonzero, Bool.or_false, Bool.false_eq_true, if_false, bne_self_eq_false, Nat.pow_eq]
  rw [quotient]
  split
  · have exact := rounds_nearest (x.significand * 2 ^ (x.scale - y.scale).toNat) pos
    rwa [Nat.cast_mul, two_zpow_toNat (by omega)] at exact
  · have exact := rounds_nearest x.significand
      (Nat.mul_pos pos (Nat.two_pow_pos (-(x.scale - y.scale)).toNat))
    rwa [Nat.cast_mul, two_zpow_neg_toNat (by omega), mul_comm (y.significand : ℚ), ← div_div, div_inv_eq_mul]
      at exact

end Ordinary

end Binary64

end PolicyClient
