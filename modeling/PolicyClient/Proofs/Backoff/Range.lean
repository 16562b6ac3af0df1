/-
# PolicyClient.Proofs.Backoff.Range -- which delays there are

Seconds that are read as a double round to 2^64 from `Duration.secondsLimit` on, 1024 short of it
(`Duration.reaches_asSeconds_iff`), and there is no duration of 2^64 seconds.  So a delay cannot be
computed exactly if the greatest delay is that long and what has grown is not below it
(`BackoffConfig.delay?_eq_none_iff`).  Nothing else about the settings matters: a growth that is no
number gives way to the greatest delay, and one below zero gives way to zero.

A delay is handed on after a random share of it has been taken off (`BackoffConfig.shaved`).  That
takes no delay out of range that was in it, whatever share is drawn (`BackoffConfig.shaved_in_range`),
and makes none longer (`BackoffConfig.wait_le`).
-/
import PolicyClient.Backoff
import PolicyClient.Proofs.Binary64.Comparing
import PolicyClient.Proofs.Config.Validation

namespace PolicyClient

set_option autoImplicit false

namespace Duration

open Binary64

/-! ## Seconds -/

/-- From here on a number of seconds is nearer to 2^64 than to any double below. -/
def secondsLimit : Nat := 2 ^ 64 - 1024

/-- The seconds that no duration has. -/
def unreached : Binary64 := ofNat (Nat.pow 2 64)

theorem unreached_ordinary : unreached.Ordinary := ⟨by decide, by decide⟩

/-- The part of a second, as a double. -/
def part (d : Duration) : Binary64 := (ofNat d.subsecond).div (ofNat nanosPerSecond)

theorem part_ordinary (d : Duration) : d.part.Ordinary ∧ d.part.rank ≤ one.rank := by
  have second : (ofNat nanosPerSecond).Ordinary := ⟨by decide, by decide⟩
  have nonzero : (ofNat nanosPerSecond).isZero = false := by decide
  have less : d.subsecond ≤ nanosPerSecond := (Nat.mod_lt _ (by decide)).le
  have rank : (ofNat d.subsecond).rank ≤ (ofNat nanosPerSecond).rank :=
    (rounds_ofNat _).rank_le (rounds_ofNat _) (by exact_mod_cast less)
  have nanos := second.of_rank_le (rounds_ofNat d.subsecond).isNegative_eq rank
  have rounds : Rounds _ d.part := nanos.rounds_div second nonzero
  have atMost := rounds.rank_le_one (div_le_one_of_le₀ ((nanos.size_le_iff second).2 rank) (size_nonneg _))
  exact ⟨one_ordinary.of_rank_le rounds.isNegative_eq atMost, atMost⟩

/-- What whole seconds and a part of a second come to. -/
theorem rounds_asSeconds (d : Duration) (whole : (ofNat d.seconds).Ordinary) :
    Rounds ((ofNat d.seconds).size + d.part.size) d.asSeconds := by
  have part := d.part_ordinary.1
  have nonneg := add_nonneg (ofNat d.seconds).size_nonneg d.part.size_nonneg
  rw [← whole.value_eq, ← part.value_eq] at nonneg ⊢
  exact whole.rounds_add part.isNaN_eq part.isInfinite_eq nonneg

theorem asSeconds_of_infinite (d : Duration) (infinite : ofNat d.seconds = infinity false) :
    d.asSeconds = infinity false := by
  have part := d.part_ordinary.1
  rw [asSeconds, infinite]
  show (infinity false).add d.part = infinity false
  have kind : (infinity false).isNaN = false ∧ (infinity false).isInfinite = true := by decide
  simp [add, kind, part.isNaN_eq, part.isInfinite_eq]

theorem asSeconds_positive (d : Duration) : d.asSeconds.isNaN = false ∧ d.asSeconds.isNegative = false := by
  rcases (rounds_ofNat d.seconds).ordinary_or with whole | infinite
  · exact ⟨(d.rounds_asSeconds whole).isNaN_eq, (d.rounds_asSeconds whole).isNegative_eq⟩
  · rw [d.asSeconds_of_infinite infinite]
    decide

/-- Seconds short of the limit are read as a number below 2^64. -/
theorem rank_asSeconds_lt {d : Duration} (short : d.seconds < secondsLimit) :
    d.asSeconds.rank < unreached.rank := by
  let top := ofNat (secondsLimit - 1)
  have top_ordinary : top.Ordinary := ⟨by decide, by decide⟩
  have rank : (ofNat d.seconds).rank ≤ top.rank :=
    (rounds_ofNat _).rank_le (rounds_ofNat _) (by exact_mod_cast Nat.le_sub_one_of_lt short)
  have whole := top_ordinary.of_rank_le (rounds_ofNat d.seconds).isNegative_eq rank
  obtain ⟨part, partAtMost⟩ := d.part_ordinary
  -- The greatest sum there can be still rounds to a number below.
  have greatest : Rounds (top.size + one.size) (top.add one) := by
    have nonneg := add_nonneg top.size_nonneg one.size_nonneg
    rw [← top_ordinary.value_eq, ← one_ordinary.value_eq] at nonneg ⊢
    exact top_ordinary.rounds_add one_ordinary.isNaN_eq one_ordinary.isInfinite_eq nonneg
  have below : (top.add one).rank < unreached.rank := by decide
  refine ((d.rounds_asSeconds whole).rank_le greatest ?_).trans_lt below
  exact add_le_add ((whole.size_le_iff top_ordinary).2 rank) ((part.size_le_iff one_ordinary).2 partAtMost)

/-- Seconds from the limit on are read as 2^64 or more. -/
theorem rank_asSeconds_ge {d : Duration} (long : secondsLimit ≤ d.seconds) :
    unreached.rank ≤ d.asSeconds.rank := by
  have tie : unreached.rank = (ofNat secondsLimit).rank := by decide
  have rank : (ofNat secondsLimit).rank ≤ (ofNat d.seconds).rank :=
    (rounds_ofNat _).rank_le (rounds_ofNat _) (by exact_mod_cast long)
  rw [tie]
  rcases (rounds_ofNat d.seconds).ordinary_or with whole | infinite
  · exact rank.trans (whole.rounds_size.rank_le (d.rounds_asSeconds whole)
      (le_add_of_nonneg_right d.part.size_nonneg))
  · rw [d.asSeconds_of_infinite infinite]
    exact infinite ▸ rank

/-- Where seconds reach 2^64 as a double. -/
theorem reaches_asSeconds_iff (d : Duration) :
    unreached.le d.asSeconds = true ↔ secondsLimit ≤ d.seconds := by
  rw [le_iff]
  constructor
  · rintro ⟨-, -, reaches⟩
    by_contra short
    exact absurd (rank_asSeconds_lt (Nat.lt_of_not_le short)) (not_lt.2 reaches)
  · intro long
    exact ⟨unreached_ordinary.isNaN_eq, d.asSeconds_positive.1, rank_asSeconds_ge long⟩

theorem asSeconds_ordinary {d : Duration} (short : d.seconds < secondsLimit) : d.asSeconds.Ordinary :=
  unreached_ordinary.of_rank_le d.asSeconds_positive.2 (rank_asSeconds_lt short).le

/-- A number that is not below zero is one of seconds that a duration has, or is 2^64 or more. -/
theorem ofSecondsNearest?_eq_none_iff {x : Binary64} (numeral : x.isNaN = false) (nonneg : 0 ≤ x.rank) :
    ofSecondsNearest? x = none ↔ unreached.le x = true := by
  have origin : Binary64.zero.rank = 0 := by decide
  have notBelow : x.lt Binary64.zero = false := by
    rw [Bool.eq_false_iff]
    intro below
    have := ((lt_iff _ _).1 below).2.2
    omega
  simp only [ofSecondsNearest?, numeral, notBelow, Bool.or_false, Bool.false_eq_true, if_false]
  change (if unreached.le x = true then none else _) = none ↔ _
  split
  · rename_i reaches
    exact ⟨fun _ => reaches, fun _ => rfl⟩
  · rename_i short
    refine ⟨fun none => ?_, fun reaches => absurd reaches short⟩
    split at none <;> cases none

/-- Seconds are read as the nearest number of nanoseconds. -/
theorem isNearest_ofSecondsNearest? {x : Binary64} {d : Duration} (read : ofSecondsNearest? x = some d) :
    IsNearest d.nanos (x.size * nanosPerSecond) := by
  simp only [ofSecondsNearest?] at read
  split at read
  · cases read
  · split at read
    · cases read
    · split at read
      · rename_i whole
        cases read
        have nanos : x.size * nanosPerSecond =
            ((x.significand * Nat.pow 2 x.scale.toNat * nanosPerSecond : Nat) : ℚ) := by
          rw [size, Nat.pow_eq, Nat.cast_mul, Nat.cast_mul, two_zpow_toNat whole]
        rw [nanos]
        exact isNearest_self _
      · rename_i parts
        cases read
        have nanos : x.size * nanosPerSecond =
            ((x.significand * nanosPerSecond : Nat) : ℚ) / (Nat.pow 2 (-x.scale).toNat : Nat) := by
          rw [size, Nat.pow_eq, Nat.cast_mul, two_zpow_neg_toNat (lt_of_not_ge parts), div_inv_eq_mul]
          ring
        rw [nanos]
        exact isNearest_roundedQuotient _ (Nat.pow_pos (by decide))

/-- More seconds are read as a longer duration. -/
theorem ofSecondsNearest?_mono {x y : Binary64} {d e : Duration} (le : x.size ≤ y.size)
    (short : ofSecondsNearest? x = some d) (long : ofSecondsNearest? y = some e) : d ≤ e := by
  have nanos : x.size * nanosPerSecond ≤ y.size * nanosPerSecond :=
    mul_le_mul_of_nonneg_right le (Nat.cast_nonneg _)
  exact (isNearest_ofSecondsNearest? short).mono (isNearest_ofSecondsNearest? long) nanos

/-- No duration is as long as this. -/
def bound : Duration := .ofSeconds (Nat.pow 2 64)

theorem ofSecondsNearest?_le_bound {x : Binary64} {d : Duration} (read : ofSecondsNearest? x = some d) :
    d ≤ bound := by
  obtain ⟨nonneg, below⟩ : 0 ≤ x.rank ∧ x.rank < unreached.rank := by
    have origin : Binary64.zero.isNaN = false ∧ Binary64.zero.rank = 0 := by decide
    simp only [ofSecondsNearest?] at read
    split at read
    · cases read
    · rename_i counts
      simp only [Bool.or_eq_true, lt_iff, origin, not_or, Bool.not_eq_true, true_and, not_and, not_lt] at counts
      split at read
      · cases read
      · rename_i short
        change ¬ unreached.le x = true at short
        simp only [le_iff, unreached_ordinary.isNaN_eq, counts.1, true_and, not_le] at short
        exact ⟨counts.2 counts.1, short⟩
  have reached : unreached.size = ((Nat.pow 2 64 : Nat) : ℚ) := by
    have parts : unreached.significand = 2 ^ 52 ∧ unreached.scale = 12 := by decide
    rw [size, parts.1, parts.2]
    norm_num
  have size : x.size ≤ unreached.size := by
    cases negative : x.isNegative with
    | true =>
      rw [size_eq_zero negative nonneg]
      exact size_nonneg _
    | false =>
      exact ((unreached_ordinary.of_rank_le negative below.le).size_le_iff unreached_ordinary).2 below.le
  have nanos : x.size * nanosPerSecond ≤ ((Nat.pow 2 64 * nanosPerSecond : Nat) : ℚ) := by
    rw [Nat.cast_mul, ← reached]
    exact mul_le_mul_of_nonneg_right size (Nat.cast_nonneg _)
  exact (isNearest_ofSecondsNearest? read).mono (isNearest_self _) nanos

end Duration

namespace BackoffConfig

open Binary64 Duration

variable {b : BackoffConfig} {retry : Nat} {share : Binary64}

/-! ## Delays -/

theorem isNaN_capped (b : BackoffConfig) (retry : Nat) : (b.capped retry).isNaN = false :=
  isNaN_least b.max.asSeconds_positive.1

theorem seconds_eq (b : BackoffConfig) (retry : Nat) :
    b.seconds retry = if (b.capped retry).rank < 0 then Binary64.zero else b.capped retry :=
  greatest_zero (b.isNaN_capped retry)

/-- **A delay cannot be computed** exactly if the greatest delay is 2^64 seconds, as a double, and
what has grown is not below it. -/
theorem delay?_eq_none_iff (b : BackoffConfig) (retry : Nat) :
    b.delay? retry = none ↔ secondsLimit ≤ b.max.seconds ∧
      ((b.grown retry).isNaN = true ∨ unreached.le (b.grown retry) = true) := by
  have cap := b.max.asSeconds_positive.1
  have positive : 0 < unreached.rank := by decide
  have reaches : unreached.le (b.capped retry) = true ↔ secondsLimit ≤ b.max.seconds ∧
      ((b.grown retry).isNaN = true ∨ unreached.le (b.grown retry) = true) := by
    rw [capped, le_least_iff unreached_ordinary.isNaN_eq cap, reaches_asSeconds_iff]
  rw [← reaches, delay?, seconds_eq]
  split
  · rename_i below
    have short : ¬ unreached.le (b.capped retry) = true := by
      rw [le_iff]
      omega
    exact iff_of_false (by decide) short
  · rename_i nonneg
    exact ofSecondsNearest?_eq_none_iff (b.isNaN_capped retry) (not_lt.1 nonneg)

/-! ## Taking a share off -/

/-- Settings that are let through give no delay below zero. -/
theorem isNegative_capped (valid : b.Workable) (retry : Nat) : (b.capped retry).isNegative = false := by
  have multiplier : b.multiplier.isNegative = false := by
    have unit : one.rank ≤ b.multiplier.rank := ((le_iff _ _).1 valid.growing).2.2
    exact isNegative_of_rank_pos (lt_of_lt_of_le (by decide) unit)
  have grown : (b.grown retry).isNegative = false :=
    isNegative_mul b.initial.asSeconds_positive.2 (isNegative_powFrom _ (by decide) multiplier)
  exact isNegative_least grown b.max.asSeconds_positive.2

/-- Under settings that are let through, and with a greatest delay short of the limit, what is not
above the greatest delay is a number below 2^64. -/
theorem capped_ordinary (valid : b.Workable) (short : b.max.seconds < secondsLimit) (retry : Nat) :
    (b.capped retry).Ordinary ∧ (b.capped retry).rank < unreached.rank := by
  have rank : (b.capped retry).rank ≤ b.max.asSeconds.rank := rank_least_le b.max.asSeconds_positive.1
  exact ⟨(asSeconds_ordinary short).of_rank_le (isNegative_capped valid retry) rank,
    rank.trans_lt (rank_asSeconds_lt short)⟩

/-- What is taken off is a number, and no more than there is. -/
theorem part_ordinary (valid : b.Workable) (capped : (b.capped retry).Ordinary) (draw : b.Draw share) :
    (b.part retry share).Ordinary ∧ (b.part retry share).rank ≤ (b.capped retry).rank := by
  unfold part
  split
  · have atMost : share.rank ≤ one.rank :=
      ((le_iff _ _).1 draw.atMost).2.2.trans ((le_iff _ _).1 valid.jitterAtMost).2.2
    have ordinary := one_ordinary.of_rank_le draw.positive atMost
    have less := capped.rank_mul_le ordinary atMost
    exact ⟨capped.of_rank_le (capped.rounds_mul ordinary).isNegative_eq less, less⟩
  · exact ⟨zero_ordinary, rank_nonneg capped.positive⟩

/-- What is left of a delay is a number, and no more than the delay. -/
theorem shaved_ordinary (valid : b.Workable) (capped : (b.capped retry).Ordinary) (draw : b.Draw share) :
    (b.shaved retry share).Ordinary ∧ (b.shaved retry share).rank ≤ (b.capped retry).rank := by
  obtain ⟨part, less⟩ := part_ordinary valid capped draw
  have rounds := capped.rounds_sub part less
  have rank : ((b.capped retry).sub (b.part retry share)).rank ≤ (b.capped retry).rank :=
    rounds.rank_le capped.rounds_size (sub_le_self _ (size_nonneg _))
  have nonneg := not_lt.2 (rank_nonneg rounds.isNegative_eq)
  rw [shaved, greatest_zero rounds.isNaN_eq, if_neg nonneg]
  exact ⟨capped.of_rank_le rounds.isNegative_eq rank, rank⟩

/-- **A share taken off leaves a delay in range**, whatever is drawn. -/
theorem shaved_in_range (valid : b.Workable) (short : b.max.seconds < secondsLimit) (retry : Nat)
    (draw : b.Draw share) : ∃ wait, ofSecondsNearest? (b.shaved retry share) = some wait := by
  obtain ⟨capped, below⟩ := capped_ordinary valid short retry
  obtain ⟨shaved, less⟩ := shaved_ordinary valid capped draw
  rw [← Option.ne_none_iff_exists']
  intro none
  have reaches := (ofSecondsNearest?_eq_none_iff shaved.isNaN_eq (rank_nonneg shaved.positive)).1 none
  exact absurd (less.trans_lt below) (not_lt.2 ((le_iff _ _).1 reaches).2.2)

/-! ## Delays that are waited -/

/-- Whatever chance has in store, what is taken off is a draw. -/
theorem draw_taken (valid : b.Workable) (share : Binary64) : b.Draw (b.taken share) := by
  unfold taken
  split
  · assumption
  · exact ⟨by decide, valid.jitterNonneg⟩

/-- There is a delay to wait if the greatest delay is short of the limit, whatever is drawn. -/
theorem wait?_ne_none (valid : b.Workable) (short : b.max.seconds < secondsLimit) (retry : Nat)
    (share : Binary64) : b.wait? retry share ≠ none := by
  obtain ⟨wait, found⟩ := shaved_in_range valid short retry (draw_taken valid share)
  rw [wait?, found]
  exact Option.some_ne_none wait

/-- Where no shares are taken off a delay is waited as it is. -/
theorem wait?_eq_delay? (valid : b.Workable) (whole : b.isJittered = false) (retry : Nat) (share : Binary64) :
    b.wait? retry share = b.delay? retry := by
  have numeral := b.isNaN_capped retry
  have nothing : b.part retry (b.taken share) = Binary64.zero := by
    rw [part, whole, if_neg Bool.false_ne_true]
  have same : (b.capped retry).sub Binary64.zero = b.capped retry := by
    cases infinite : (b.capped retry).isInfinite with
    | true =>
      have origin : Binary64.zero.negate.isNaN = false ∧ Binary64.zero.negate.isInfinite = false := by decide
      simp [sub, add, numeral, infinite, origin]
    | false =>
      have capped := ordinary_of_isNaN_eq (isNegative_capped valid retry) numeral infinite
      have rounds := capped.rounds_sub zero_ordinary (rank_nonneg capped.positive)
      rw [size_zero, sub_zero] at rounds
      have rank := rounds.unique capped.rounds_size
      exact (capped.of_rank_le rounds.isNegative_eq rank.le).eq_of_rank_eq capped rank
  rw [wait?, shaved, nothing, same]
  rfl

/-- The longest delay before a re-send: the one that nothing is taken off.  Where it is out of range a
share taken off may bring it back, to anything in range; with no shares taken off there is none. -/
def longest (b : BackoffConfig) (retry : Nat) : Duration :=
  (b.delay? retry).getD (if b.isJittered then bound else .zero)

/-- **Chance makes no delay longer.** -/
theorem wait_le (valid : b.Workable) {wait : Duration} (waits : b.wait? retry share = some wait) :
    wait ≤ b.longest retry := by
  unfold longest
  cases whole : b.delay? retry with
  | none =>
    cases jittered : b.isJittered with
    | true => exact ofSecondsNearest?_le_bound waits
    | false =>
      rw [wait?_eq_delay? valid jittered, whole] at waits
      cases waits
  | some delay =>
    have nonneg := rank_nonneg (isNegative_capped valid retry)
    have same : b.seconds retry = b.capped retry := by
      rw [seconds_eq, if_neg (not_lt.2 nonneg)]
    rw [delay?, same] at whole
    have below : ¬ unreached.le (b.capped retry) = true := by
      rw [← ofSecondsNearest?_eq_none_iff (b.isNaN_capped retry) nonneg, whole]
      nofun
    simp only [le_iff, unreached_ordinary.isNaN_eq, b.isNaN_capped retry, true_and, not_le] at below
    have capped := unreached_ordinary.of_rank_le (isNegative_capped valid retry) below.le
    obtain ⟨shaved, less⟩ := shaved_ordinary valid capped (draw_taken valid share)
    exact ofSecondsNearest?_mono ((shaved.size_le_iff capped).2 less) waits whole

end BackoffConfig

end PolicyClient
