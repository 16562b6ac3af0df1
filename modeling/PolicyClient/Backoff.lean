/-
# PolicyClient.Backoff -- how long to wait before sending again

The n-th delay is `initial * multiplier ^ n`, at most `max`, less a random share of it of up
to `jitter`.  It is computed in doubles and rounded to a nanosecond, and the power stops
growing at the 64th retry.

What is drawn is not decided here: a share is an input, and any number from zero to the
jitter may be one (`BackoffConfig.Draw`).
-/
import PolicyClient.Config.Basic

namespace PolicyClient

set_option autoImplicit false

namespace BackoffConfig

/-! ## Whole delays -/

/-- The seconds that the first delay has grown to before re-send number `retry`, counted from
zero. -/
def grown (b : BackoffConfig) (retry : Nat) : Binary64 :=
  b.initial.asSeconds.mul (b.multiplier.pow (min retry 64))

/-- The seconds that have grown, or the greatest delay if they exceed it. -/
def capped (b : BackoffConfig) (retry : Nat) : Binary64 := (b.grown retry).least b.max.asSeconds

/-- The seconds before re-send number `retry` without jitter. -/
def seconds (b : BackoffConfig) (retry : Nat) : Binary64 := (b.capped retry).greatest Binary64.zero

/-- The delay before re-send number `retry` without jitter.  There is none if the seconds are
not those of a duration. -/
def delay? (b : BackoffConfig) (retry : Nat) : Option Duration :=
  Duration.ofSecondsNearest? (b.seconds retry)

/-! ## Jitter -/

/-- Whether a random share is taken off each delay. -/
def isJittered (b : BackoffConfig) : Bool := Binary64.zero.lt b.jitter

/-- What a draw may give: a number from zero to the jitter. -/
structure Draw (b : BackoffConfig) (share : Binary64) : Prop where
  positive : share.isNegative = false
  atMost : share.le b.jitter = true

instance (b : BackoffConfig) (share : Binary64) : Decidable (b.Draw share) :=
  decidable_of_iff (share.isNegative = false ∧ share.le b.jitter = true)
    ⟨fun h => ⟨h.1, h.2⟩, fun h => ⟨h.positive, h.atMost⟩⟩

/-- What a share of a delay comes to, if shares are taken off at all. -/
def part (b : BackoffConfig) (retry : Nat) (share : Binary64) : Binary64 :=
  if b.isJittered then (b.capped retry).mul share else Binary64.zero

/-- The seconds of a delay that a share has been taken off. -/
def shaved (b : BackoffConfig) (retry : Nat) (share : Binary64) : Binary64 :=
  ((b.capped retry).sub (b.part retry share)).greatest Binary64.zero

/-- The share that is taken off if chance has `share` in store: none, if no draw gives it. -/
def taken (b : BackoffConfig) (share : Binary64) : Binary64 :=
  if b.Draw share then share else Binary64.zero

/-- How long to wait before re-send number `retry` if chance has `share` in store. -/
def wait? (b : BackoffConfig) (retry : Nat) (share : Binary64) : Option Duration :=
  Duration.ofSecondsNearest? (b.shaved retry (b.taken share))

end BackoffConfig

end PolicyClient
