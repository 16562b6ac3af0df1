/-
# PolicyClient.Config.Basic -- settings of a session

Settings are fixed when a client is created.  `Config.validate` refuses those a session
cannot work with; of several faults it names the first in the order of its tests.
-/
import PolicyClient.Error

namespace PolicyClient

set_option autoImplicit false

/-- Delays between re-sends: the n-th is `initial * multiplier ^ n`, at most `max`, less
a random share of up to `jitter` of it. -/
structure BackoffConfig where
  initial : Duration := .ofMilliseconds 50
  max : Duration := .ofSeconds 5
  multiplier : Binary64 := .ofNat 2
  jitter : Binary64 := .ofDecimal false 2 (-1)
deriving DecidableEq, Inhabited, Repr

/-- How long a decision is remembered, and how many are. -/
structure CacheConfig where
  ttl : Duration := .ofSeconds 10
  capacity : Nat := 10000
deriving DecidableEq, Inhabited, Repr

/-- The settings of one session. -/
structure Config where
  /-- A batch leaves once it holds this many requests. -/
  maxBatchSize : Nat := 50
  /-- A batch leaves once its estimated size reaches this many bytes. -/
  maxBatchBytes : Nat := 524288
  /-- How long the first request of a batch waits for others. -/
  flushInterval : Duration := .ofMilliseconds 5
  /-- How long one attempt waits for answers. -/
  requestTimeout : Duration := .ofSeconds 1
  /-- How often a batch is sent again. -/
  retryBudget : Nat := 3
  backoff : BackoffConfig := {}
  /-- How many failures in a row close the session. -/
  failureLimit : Nat := 10
  /-- No cache unless one is asked for. -/
  cache : Option CacheConfig := none
deriving DecidableEq, Inhabited, Repr

/-- Refuses with `cause` if `fault` holds. -/
def refuseIf (fault : Bool) (cause : Invalid) : Except Error Unit :=
  if fault then .error (.invalidArgument cause) else .ok ()

def BackoffConfig.validate (b : BackoffConfig) : Except Error Unit := do
  refuseIf (b.max < b.initial) .backoffInitialAboveMax
  refuseIf (!(Binary64.one.le b.multiplier && b.multiplier.isFinite)) .backoffMultiplier
  refuseIf (!(Binary64.zero.le b.jitter && b.jitter.le Binary64.one)) .backoffJitter

def CacheConfig.validate (c : CacheConfig) : Except Error Unit := do
  refuseIf (c.ttl = .zero) .cacheTtlZero
  refuseIf (c.capacity = 0) .cacheCapacityZero

def Config.validate (c : Config) : Except Error Unit := do
  refuseIf (c.maxBatchSize = 0) .batchSizeZero
  refuseIf (c.maxBatchBytes = 0) .batchBytesZero
  refuseIf (c.flushInterval = .zero) .flushIntervalZero
  refuseIf (c.requestTimeout = .zero) .requestTimeoutZero
  refuseIf (c.failureLimit = 0) .failureLimitZero
  c.backoff.validate
  match c.cache with
  | some cache => cache.validate
  | none => pure ()

end PolicyClient
