/-
# PolicyClient.Stats -- counters of a session

Counters have 64 bits and start over at zero beyond their range.
-/

namespace PolicyClient

set_option autoImplicit false

/-- What a session has done so far. -/
structure Stats where
  /-- Batches handed to the transport, each re-send included. -/
  batchesDispatched : UInt64 := 0
  /-- Requests in those batches. -/
  requestsDispatched : UInt64 := 0
  /-- Checks answered by the cache alone. -/
  cacheHits : UInt64 := 0
  /-- Re-sends after a transient failure. -/
  retries : UInt64 := 0
  /-- Results that match no outstanding request, and requests without a result. -/
  protocolViolations : UInt64 := 0
deriving DecidableEq, Inhabited, Repr

namespace Stats

def recordDispatch (s : Stats) (requests : Nat) : Stats :=
  { s with
    batchesDispatched := s.batchesDispatched + 1
    requestsDispatched := s.requestsDispatched + UInt64.ofNat requests }

def recordCacheHit (s : Stats) : Stats := { s with cacheHits := s.cacheHits + 1 }

def recordRetry (s : Stats) : Stats := { s with retries := s.retries + 1 }

def recordViolation (s : Stats) : Stats :=
  { s with protocolViolations := s.protocolViolations + 1 }

def debugText (s : Stats) : String :=
  "StatsSnapshot \x7b batches_dispatched: " ++ toString s.batchesDispatched.toNat ++
    ", requests_dispatched: " ++ toString s.requestsDispatched.toNat ++
    ", cache_hits: " ++ toString s.cacheHits.toNat ++
    ", retries: " ++ toString s.retries.toNat ++
    ", protocol_violations: " ++ toString s.protocolViolations.toNat ++ " \x7d"

end Stats

end PolicyClient
