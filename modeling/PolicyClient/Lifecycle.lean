/-
# PolicyClient.Lifecycle -- the states of a session

A session starts idle, connects before its first dispatch, is ready while dispatches
succeed and degraded while they fail, and ends closed.  Nothing leaves the closed state.

Failures are counted per outage: an attempt that was already under way at the last failure
adds none of its own (`Lifecycle.onFailure`).  Observers see every change of state as a
publication.
-/
import PolicyClient.Duration

namespace PolicyClient

set_option autoImplicit false

/-- Where a session stands. -/
inductive SessionState
  | idle
  | connecting
  | ready
  | degraded
  | closed
deriving DecidableEq, Inhabited, Repr

namespace SessionState

def name : SessionState → String
  | idle => "idle"
  | connecting => "connecting"
  | ready => "ready"
  | degraded => "degraded"
  | closed => "closed"

def debugText : SessionState → String
  | idle => "Idle"
  | connecting => "Connecting"
  | ready => "Ready"
  | degraded => "Degraded"
  | closed => "Closed"

end SessionState

/-- The state of a session, what led to it, and what observers have seen of it. -/
structure Lifecycle where
  state : SessionState := .idle
  /-- Failures of the present outage. -/
  failures : Nat := 0
  lastFailure : Option Instant := none
  closedReason : Option String := none
  /-- The state published last. -/
  published : SessionState := .idle
  /-- How many states have been published. -/
  publications : Nat := 0
deriving DecidableEq, Inhabited, Repr

/-- What a failure did to the session. -/
inductive FailureOutcome
  | degraded
  | closed (reason : String)
  | alreadyClosed
deriving DecidableEq, Inhabited, Repr

namespace Lifecycle

/-- Moves to a state, and publishes it if it is another one. -/
def moveTo (l : Lifecycle) (next : SessionState) : Lifecycle :=
  if l.state = next then l
  else { l with state := next, published := next, publications := l.publications + 1 }

/-- The state to connect from, or none if no connection needs to be made.  An idle session
starts connecting. -/
def beginConnect (l : Lifecycle) : Option SessionState × Lifecycle :=
  match l.state with
  | .idle => (some .connecting, l.moveTo .connecting)
  | .connecting => (some .connecting, l)
  | .degraded => (some .degraded, l)
  | .ready | .closed => (none, l)

/-- The first connection is made. -/
def onConnected (l : Lifecycle) : Lifecycle :=
  if l.state = .connecting then l.moveTo .ready else l

/-- The link is reported up. -/
def onLinkUp (l : Lifecycle) : Lifecycle :=
  match l.state with
  | .connecting | .degraded => l.moveTo .ready
  | _ => l

/-- The link is reported down. -/
def onLinkDown (l : Lifecycle) : Lifecycle :=
  match l.state with
  | .ready | .connecting => l.moveTo .degraded
  | _ => l

/-- An attempt came to its end without a transient failure: the outage is over. -/
def onSuccess (l : Lifecycle) : Lifecycle :=
  if l.state = .closed then l
  else { l with failures := 0, lastFailure := none }.moveTo .ready

/-- Why a session closes that has failed `failures` times in a row. -/
def limitReason (failures : Nat) (last : String) : String :=
  toString failures ++ " consecutive dispatch failures, last: " ++ last

/-- An attempt that began at `started` failed at `now`.  It counts if no failure was
recorded after it began; the `limit`-th that counts closes the session. -/
def onFailure (l : Lifecycle) (now started : Instant) (limit : Nat) (error : String) :
    FailureOutcome × Lifecycle :=
  if l.state = .closed then (.alreadyClosed, l)
  else
    let counts := match l.lastFailure with
      | none => true
      | some last => decide (last ≤ started)
    let l := { l with lastFailure := some now }
    if !counts then (.degraded, l.moveTo .degraded)
    else
      let l := { l with failures := l.failures + 1 }
      if limit ≤ l.failures then
        let reason := limitReason l.failures error
        (.closed reason, { l with closedReason := some reason }.moveTo .closed)
      else (.degraded, l.moveTo .degraded)

/-- Closes the session; false if it was closed before. -/
def close (l : Lifecycle) (reason : String) : Bool × Lifecycle :=
  if l.state = .closed then (false, l)
  else (true, { l with closedReason := some reason }.moveTo .closed)

end Lifecycle

end PolicyClient
