/-
# PolicyClient.Attempt -- accounting for one dispatch of a batch

An attempt hands a batch to the transport and reads replies until the stream ends or the
deadline passes.  It keeps the tokens without an answer and those to be sent again; a
reply about any other token is a protocol violation and changes nothing else.

`Exchange.read` takes in one reply, `Exchange.endOfStream` and `Exchange.passDeadline`
close the accounts, and `Exchange.ending` says what has to happen next.  A fatal failure
ends the attempt at once.
-/
import PolicyClient.Batch
import PolicyClient.Correlator
import PolicyClient.Stats

namespace PolicyClient

set_option autoImplicit false

/-- The open accounts of one attempt. -/
structure Attempt where
  unanswered : List Token
  retry : List Token := []
  lastError : Option Error := none

/-- How an attempt ended. -/
inductive AttemptEnding
  /-- Every request is answered or has failed for good. -/
  | settled
  /-- These requests may be sent again. -/
  | retry (items : List Item) (error : Error)
  /-- The session cannot go on. -/
  | fatal (error : Error)

/-- An attempt together with what it settles and counts. -/
structure Exchange where
  attempt : Attempt
  correlator : Correlator
  stats : Stats

namespace Exchange

def countViolation (x : Exchange) : Exchange := { x with stats := x.stats.recordViolation }

/-- Strikes a token off the unanswered ones. -/
def strike (x : Exchange) (t : Token) : Exchange :=
  { x with attempt.unanswered := x.attempt.unanswered.filter (· ≠ t) }

def fail (x : Exchange) (t : Token) (e : Error) : Exchange :=
  { x with correlator := (x.correlator.fail t e).2 }

/-- Takes in a result. -/
def readResult (x : Exchange) (t : Token) (r : Answer) : Exchange :=
  if t ∈ x.attempt.unanswered then
    let x := x.strike t
    { x with correlator := (x.correlator.resolve t r).2 }
  else x.countViolation

/-- Takes in the failure of one request. -/
def readFailure (e : Error) (x : Exchange) (t : Token) : Exchange :=
  if t ∈ x.attempt.unanswered then
    let x := x.strike t
    if e.isRetryable then { x with attempt.retry := x.attempt.retry ++ [t] }
    else if e.kind = .protocol then x.countViolation.fail t e
    else x.fail t e
  else x.countViolation

/-- Takes in one reply; a fatal error comes back as it is. -/
def read (x : Exchange) : Reply → Except Error Exchange
  | .result t r => .ok (x.readResult t r)
  | .unmatched _ => .ok x.countViolation
  | .failed tokens e =>
    if e.isFatal then .error e
    else
      let x := tokens.foldl (readFailure e) x
      .ok (if e.isRetryable then { x with attempt.lastError := some e } else x)

/-- The stream has ended: requests without an answer get none. -/
def endOfStream (x : Exchange) : Exchange :=
  x.attempt.unanswered.foldl
    (fun x t => (x.strike t).countViolation.fail t (.protocolViolation (.unanswered t))) x

/-- The deadline has passed: requests without an answer are to be sent again. -/
def passDeadline (x : Exchange) (timeout : Duration) : Exchange :=
  { x with attempt := {
      unanswered := []
      retry := x.attempt.retry ++ x.attempt.unanswered
      lastError := some (.deadlineExceeded timeout) } }

/-- What is left to do for the requests of the attempt. -/
def ending (x : Exchange) (items : List Item) : AttemptEnding :=
  match x.attempt.lastError with
  | some e =>
    if x.attempt.retry.isEmpty then .settled
    else .retry (items.filter fun i => x.attempt.retry.contains i.token) e
  | none => .settled

end Exchange

end PolicyClient
