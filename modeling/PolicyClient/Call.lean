/-
# PolicyClient.Call -- the caller's side of a check

A call gives its outcome once.  It waits on a mail slot of the correlator, or holds an
outcome known at submission, or has given its outcome.  A caller may withdraw
(`Call.cancel`), stop waiting after a while (`Call.expire`) or just walk away
(`Call.drop`); an outcome that has already arrived is not lost by a cancellation that
comes too late.
-/
import PolicyClient.Correlator

namespace PolicyClient

set_option autoImplicit false

/-- Where the outcome of a call is. -/
inductive CallState
  | waiting (slot : Nat)
  | ready (outcome : Outcome)
  | done

/-- The handle of one submitted check. -/
structure Call where
  token : Token
  state : CallState

namespace Call

/-- Whether the outcome has been given. -/
def isDone (c : Call) : Bool :=
  match c.state with
  | .done => true
  | _ => false

/-- The outcome, if it has arrived.  It is given once; asked again, the call says it was
cancelled. -/
def poll (c : Call) (k : Correlator) : Option Outcome × Call :=
  let finished := { c with state := .done }
  match c.state with
  | .ready outcome => (some outcome, finished)
  | .done => (some (.error .cancelled), finished)
  | .waiting slot =>
    match k.readMail slot with
    | .awaited => (none, c)
    | .delivered outcome => (some outcome, finished)
    | .abandoned => (some (.error .cancelled), finished)

/-- Withdraws the check; true if it was still outstanding.  The call then says it was
cancelled. -/
def cancel (c : Call) (k : Correlator) : Bool × Call × Correlator :=
  match c.state with
  | .waiting _ =>
    match k.cancel c.token with
    | (true, k) => (true, { c with state := .ready (.error .cancelled) }, k)
    | (false, k) => (false, c, k)
  | _ => (false, c, k)

/-- Gives up the handle. -/
def drop (c : Call) (k : Correlator) : Correlator :=
  match c.state with
  | .waiting _ => (k.cancel c.token).2
  | _ => k

/-- Ends the wait after `after`: the outcome if it has arrived, else the check is
withdrawn. -/
def expire (c : Call) (after : Duration) (k : Correlator) : Outcome × Call × Correlator :=
  match c.poll k with
  | (some outcome, c) => (outcome, c, k)
  | (none, c) => (.error (.timeout after), { c with state := .done }, (c.cancel k).2.2)

def debugText (c : Call) : String :=
  "PendingCall \x7b token: " ++ c.token.debugText ++ ", done: " ++ toString c.isDone ++ " \x7d"

end Call

end PolicyClient
