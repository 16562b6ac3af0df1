/-
# PolicyClient.Rehearsal.Blocking -- a caller that blocks its thread

A caller without a runtime of its own may block until its check has an outcome.  The
client must live on a runtime that goes on working meanwhile, and the caller must not be
part of such a runtime itself.  Whether the session is closed comes only after that.
-/
import PolicyClient.Rehearsal.Session

namespace PolicyClient

set_option autoImplicit false

namespace Rehearsal

/-- Where a client lives and where its caller calls from. -/
inductive Surroundings
  /-- On a runtime of many threads, called from outside. -/
  | manyThreads
  /-- On a runtime of one thread. -/
  | oneThread
  /-- Called from inside a runtime. -/
  | inside
  /-- Without a runtime. -/
  | noRuntime
deriving DecidableEq, Inhabited, Repr

namespace Surroundings

/-- Why no client can be created here. -/
def creationFault : Surroundings → Option Invalid
  | noRuntime => some .noRuntime
  | _ => none

/-- Why no caller can block here. -/
def blockingFault : Surroundings → Option Invalid
  | inside => some .blockingInsideRuntime
  | oneThread => some .blockingOnOneThread
  | _ => none

end Surroundings

/-- Fails for a reason, if there is one. -/
def failFor : Option Invalid → Except Error Unit
  | some cause => .error (.invalidArgument cause)
  | none => .ok ()

/-- The outcome that a happening tells. -/
def concluded? : List (Instant × Happening) → Option Outcome
  | [] => none
  | (_, .done _ (.answer outcome)) :: _ => some outcome
  | _ :: rest => concluded? rest

/-- Lets time pass until the only caller has its outcome, for that many milliseconds at
most. -/
def awaitOutcome : (milliseconds : Nat) → Stage → Option Outcome
  | 0, s => concluded? s.happenings
  | n + 1, s =>
    match concluded? s.happenings with
    | some outcome => some outcome
    | none => awaitOutcome n s.tick

/-- Blocks for `request` until there is an outcome or `timeout` has passed. -/
def checkBlocking (surroundings : Surroundings) (config : Config) (peer : Peer) (closed : Bool)
    (request : Request) (timeout : Duration) : Outcome := do
  let stage ← Stage.setUp config peer
  failFor surroundings.creationFault
  let stage := if closed then (stage.begin .close).2 else stage
  failFor surroundings.blockingFault
  let stage := (stage.begin (.buildCheck (.ok request) (some timeout))).2.settle Stage.instantFuel
  match awaitOutcome timeout.roundUp.milliseconds stage with
  | some outcome => outcome
  | none => .error (.timeout timeout)

end Rehearsal

end PolicyClient
