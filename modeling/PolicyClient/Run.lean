/-
# PolicyClient.Run -- a client and its callers over time

A run is a client together with the handles its callers hold.  It changes by events, in
any order: what callers do, what the transport reports, timers that go off, and time that
passes.  An event that does not apply, such as a reply to a batch that is not being read,
changes nothing.

`Run.step` is one event, `Run.after` a history of them.  Every claim about what can happen
to a check is a claim about `Run.after`.
-/
import PolicyClient.Client

namespace PolicyClient

set_option autoImplicit false

/-- What can happen next. -/
inductive Event
  /-- A caller asks. -/
  | submit (request : Request)
  /-- A caller looks for the outcome of a check. -/
  | poll (token : Token)
  /-- A caller withdraws a check. -/
  | cancel (token : Token)
  /-- A caller gives up the handle of a check. -/
  | drop (token : Token)
  /-- A caller has waited for `after` and waits no longer. -/
  | expire (token : Token) (after : Duration)
  /-- The open batch is to leave now; the last handle of the client was given up, say. -/
  | flush
  /-- Nobody holds the client any more. -/
  | abandon
  | close
  /-- The transport reports its link up or down. -/
  | link (up : Bool)
  /-- The task of a flush timer runs for the first time. -/
  | startTimer (batch : BatchId)
  | flushTimer (batch : BatchId)
  /-- A dispatch begins an attempt, over a transport that is healthy or not. -/
  | due (batch : BatchId) (healthy : Bool)
  | connected (batch : BatchId) (result : Except Error Unit)
  | reply (batch : BatchId) (reply : Reply)
  | streamEnd (batch : BatchId)
  | deadline (batch : BatchId)
  /-- Chance has another share in store for the next delay. -/
  | draw (share : Binary64)
  /-- Time passes for timers. -/
  | elapse (d : Duration)
  /-- Time passes for remembered decisions. -/
  | age (d : Duration)

/-- What an event shows. -/
inductive Observation
  /-- The outside world has to act. -/
  | effect (e : Effect)
  /-- The new check has this token. -/
  | issued (token : Token)
  /-- A caller has the outcome of a check. -/
  | outcome (token : Token) (outcome : Outcome)
  /-- Whether a withdrawn check was still outstanding. -/
  | withdrawn (token : Token) (outstanding : Bool)

/-- A client and the handles of its callers. -/
structure Run where
  client : Client
  calls : Table Token Call := .empty

namespace Run

/-- Before anything has happened, on a clock that ends at `horizon`. -/
def start (config : Config) (horizon : Instant) : Except Error Run := do
  let client ← Client.create config horizon
  return { client }

/-- Changes the client, with effects. -/
def act (r : Run) (change : List Effect × Client) : List Observation × Run :=
  (change.1.map .effect, { r with client := change.2 })

/-- Changes the client, without effects. -/
def update (r : Run) (client : Client) : List Observation × Run := ([], { r with client })

/-- Puts a handle back, with the correlator it has worked on. -/
def hold (r : Run) (call : Call) (correlator : Correlator) : Run :=
  { client := { r.client with correlator }, calls := r.calls.insert call.token call }

/-- Whether a flush timer of `b` is due. -/
def timerDue (r : Run) (b : BatchId) : Bool :=
  r.client.timers.any fun t => t.batch = b && t.isDue r.client.now

/-- One event. -/
def step (r : Run) : Event → List Observation × Run
  | .submit request =>
    let (call, effects, client) := r.client.submit request
    (.issued call.token :: effects.map .effect,
      { client, calls := r.calls.insert call.token call })
  | .poll t =>
    match r.calls.get? t with
    | none => ([], r)
    | some call =>
      match call.poll r.client.correlator with
      | (some outcome, call) => ([.outcome t outcome], r.hold call r.client.correlator)
      | (none, _) => ([], r)
  | .cancel t =>
    match r.calls.get? t with
    | none => ([], r)
    | some call =>
      let (outstanding, call, correlator) := call.cancel r.client.correlator
      ([.withdrawn t outstanding], r.hold call correlator)
  | .drop t =>
    match r.calls.get? t with
    | none => ([], r)
    | some call =>
      let correlator := call.drop r.client.correlator
      ([], { client := { r.client with correlator }, calls := r.calls.erase t })
  | .expire t after =>
    match r.calls.get? t with
    | none => ([], r)
    | some call =>
      let (outcome, call, correlator) := call.expire after r.client.correlator
      ([.outcome t outcome], r.hold call correlator)
  | .flush => r.act r.client.flush
  | .abandon => r.update r.client.abandon
  | .close => r.act r.client.close
  | .link up => r.update (r.client.onLink up)
  | .startTimer b => r.update (r.client.startTimer b)
  | .flushTimer b => if r.timerDue b then r.act (r.client.onFlushTimer b) else ([], r)
  | .due b healthy => r.act (r.client.onDue b healthy)
  | .connected b result => r.act (r.client.onConnect b result)
  | .reply b reply => r.update (r.client.onReply b reply)
  | .streamEnd b => r.update (r.client.onStreamEnd b)
  | .deadline b => r.update (r.client.onDeadline b)
  | .draw share => r.update { r.client with chance := share }
  | .elapse d => r.update { r.client with now := r.client.now + d }
  | .age d => r.update { r.client with
      correlator.cache := r.client.correlator.cache.map fun store => store.advance d }

/-- A history of events, with everything they show. -/
def after (r : Run) (events : List Event) : List Observation × Run :=
  events.foldl (fun (seen, r) event =>
    let (shown, r) := r.step event
    (seen ++ shown, r)) ([], r)

end Run

end PolicyClient
