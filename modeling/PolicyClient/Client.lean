/-
# PolicyClient.Client -- batching, dispatching, retrying

A client collects requests into an open batch.  The batch leaves when it is full, when its
flush interval has passed, or when it is flushed, and a dispatch of its own then sees it
through: it connects if need be, sends the requests that still wait, reads replies, and
sends again after a delay what failed for the moment.

A dispatch stops at three places: while a connection is being made, while replies are
read, and while it backs off.  A flush timer stops once, when it begins to sleep.  Every
function below goes from one such place to the next and changes the client in one step.
What the outside world has to do then is listed as effects.

Two things come from outside and are part of the client only to be read: where its clock
ends, and what chance has in store for the next delay.
-/
import PolicyClient.Attempt
import PolicyClient.Backoff
import PolicyClient.Call
import PolicyClient.Lifecycle

namespace PolicyClient

set_option autoImplicit false

/-- Where a dispatch stands. -/
inductive Phase
  /-- About to look at what still waits. -/
  | queued
  | connecting
  | reading (deadline : Instant) (attempt : Attempt)
  | backingOff (wake : Instant)

/-- A batch under way. -/
structure Dispatch where
  id : BatchId
  items : List Item
  /-- Attempts begun. -/
  attempts : Nat := 0
  /-- When the present attempt began. -/
  started : Instant := .zero
  phase : Phase := .queued

/-- The task that flushes a batch after the flush interval. -/
structure FlushTimer where
  batch : BatchId
  /-- When its sleep ends.  The sleep begins when the task first runs, not when it comes into being. -/
  due : Option Instant := none
deriving DecidableEq

namespace FlushTimer

/-- The task runs: a sleep that has not begun begins, and ends at `wake`. -/
def begin (t : FlushTimer) (wake : Instant) : FlushTimer := { t with due := some (t.due.getD wake) }

/-- Whether the sleep is over. -/
def isDue (t : FlushTimer) (now : Instant) : Bool := t.due.any fun due => decide (due ≤ now)

end FlushTimer

/-- What a step asks of the outside world. -/
inductive Effect
  /-- The task of a flush timer for this batch has come into being. -/
  | timer (batch : BatchId)
  /-- A dispatch has come into being. -/
  | spawned (batch : BatchId)
  /-- A connection is to be made for the dispatch of this batch. -/
  | connect (batch : BatchId)
  /-- A batch is handed to the transport. -/
  | send (batch : Batch)

/-- Everything one session works with. -/
structure Client where
  config : Config
  /-- The last instant that the clock can name. -/
  horizon : Instant
  now : Instant := .zero
  /-- The share that a draw gives, if a delay has to be computed next. -/
  chance : Binary64 := .zero
  lifecycle : Lifecycle := {}
  stats : Stats := {}
  correlator : Correlator := {}
  ids : IdSource := {}
  openBatch : OpenBatch
  timers : List FlushTimer := []
  dispatches : List Dispatch := []
  /-- Batches whose dispatch broke off: nobody sees them through any more. -/
  broken : List BatchId := []

namespace Client

/-- A client with these settings, if they can be worked with, and a clock that ends at
`horizon`. -/
def create (config : Config) (horizon : Instant) : Except Error Client := do
  config.validate
  let (first, ids) := IdSource.nextBatch {}
  return {
    config, horizon, ids
    correlator := { cache := config.cache.map DecisionCache.ofConfig }
    openBatch := { id := first } }

def state (c : Client) : SessionState := c.lifecycle.state

def debugText (c : Client) : String :=
  "Client \x7b state: " ++ c.state.debugText ++ ", stats: " ++ c.stats.debugText ++ " \x7d"

/-! ## Closing -/

/-- Closes the session and fails every call with `error`, unless it is closed already. -/
def closeWith (c : Client) (reason : String) (error : Error) : Client :=
  match c.lifecycle.close reason with
  | (true, lifecycle) => { c with lifecycle, correlator := (c.correlator.failAll error).2 }
  | (false, _) => c

/-! ## Filling batches -/

/-- Swaps the open batch for a fresh one and sends it on its way. -/
def departure (c : Client) : List Effect × Client :=
  let (next, ids) := c.ids.nextBatch
  let batch := c.openBatch.close
  ([.spawned batch.id],
    { c with
      ids
      openBatch := { id := next }
      dispatches := c.dispatches ++ [{ id := batch.id, items := batch.items }] })

/-- Sends the open batch on its way if it holds anything. -/
def flush (c : Client) : List Effect × Client :=
  if c.openBatch.items.isEmpty then ([], c) else c.departure

/-- The task of the flush timer of `b` runs for the first time: the flush interval begins. -/
def startTimer (c : Client) (b : BatchId) : Client :=
  { c with timers := c.timers.map fun t =>
      if t.batch = b then t.begin (c.now + c.config.flushInterval) else t }

/-- The flush timer of `b` goes off. -/
def onFlushTimer (c : Client) (b : BatchId) : List Effect × Client :=
  let c := { c with timers := c.timers.filter fun t => t.batch ≠ b }
  if c.openBatch.id = b then c.flush else ([], c)

/-- Splits the actions of a request into those the cache decides and those to ask. -/
def consult (store : DecisionStore Fingerprint) (request : Request) :
    Prefill × DecisionStore Fingerprint :=
  request.actions.foldl (fun (prefill, store) action =>
    let fingerprint := Fingerprint.of request action
    match store.get? fingerprint with
    | (some d, store) => ({ prefill with decisions := prefill.decisions.insert action d }, store)
    | (none, store) => ({ prefill with asked := prefill.asked ++ [(action, fingerprint)] }, store))
    ({}, store)

/-- Puts a request into the open batch.  A batch that would grow too large leaves first,
and one that is full now leaves at once; else the first request brings the flush timer into
being. -/
def enqueue (c : Client) (token : Token) (request : Request) (prefill : Prefill) :
    Nat × List Effect × Client :=
  let size := request.estimatedSize
  let (before, c) :=
    if c.openBatch.overflows size c.config.maxBatchBytes then c.departure else ([], c)
  let (slot, correlator) := c.correlator.register token c.openBatch.id prefill
  let first := c.openBatch.items.isEmpty
  let c := { c with correlator, openBatch := c.openBatch.add ⟨token, request⟩ size }
  if c.openBatch.isFull c.config.maxBatchSize c.config.maxBatchBytes then
    let (after, c) := c.departure
    (slot, before ++ after, c)
  else if first then
    (slot, before ++ [.timer c.openBatch.id],
      { c with timers := c.timers ++ [{ batch := c.openBatch.id }] })
  else (slot, before, c)

/-- Takes in a request.  It has its outcome at once if the session is closed or if the
cache decides every action; else only the undecided actions are asked. -/
def submit (c : Client) (request : Request) : Call × List Effect × Client :=
  let (token, ids) := c.ids.nextToken
  let c := { c with ids }
  match c.lifecycle.closedReason with
  | some reason => (⟨token, .ready (.error (.sessionClosed reason))⟩, [], c)
  | none =>
    match c.correlator.cache with
    | none =>
      let (slot, effects, c) := c.enqueue token request {}
      (⟨token, .waiting slot⟩, effects, c)
    | some store =>
      let (prefill, store) := consult store request
      let c := { c with correlator.cache := some store }
      if prefill.asked.isEmpty then
        (⟨token, .ready (.ok { decisions := prefill.decisions })⟩, [],
          { c with stats := c.stats.recordCacheHit })
      else
        let request := request.restrict fun a => !prefill.decisions.contains a
        let (slot, effects, c) := c.enqueue token request prefill
        (⟨token, .waiting slot⟩, effects, c)

/-! ## Seeing batches through -/

def dispatch? (c : Client) (b : BatchId) : Option Dispatch := c.dispatches.find? fun d => d.id = b

/-- Keeps the new standing of a dispatch. -/
def keep (c : Client) (d : Dispatch) : Client :=
  { c with dispatches := c.dispatches.map fun e => if e.id = d.id then d else e }

/-- The dispatch of `b` is over. -/
def finish (c : Client) (b : BatchId) : Client :=
  { c with dispatches := c.dispatches.filter fun d => d.id ≠ b }

/-- The dispatch of `b` breaks off. -/
def breakOff (c : Client) (b : BatchId) : Client :=
  { c.finish b with broken := c.broken ++ [b] }

/-- Hands the items of a dispatch to the transport.  A deadline beyond the clock's range
breaks the dispatch off. -/
def send (c : Client) (d : Dispatch) : List Effect × Client :=
  let deadline := c.now + c.config.requestTimeout
  if c.horizon < deadline then ([], c.breakOff d.id)
  else
    let attempt : Attempt := { unanswered := d.items.map Item.token }
    ([.send ⟨d.id, d.items⟩],
      { c with stats := c.stats.recordDispatch d.items.length }.keep
        { d with phase := .reading deadline attempt })

/-- Begins an attempt with the items that still wait.  With none left the dispatch is
over; a closed session fails them.  A session that is not ready, or whose transport is not
healthy, connects first. -/
def beginAttempt (c : Client) (d : Dispatch) (healthy : Bool) : List Effect × Client :=
  let items := d.items.filter fun i => c.correlator.isLive i.token
  if items.isEmpty then ([], c.finish d.id)
  else
    match c.lifecycle.closedReason with
    | some reason =>
      ([], { c with correlator := (c.correlator.failBatch d.id (.sessionClosed reason)).2 }.finish d.id)
    | none =>
      let d := { d with items, attempts := d.attempts + 1, started := c.now }
      let (origin, lifecycle) := c.lifecycle.beginConnect
      let c := { c with lifecycle }
      if origin.isNone && healthy then c.send d
      else ([.connect d.id], c.keep { d with phase := .connecting })

/-- An attempt failed for the moment with `rest` still to be answered.  The session may
close over it, or the retry budget may be used up; else the dispatch backs off. -/
def onTransientFailure (c : Client) (d : Dispatch) (rest : List Item) (error : Error) : Client :=
  match c.lifecycle.onFailure c.now d.started c.config.failureLimit error.message with
  | (.closed reason, lifecycle) =>
    { c with lifecycle, correlator := (c.correlator.failAll (.sessionClosed reason)).2 }.finish d.id
  | (.alreadyClosed, lifecycle) =>
    let reason := lifecycle.closedReason.getD ""
    { c with lifecycle,
             correlator := (c.correlator.failBatch d.id (.sessionClosed reason)).2 }.finish d.id
  | (.degraded, lifecycle) =>
    let c := { c with lifecycle }
    if c.config.retryBudget < d.attempts then
      let unavailable := Error.unavailable d.attempts error
      { c with correlator := (c.correlator.failBatch d.id unavailable).2 }.finish d.id
    else
      match c.config.backoff.wait? (d.attempts - 1) c.chance with
      | none => c.breakOff d.id
      | some wait =>
        { c with stats := c.stats.recordRetry }.keep
          { d with items := rest, phase := .backingOff (c.now + wait) }

/-- Acts on the end of an attempt. -/
def onEnding (c : Client) (d : Dispatch) : AttemptEnding → Client
  | .settled => { c with lifecycle := c.lifecycle.onSuccess }.finish d.id
  | .fatal error => (c.closeWith error.message error).finish d.id
  | .retry rest error => c.onTransientFailure d rest error

/-- The dispatch of `b` is due to begin an attempt: it is new, or has backed off long
enough. -/
def onDue (c : Client) (b : BatchId) (healthy : Bool) : List Effect × Client :=
  match c.dispatch? b with
  | some d =>
    match d.phase with
    | .queued => c.beginAttempt d healthy
    | .backingOff wake => if wake ≤ c.now then c.beginAttempt d healthy else ([], c)
    | _ => ([], c)
  | none => ([], c)

/-- The connection that the dispatch of `b` asked for is made, or has failed. -/
def onConnect (c : Client) (b : BatchId) (result : Except Error Unit) : List Effect × Client :=
  match c.dispatch? b with
  | some d =>
    match d.phase with
    | .connecting =>
      match result with
      | .ok () => { c with lifecycle := c.lifecycle.onConnected }.send d
      | .error e => ([], c.onEnding d (if e.isFatal then .fatal e else .retry d.items e))
    | _ => ([], c)
  | none => ([], c)

/-- Puts the accounts of an attempt back. -/
def settle (c : Client) (x : Exchange) : Client :=
  { c with correlator := x.correlator, stats := x.stats }

/-- A reply to `b` is read. -/
def onReply (c : Client) (b : BatchId) (reply : Reply) : Client :=
  match c.dispatch? b with
  | some d =>
    match d.phase with
    | .reading deadline attempt =>
      match Exchange.read ⟨attempt, c.correlator, c.stats⟩ reply with
      | .ok x => (c.settle x).keep { d with phase := .reading deadline x.attempt }
      | .error e => c.onEnding d (.fatal e)
    | _ => c
  | none => c

/-- The replies to `b` have come to an end. -/
def onStreamEnd (c : Client) (b : BatchId) : Client :=
  match c.dispatch? b with
  | some d =>
    match d.phase with
    | .reading _ attempt =>
      let x := Exchange.endOfStream ⟨attempt, c.correlator, c.stats⟩
      (c.settle x).onEnding d (x.ending d.items)
    | _ => c
  | none => c

/-- The deadline of the present attempt of `b` has passed. -/
def onDeadline (c : Client) (b : BatchId) : Client :=
  match c.dispatch? b with
  | some d =>
    match d.phase with
    | .reading deadline attempt =>
      if deadline ≤ c.now then
        let x := Exchange.passDeadline ⟨attempt, c.correlator, c.stats⟩ c.config.requestTimeout
        (c.settle x).onEnding d (x.ending d.items)
      else c
    | _ => c
  | none => c

/-- The caller closes the session.  The open batch leaves all the same and finds nothing
waiting. -/
def close (c : Client) : List Effect × Client :=
  let reason := "closed by caller"
  (c.closeWith reason (.sessionClosed reason)).flush

/-- Nobody holds the client any more.  Once nothing is under way nobody is left to settle
the checks that still wait, and they are abandoned. -/
def abandon (c : Client) : Client :=
  if c.openBatch.items.isEmpty && c.dispatches.isEmpty then
    { c with correlator := c.correlator.abandonAll }
  else c

/-- The transport reports its link up or down. -/
def onLink (c : Client) (up : Bool) : Client :=
  { c with lifecycle := if up then c.lifecycle.onLinkUp else c.lifecycle.onLinkDown }

end Client

end PolicyClient
