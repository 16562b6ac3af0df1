/-
# PolicyClient.Rehearsal.Stage -- a client, its callers and a peer on one clock

Everything that can act is a task: a flush timer, the dispatch of a batch, a caller.  A
task acts until it has to wait; it is woken when what it waits for has come or when its
alarm goes off.  Woken tasks act in the order in which they were woken.  Of the alarms of
one instant those of callers go off first, so an answer that comes just when a caller's
patience ends comes too late; else they go off in the order in which they were set.  A
rehearsal has one course only.

The client itself moves by events alone (`Stage.perform`), so every rehearsal is a run
(`Stage.rehearsal_told`).
-/
import PolicyClient.Inquiry
import PolicyClient.Rehearsal.Peer

namespace PolicyClient

set_option autoImplicit false

namespace Rehearsal

/-- What can act. -/
inductive Task
  | flushTimer (batch : BatchId)
  | dispatch (batch : BatchId)
  | caller (number : Nat)
deriving DecidableEq

/-- Whether a caller acts. -/
def Task.isCaller : Task → Bool
  | caller _ => true
  | _ => false

/-- When a task is to be woken. -/
structure Alarm where
  due : Instant
  task : Task

/-- A reply stream that is being read, and the end of its present wait. -/
structure Stream where
  frames : List Frame
  resumes : Option Instant := none

/-- A connection that is being made. -/
structure Connection where
  batch : BatchId
  due : Instant
  result : Except Error Unit

/-- What a caller makes of the outcome of its check. -/
inductive View
  | answer
  /-- Whether this action is allowed. -/
  | permission (action : String)

/-- What a caller is waiting for. -/
inductive Caller
  /-- One check, for no longer than `patience` allows.  A caller that holds nothing but
  the handle of its check is `plain`. -/
  | one (token : Token) (view : View) (patience : Option (Duration × Instant)) (plain : Bool)
  | several (inquiry : Inquiry)
  | finished

/-- Whether the caller keeps the client in use. -/
def Caller.holdsClient : Caller → Bool
  | one _ _ _ plain => !plain
  | several _ => true
  | finished => false

/-- What a caller has in the end. -/
inductive CallerOutcome
  | answer (outcome : Outcome)
  | permission (outcome : Except Error Bool)
  | answers (outcome : Except Error (List Answer))

def View.outcome : View → Outcome → CallerOutcome
  | answer, outcome => .answer outcome
  | permission action, outcome => .permission (outcome.map fun r => r.isAllowed action)

/-- What an onlooker sees. -/
inductive Happening
  | call (batch : Batch) (timeout : Duration)
  | connect
  | done (caller : Nat) (outcome : CallerOutcome)
  /-- A batch that a peer in memory has noted down. -/
  | noted (batch : Batch)
  | remoteCall (call : Wire.CheckCall) (instanceName : Option String)

/-- All that takes part in a rehearsal. -/
structure Stage where
  run : Run
  peer : Peer
  streams : List (BatchId × Stream) := []
  connections : List Connection := []
  alarms : List Alarm := []
  /-- Woken tasks. -/
  queue : List Task := []
  callers : List Caller := []
  /-- Whether the first handle of the client is still held. -/
  held : Bool := true
  /-- What has been seen since the last report. -/
  happenings : List (Instant × Happening) := []
  /-- Batches noted since the last report. -/
  noted : List Batch := []
  /-- Publications of the session state that have been reported. -/
  reported : Nat := 0

namespace Stage

def now (s : Stage) : Instant := s.run.client.now

def see (s : Stage) (h : Happening) : Stage := { s with happenings := s.happenings ++ [(s.now, h)] }

/-- Wakes a task, unless it is awake. -/
def wake (s : Stage) (t : Task) : Stage :=
  if t ∈ s.queue then s else { s with queue := s.queue ++ [t] }

/-- Lets a task act next. -/
def resume (s : Stage) (t : Task) : Stage :=
  { s with queue := t :: s.queue.filter (· ≠ t) }

/-- Sets the alarms of a task, in place of those it had. -/
def setAlarms (s : Stage) (t : Task) (due : List Instant) : Stage :=
  { s with alarms := s.alarms.filter (fun a => a.task ≠ t) ++ due.map fun d => ⟨d, t⟩ }

/-- Leaves a trace. -/
def trace (s : Stage) : Trace → Stage
  | .call batch timeout =>
    match s.peer with
    | .memory _ => { s with noted := s.noted ++ [batch] }
    | _ => s.see (.call batch timeout)
  | .remoteCall call instanceName => s.see (.remoteCall call instanceName)

/-- Does what the client asks of the outside world. -/
def carryOut (s : Stage) : Effect → Stage
  | .timer b => s.wake (.flushTimer b)
  | .spawned b => s.wake (.dispatch b)
  | .connect b =>
    let (script, peer) := s.peer.connect
    let result := match script.error with
      | some e => .error e
      | none => .ok ()
    let s := if s.peer.tracesConnections then s.see .connect else s
    { s with peer, connections := s.connections ++ [⟨b, s.now + script.wait, result⟩] }
  | .send batch =>
    let (frames, traces, peer) := s.peer.receive batch s.run.client.config.requestTimeout
    let s := { s with
      peer
      streams := s.streams.filter (fun e => e.1 ≠ batch.id) ++ [(batch.id, { frames })] }
    traces.foldl trace s

/-- Whether the outcome of a check has arrived. -/
def arrived (s : Stage) (t : Token) : Bool :=
  match s.run.calls.get? t with
  | some call => (call.poll s.run.client.correlator).1.isSome
  | none => false

/-- Wakes the callers whose outcomes have arrived. -/
def wakeCallers (s : Stage) : Stage :=
  s.callers.zipIdx.foldl (fun s (caller, number) =>
    match caller with
    | .one token _ _ _ => if s.arrived token then s.wake (.caller number) else s
    | .several (.awaiting token _ _) => if s.arrived token then s.wake (.caller number) else s
    | _ => s) s

/-- Whether nobody holds the client any more. -/
def isGivenUp (s : Stage) : Bool := !s.held && !s.callers.any Caller.holdsClient

/-- One event of the run, with its consequences. -/
def perform (s : Stage) (e : Event) : List Observation × Stage :=
  let (seen, run) := s.run.step e
  let s := seen.foldl (fun s o => match o with
    | .effect e => s.carryOut e
    | _ => s) { s with run }
  let s := if s.isGivenUp then { s with run := (s.run.step .abandon).2 } else s
  (seen, s.wakeCallers)

/-- One event of the run, whatever it shows. -/
def act (s : Stage) (e : Event) : Stage := (s.perform e).2

/-- Once nobody holds the client the open batch leaves. -/
def release (s : Stage) : Stage := if s.isGivenUp then s.act .flush else s

/-- A caller stops waiting. -/
def retire (s : Stage) (number : Nat) : Stage :=
  { s with callers := s.callers.set number .finished }.setAlarms (.caller number) [] |>.release

/-- A caller has its outcome. -/
def conclude (s : Stage) (number : Nat) (outcome : CallerOutcome) : Stage :=
  (s.see (.done number outcome)).retire number

/-! ## Tasks -/

def runFlushTimer (s : Stage) (b : BatchId) : Stage :=
  match s.run.client.timers.find? fun t => t.batch = b with
  | none => s
  | some t =>
    match t.due with
    | none => (s.act (.startTimer b)).resume (.flushTimer b)
    | some due => if due ≤ s.now then s.act (.flushTimer b) else s.setAlarms (.flushTimer b) [due]

def keepStream (s : Stage) (b : BatchId) (stream : Stream) : Stage :=
  { s with streams := s.streams.map fun e => if e.1 = b then (b, stream) else e }

/-- Reads on in a stream: one frame, or the end of a wait.  With nothing to be read the
deadline is looked at. -/
def readStream (s : Stage) (b : BatchId) (deadline : Instant) : Stage :=
  let stream := ((s.streams.find? fun e => e.1 = b).map (·.2)).getD { frames := [] }
  let task := Task.dispatch b
  let suspend (alarms : List Instant) : Stage :=
    if deadline ≤ s.now then (s.act (.deadline b)).resume task
    else s.setAlarms task (alarms ++ [deadline])
  match stream.resumes with
  | some t =>
    if t ≤ s.now then (s.keepStream b { stream with resumes := none }).resume task
    else suspend [t]
  | none =>
    match stream.frames with
    | [] => (s.act (.streamEnd b)).resume task
    | .hang :: _ => suspend []
    | .wait d :: rest => (s.keepStream b ⟨rest, some (s.now + d)⟩).resume task
    | .reply r :: rest =>
      let s := { s.keepStream b ⟨rest, none⟩ with peer := s.peer.pass r }
      (s.act (.reply b r)).resume task

def runDispatch (s : Stage) (b : BatchId) : Stage :=
  let task := Task.dispatch b
  match s.run.client.dispatch? b with
  | none => { s with streams := s.streams.filter fun e => e.1 ≠ b }.setAlarms task []
  | some d =>
    match d.phase with
    | .queued => (s.act (.due b s.peer.healthy)).resume task
    | .backingOff wake =>
      if wake ≤ s.now then (s.act (.due b s.peer.healthy)).resume task
      else s.setAlarms task [wake]
    | .reading deadline _ => s.readStream b deadline
    | .connecting =>
      match s.connections.find? fun c => c.batch = b with
      | none => s
      | some c =>
        if c.due ≤ s.now then
          let s := { s with connections := s.connections.filter fun e => e.batch ≠ b }
          (s.act (.connected b c.result)).resume task
        else s.setAlarms task [c.due]

def runCaller (s : Stage) (number : Nat) : Stage :=
  match s.callers[number]? with
  | some (.one token view patience _) =>
    match s.perform (.poll token) with
    | (seen, s) =>
      match Observation.outcome? seen, patience with
      | some outcome, _ => s.conclude number (view.outcome outcome)
      | none, some (after, due) =>
        if due ≤ s.now then
          let (seen, s) := s.perform (.expire token after)
          match Observation.outcome? seen with
          | some outcome => s.conclude number (view.outcome outcome)
          | none => s
        else s.setAlarms (.caller number) [due]
      | none, none => s
  | some (.several (.finished outcome)) => s.conclude number (.answers outcome)
  | some (.several inquiry) =>
    match inquiry.move? with
    | none => s
    | some event =>
      let (seen, s) := s.perform event
      match inquiry.proceed? seen with
      | none => s
      | some inquiry =>
        { s with callers := s.callers.set number (.several inquiry) }.resume (.caller number)
  | _ => s

def runTask (s : Stage) : Task → Stage
  | .flushTimer b => s.runFlushTimer b
  | .dispatch b => s.runDispatch b
  | .caller number => s.runCaller number

/-- Lets woken tasks act until none is left, `fuel` times at most. -/
def settle : (fuel : Nat) → Stage → Stage
  | 0, s => s
  | fuel + 1, s =>
    match s.queue with
    | [] => s
    | t :: rest => settle fuel ({ s with queue := rest }.runTask t)

/-- How often tasks may act at one instant. -/
def instantFuel : Nat := 1000000

/-- Remembered decisions age by the time that the work of a step takes; the clock of a
rehearsal does not show it. -/
def age (s : Stage) : Stage := { s with run := (s.run.step (.age DecisionStore.workTime)).2 }

/-- A millisecond passes, and all that is due then happens.  Time alone brings no outcome,
so no caller is looked at before that. -/
def tick (s : Stage) : Stage :=
  let s := { s with run := (s.run.step (.elapse (.ofMilliseconds 1))).2 }
  let (due, alarms) := s.alarms.partition fun a => a.due ≤ s.now
  let (callers, others) := (due.map Alarm.task).partition Task.isCaller
  ((callers ++ others).foldl wake { s with alarms }).settle instantFuel

/-- That many milliseconds pass. -/
def advance : Nat → Stage → Stage
  | 0, s => s
  | n + 1, s => advance n s.tick

end Stage

end Rehearsal

end PolicyClient
