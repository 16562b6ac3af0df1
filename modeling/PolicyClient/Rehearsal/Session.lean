/-
# PolicyClient.Rehearsal.Session -- a rehearsal step by step

A session is rehearsed by steps: callers ask, wait, withdraw; the client is flushed,
closed or given up; the link fails; time passes.  After every step all that can happen at
that instant has happened, and a `Report` tells what was seen.
-/
import PolicyClient.Rehearsal.Stage

namespace PolicyClient

set_option autoImplicit false

namespace Rehearsal

/-- One thing that is done in a rehearsal.  Callers are numbered in the order in which
they come. -/
inductive Step
  /-- What was to be asked could not be put together. -/
  | refused (error : Error)
  /-- A check whose caller holds its handle. -/
  | check (request : Request)
  /-- A check put together and awaited in one go, for a limited time perhaps. -/
  | buildCheck (request : Except Error Request) (timeout : Option Duration)
  | isAllowed (request : Except Error Request) (action : String)
  | checkResources (inquiry : Inquiry)
  | wait (caller : Nat) (timeout : Duration)
  | cancel (caller : Nat)
  | drop (caller : Nat)
  | flush
  | close
  | dropClient
  | debug
  | debugTransport
  | setHealthy (healthy : Bool)
  | isHealthy
  | link (up : Bool)
  | advance (milliseconds : Nat)

/-- What a step gives back. -/
inductive Returned
  | nothing
  | flag (b : Bool)
  | text (s : String)
  | refused (e : Error)

/-- What is known after a step. -/
structure Report where
  now : Instant
  returned : Returned
  /-- What was seen since the last report, in order of time. -/
  happenings : List (Instant × Happening)
  /-- State, counters, and whether the state has been published since the last report;
  nothing once the client is given up. -/
  client : Option (SessionState × Stats × Bool)

/-- Happenings of one instant are told in the order of these keys. -/
def Happening.sortKey : Happening → String
  | call batch _ | noted batch => "call " ++ batch.id.text
  | connect => "connect"
  | done caller _ =>
    let digits := toString caller
    "done " ++ String.ofList (List.replicate (6 - digits.length) '0') ++ digits
  | remoteCall c _ => "rpc " ++ c.requestId

namespace Stage

/-- A new caller, who looks for an outcome before anything else happens. -/
def join (s : Stage) (caller : Caller) : Stage :=
  { s with callers := s.callers ++ [caller] }.resume (.caller s.callers.length)

/-- A new caller that has its outcome already. -/
def joinConcluded (s : Stage) (outcome : CallerOutcome) : Stage :=
  { s with callers := s.callers ++ [Caller.finished] }.see (.done s.callers.length outcome)

/-- Whether a withdrawal has shown an outstanding check. -/
def withdrawn? : List Observation → Option Bool
  | [] => none
  | .withdrawn _ b :: _ => some b
  | _ :: rest => withdrawn? rest

/-- Asks, and gives the token of the check. -/
def ask (s : Stage) (request : Request) : Token × Stage :=
  let (seen, s) := s.perform (.submit request)
  ((Observation.issued? seen).getD ⟨0⟩, s)

/-- One check awaited at once. -/
def askAndWait (s : Stage) (request : Except Error Request) (view : View)
    (timeout : Option Duration) : Stage :=
  match request with
  | .error e => s.joinConcluded (view.outcome (.error e))
  | .ok request =>
    let (token, s) := s.ask request
    s.join (.one token view (timeout.map fun d => (d, s.now + d)) false)

/-- Does one step, before anything that follows from it. -/
def begin (s : Stage) : Step → Returned × Stage
  | .refused e => (.refused e, s)
  | .check request =>
    if s.held then
      let (token, s) := s.ask request
      (.text token.text, s.join (.one token .answer none true))
    else (.nothing, s)
  | .buildCheck request timeout =>
    (.nothing, if s.held then s.askAndWait request .answer timeout else s)
  | .isAllowed request action =>
    (.nothing, if s.held then s.askAndWait request (.permission action) none else s)
  | .checkResources inquiry => (.nothing, if s.held then s.join (.several inquiry) else s)
  | .wait caller timeout =>
    match s.callers[caller]? with
    | some (.one token view none true) =>
      let waiting := Caller.one token view (some (timeout, s.now + timeout)) true
      (.flag true, { s with callers := s.callers.set caller waiting }.wake (.caller caller))
    | _ => (.flag false, s)
  | .cancel caller =>
    match s.callers[caller]? with
    | some (.one token _ none true) =>
      let (seen, s) := s.perform (.cancel token)
      (match withdrawn? seen with
        | some b => .flag b
        | none => .nothing, s)
    | _ => (.nothing, s)
  | .drop caller =>
    match s.callers[caller]? with
    | some (.one token _ _ _) => (.nothing, (s.act (.drop token)).retire caller)
    | some (.several inquiry) =>
      (.nothing, (inquiry.held.foldl (fun s t => s.act (.drop t)) s).retire caller)
    | _ => (.nothing, s)
  | .flush => (.nothing, if s.held then s.act .flush else s)
  | .close => (.nothing, if s.held then s.act .close else s)
  | .dropClient => (.nothing, if s.held then { s with held := false }.release else s)
  | .debug => (if s.held then .text s.run.client.debugText else .nothing, s)
  | .debugTransport =>
    (match s.peer.debugText? with
      | some text => .text text
      | none => .nothing, s)
  | .setHealthy healthy =>
    match s.peer with
    | .scripted p => (.nothing, { s with peer := .scripted { p with healthy } })
    | _ => (.nothing, s)
  | .isHealthy => (.flag s.peer.looksHealthy, s)
  | .link up =>
    match s.peer with
    | .scripted p => if p.reportsLink then (.flag true, s.act (.link up)) else (.flag false, s)
    | _ => (.flag false, s)
  | .advance n => (.nothing, s.advance n)

/-- Tells what has been seen, and starts a new account. -/
def report (s : Stage) (returned : Returned) : Report × Stage :=
  let happenings := s.happenings ++ s.noted.map fun b => (s.now, .noted b)
  let sorted := happenings.mergeSort fun a b =>
    a.1 < b.1 || (a.1 = b.1 && (compare a.2.sortKey b.2.sortKey).isLE)
  let l := s.run.client.lifecycle
  let client :=
    if s.held then some (l.state, s.run.client.stats, decide (s.reported < l.publications))
    else none
  ({ now := s.now, returned, happenings := sorted, client },
    { s with happenings := [], noted := [], reported := l.publications })

/-- One step with all that follows from it. -/
def step (s : Stage) (step : Step) : Report × Stage :=
  let (returned, s) := s.begin step
  (s.settle instantFuel).age.report returned

/-- The reports of steps done in turn. -/
def steps : Stage → List Step → List Report
  | _, [] => []
  | s, first :: rest =>
    let (report, s) := s.step first
    report :: steps s rest

/-- A stage with a new client.  The instance of a remote peer is checked first, whether or
not calls will carry it. -/
def setUp (config : Config) (peer : Peer) : Except Error Stage := do
  match peer with
  | .remote p =>
    match p.instanceName with
    | some name => let _ ← Remote.Header.of Endpoint.instanceHeader name
    | none => pure ()
  | _ => pure ()
  let run ← Run.start config .horizon
  return { run, peer }

end Stage

end Rehearsal

end PolicyClient
