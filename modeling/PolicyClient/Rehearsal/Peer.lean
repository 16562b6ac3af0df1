/-
# PolicyClient.Rehearsal.Peer -- the other side of a rehearsal

Three kinds of peer stand in for the transport: one that follows scripts, one that
evaluates every request in memory, and one that serves remote calls, with grouping,
pairing of answers and headers as in earnest.  A peer says what a connection comes to and
what it answers to a batch, and leaves a trace of what it was asked.
-/
import PolicyClient.Endpoint.Setup
import PolicyClient.Rehearsal.Script
import PolicyClient.Remote.Grouping
import PolicyClient.Remote.Pairing
import PolicyClient.Remote.Status
import PolicyClient.Remote.Timeout
import PolicyClient.Wire.Nesting

namespace PolicyClient

set_option autoImplicit false

namespace Rehearsal

/-- What a peer was asked. -/
inductive Trace
  /-- A batch was handed over. -/
  | call (batch : Batch) (timeout : Duration)
  /-- A remote call arrived with this instance header. -/
  | remoteCall (call : Wire.CheckCall) (instanceName : Option String)

/-- The first element under a key, and the rest left under it. -/
def takeFirst? {α : Type} (key : String) : List (String × List α) →
    Option α × List (String × List α)
  | [] => (none, [])
  | (k, items) :: rest =>
    if k = key then
      match items with
      | [] => (none, (k, []) :: rest)
      | first :: others => (some first, (k, others) :: rest)
    else
      let (found, rest) := takeFirst? key rest
      (found, (k, items) :: rest)

/-! ## A peer that follows scripts -/

/-- How one connection ends, and after how long. -/
structure ConnectionScript where
  wait : Duration := .zero
  error : Option Error := none

/-- The n-th dispatch of a batch takes the n-th script under its id, and the fallback once
there is none left.  Connections without a script succeed at once. -/
structure ScriptedPeer where
  scripts : List (String × List Script) := []
  fallback : Script := .ofRule .policy
  connections : List ConnectionScript := []
  /-- Whether it reports its link up and down. -/
  reportsLink : Bool := false
  healthy : Bool := true

/-! ## A peer in memory -/

/-- Answers every request by a rule, or with the error laid down for its resource. -/
structure MemoryPeer where
  rule : Rule := .policy
  errors : List (String × Error) := []
  latency : Option Duration := none
  batches : Nat := 0

namespace MemoryPeer

def evaluator (p : MemoryPeer) (request : Request) : Except Error Answer :=
  match p.errors.lookup request.resource.id with
  | some error => .error error
  | none => .ok (p.rule.answer request)

def frames (p : MemoryPeer) (batch : Batch) : List Frame :=
  (p.latency.elim [] fun d => [.wait d]) ++ (batch.evaluate p.evaluator).map .reply

def debugText (p : MemoryPeer) : String :=
  let latency := p.latency.elim "None" fun d => "Some(" ++ d.text ++ ")"
  "InMemoryTransport \x7b latency: " ++ latency ++ ", batches: " ++ toString p.batches ++ " \x7d"

end MemoryPeer

/-! ## A peer that serves remote calls -/

/-- How one remote call is answered. -/
structure RemoteScript where
  wait : Duration := .zero
  /-- A status to fail with. -/
  status : Option (Int × String) := none
  /-- The request id to name instead of the right one. -/
  requestId : Option String := none
  /-- The entries to answer with instead of those of `RemotePeer.entry`. -/
  results : Option (List Wire.ResultEntry) := none

/-- How one remote call ends. -/
structure RemoteAnswer where
  /-- What was asked. -/
  items : List Item
  wait : Duration := .zero
  replies : List Reply

/-- Serves one remote call per group of a batch. -/
structure RemotePeer where
  scripts : List (String × List RemoteScript) := []
  instanceName : Option String := none
  /-- Whether calls carry the instance. -/
  announces : Bool := true
  /-- Whether connecting fails. -/
  refuses : Bool := false
  healthy : Bool := true

namespace RemotePeer

/-- The entry about one resource: it names the resource, allows `read` and `delete` and
denies the rest. -/
def entry (e : Wire.ResourceEntry) : Wire.ResultEntry :=
  { resource := some { id := e.resource.id, kind := e.resource.kind }
    effects := Table.ofList (e.actions.map fun a =>
      (a, if a = "read" ∨ a = "delete" then 1 else 2)) }

/-- Whether the service can read a header value as text. -/
def isReadable (value : String) : Bool := value.toList.all fun c => c.toNat < 127

/-- The instance that calls name. -/
def announced (p : RemotePeer) : Option String := if p.announces then p.instanceName else none

/-- Where the peer is reached. -/
def authority : String := "[::]:50051"

/-- The headers of a call. -/
def headers (p : RemotePeer) (timeout : Remote.ToldTimeout) : Remote.HeaderBlock :=
  .ofCall authority timeout (p.announced.toList.map fun name => (Endpoint.instanceHeader, name))

/-- Fails every item of a call with a status. -/
def failure (items : List Item) (code : StatusCode) (detail : String) : List Reply :=
  [.failed (items.map Item.token) (.ofCallStatus Wire.checkResourcesPath code detail)]

/-- What the items of a call are told by a script.  A status that reports success comes
without a response, a negative one cannot be reported at all, and a response that nests too
deep cannot be read. -/
def replies (script : RemoteScript) (c : Remote.GroupCall) : List Reply :=
  match script.status with
  | some (number, detail) =>
    if number < 0 then failure c.items .cancelled Remote.brokenOff
    else
      match Remote.receivedStatus (.ofNumber number) detail with
      | (.ok, _) => failure c.items .internal "Missing response message."
      | (code, detail) => failure c.items code detail
  | none =>
    let response : Wire.CheckResponse :=
      { requestId := script.requestId.getD c.call.requestId
        results := script.results.getD (c.call.resources.map entry) }
    match response.overflow? with
    | some trail => failure c.items .internal trail.message
    | none => c.replies response

/-- Why a call does not get as far as a script, if it does not.  In the order in which it
comes to light: there is no connection, the headers are too large, the message nests too
deep, or the instance cannot be read. -/
def obstacle? (p : RemotePeer) (timeout : Remote.ToldTimeout) (call : Wire.CheckCall) :
    Option (StatusCode × String) :=
  if p.refuses then some (.unavailable, "refused")
  else if !(p.headers timeout).fits then
    some (.unknown, "grpc-status header missing, mapped from HTTP status code 431")
  else
    match call.overflow? with
    | some trail => some (Remote.receivedStatus .internal trail.message)
    | none =>
      if p.announced.all isReadable then none
      else some (.cancelled, Remote.brokenOff)

/-- The answer to one call, and the call as it arrived, if it did. -/
def answer (p : RemotePeer) (timeout : Remote.ToldTimeout) (c : Remote.GroupCall) :
    RemoteAnswer × Option Trace × RemotePeer :=
  match p.obstacle? timeout c.call with
  | some (code, detail) => ({ items := c.items, replies := failure c.items code detail }, none, p)
  | none =>
    let (script, scripts) := takeFirst? c.call.requestId p.scripts
    let script := script.getD {}
    ({ items := c.items, wait := script.wait, replies := replies script c },
      some (.remoteCall c.call p.announced), { p with scripts })

/-- The answers to all calls of a batch. -/
def answers (p : RemotePeer) (timeout : Remote.ToldTimeout) :
    List Remote.GroupCall → List RemoteAnswer × List Trace × RemotePeer
  | [] => ([], [], p)
  | c :: calls =>
    let (answer, trace, p) := p.answer timeout c
    let (others, traces, p) := answers p timeout calls
    (answer :: others, trace.toList ++ traces, p)

/-- A call without an answer after `limit` has failed. -/
def cutOff (limit : Duration) (a : RemoteAnswer) : RemoteAnswer :=
  if limit ≤ a.wait then
    { a with wait := limit, replies := failure a.items .cancelled "Timeout expired" }
  else a

/-- Answers in the order of their delays, as waits and replies.  An answer that is not in
before the deadline never comes. -/
def inOrder (deadline elapsed : Duration) : List RemoteAnswer → List Frame
  | [] => []
  | a :: rest =>
    if deadline ≤ a.wait then [.hang]
    else
      .wait ⟨a.wait.nanos - elapsed.nanos⟩ ::
        (a.replies.map .reply ++ inOrder deadline a.wait rest)

/-- What a batch is answered.  No call can be made whose timeout cannot be told. -/
def frames (p : RemotePeer) (batch : Batch) (timeout : Duration) :
    List Frame × List Trace × RemotePeer :=
  match Remote.toldTimeout? timeout with
  | none => ([], [], p)
  | some told =>
    let (answers, traces, p) := p.answers told (Remote.calls batch)
    let timed := answers.map fun a => cutOff told.duration.roundUp { a with wait := a.wait.roundUp }
    let sorted := timed.mergeSort fun a b => a.wait ≤ b.wait
    (inOrder timeout.roundUp .zero sorted, traces, p)

/-- What an onlooker is told of the connection.  One over which no instance is named is out
of sight, and the onlooker knows nothing against it. -/
def looksHealthy (p : RemotePeer) : Bool := p.healthy || !p.announces

def debugText (p : RemotePeer) : String :=
  "GrpcTransport \x7b healthy: " ++ toString p.looksHealthy ++ " \x7d"

end RemotePeer

/-! ## Any peer -/

inductive Peer
  | scripted (p : ScriptedPeer)
  | memory (p : MemoryPeer)
  | remote (p : RemotePeer)

namespace Peer

/-- Whether the last call suggested that the connection holds. -/
def healthy : Peer → Bool
  | scripted p => p.healthy
  | memory _ => true
  | remote p => p.healthy

/-- What an onlooker is told of the connection. -/
def looksHealthy : Peer → Bool
  | remote p => p.looksHealthy
  | peer => peer.healthy

/-- How the next connection ends.  A remote peer counts as healthy once connected. -/
def connect : Peer → ConnectionScript × Peer
  | scripted p =>
    match p.connections with
    | [] => ({}, .scripted p)
    | script :: rest => (script, .scripted { p with connections := rest })
  | memory p => ({}, .memory p)
  | remote p => ({}, .remote { p with healthy := true })

/-- Whether connections leave a trace. -/
def tracesConnections : Peer → Bool
  | scripted _ => true
  | _ => false

/-- Takes a batch: what it will answer, and what it was asked. -/
def receive (peer : Peer) (batch : Batch) (timeout : Duration) : List Frame × List Trace × Peer :=
  match peer with
  | scripted p =>
    let (script, scripts) := takeFirst? batch.id.text p.scripts
    ((script.getD p.fallback).frames batch, [.call batch timeout], .scripted { p with scripts })
  | memory p => (p.frames batch, [.call batch timeout], .memory { p with batches := p.batches + 1 })
  | remote p =>
    let (frames, traces, p) := p.frames batch timeout
    (frames, traces, .remote p)

/-- A reply passes on its way to the client.  A remote peer takes a lost connection as a
sign of ill health. -/
def pass (peer : Peer) (reply : Reply) : Peer :=
  match peer, reply with
  | remote p, .failed _ error =>
    if error.connectionLost then .remote { p with healthy := false } else peer
  | _, _ => peer

def debugText? : Peer → Option String
  | scripted _ => none
  | memory p => some p.debugText
  | remote p => some p.debugText

end Peer

end Rehearsal

end PolicyClient
