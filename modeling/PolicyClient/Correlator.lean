/-
# PolicyClient.Correlator -- who waits for which answer

The correlator knows every call that still waits, by its token, and for every batch the
tokens registered under it.  A call is settled by taking it out and leaving its outcome in
the call's mail slot, so it is settled at most once.

An answer that may be remembered goes into the cache on its way: each decision on an
action that was asked, under the fingerprint kept since submission.  Decisions that the
cache gave at submission are merged into the answer.
-/
import PolicyClient.Cache.Fingerprint
import PolicyClient.Cache.Store
import PolicyClient.Ids

namespace PolicyClient

set_option autoImplicit false

/-- How a check ends. -/
abbrev Outcome := Except Error Answer

/-- What was known at submission. -/
structure Prefill where
  /-- Decisions the cache gave. -/
  decisions : Table Action Decision := .empty
  /-- The actions still to be asked, each with its fingerprint. -/
  asked : List (Action × Fingerprint) := []
deriving Inhabited

/-- What stands in the slot that a call reads its outcome from. -/
inductive Mail
  | awaited
  | delivered (outcome : Outcome)
  /-- Nothing will come any more. -/
  | abandoned

/-- A call that waits. -/
structure Waiter where
  batch : BatchId
  slot : Nat
  prefill : Prefill

/-- Whether a result reached its call. -/
inductive Resolution
  | delivered
  /-- The token was not waiting. -/
  | discarded
deriving DecidableEq, Inhabited, Repr

/-- The calls that wait, and where outcomes go. -/
structure Correlator where
  waiters : Table Token Waiter := .empty
  batches : Table BatchId (List Token) := .empty
  mail : List Mail := []
  cache : Option (DecisionStore Fingerprint) := none

namespace Correlator

def isLive (k : Correlator) (t : Token) : Bool := k.waiters.contains t

def liveCount (k : Correlator) : Nat := k.waiters.size

def readMail (k : Correlator) (slot : Nat) : Mail := k.mail.getD slot .abandoned

/-- Leaves something in a slot. -/
def post (k : Correlator) (slot : Nat) (m : Mail) : Correlator := { k with mail := k.mail.set slot m }

/-- Takes `t` out of the tokens of `b`; a batch without tokens is forgotten. -/
def unlist (k : Correlator) (b : BatchId) (t : Token) : Correlator :=
  match k.batches.get? b with
  | none => k
  | some tokens =>
    let rest := tokens.filter (· ≠ t)
    { k with batches := if rest.isEmpty then k.batches.erase b else k.batches.insert b rest }

/-- Takes out the call waiting under `t`. -/
def take? (k : Correlator) (t : Token) : Option (Waiter × Correlator) :=
  (k.waiters.get? t).map fun w => (w, { k with waiters := k.waiters.erase t }.unlist w.batch t)

/-- Starts waiting under `t` as part of `b`, and gives the slot to read from.  A call
already waiting under `t` is abandoned. -/
def register (k : Correlator) (t : Token) (b : BatchId) (prefill : Prefill) : Nat × Correlator :=
  let slot := k.mail.length
  let k := match k.waiters.get? t with
    | some old => k.post old.slot .abandoned
    | none => k
  let tokens := (k.batches.get? b).getD []
  (slot, { k with
    waiters := k.waiters.insert t ⟨b, slot, prefill⟩
    batches := k.batches.insert b (if t ∈ tokens then tokens else tokens ++ [t])
    mail := k.mail ++ [.awaited] })

/-- Remembers the decisions on the actions that were asked. -/
def remember (k : Correlator) (asked : List (Action × Fingerprint)) (r : Answer) : Correlator :=
  { k with cache := k.cache.map fun cache =>
      if r.isCacheable then
        asked.foldl (fun cache (action, fingerprint) =>
          match r.decision? action.name with
          | some d => cache.putDefault fingerprint d
          | none => cache) cache
      else cache }

/-- Hands a result to the call waiting under `t`. -/
def resolve (k : Correlator) (t : Token) (r : Answer) : Resolution × Correlator :=
  match k.take? t with
  | none => (.discarded, k)
  | some (w, k) =>
    let k := k.remember w.prefill.asked r
    (.delivered, k.post w.slot (.delivered (.ok (r.merge w.prefill.decisions))))

/-- Fails the call waiting under `t`; false if there is none. -/
def fail (k : Correlator) (t : Token) (e : Error) : Bool × Correlator :=
  match k.take? t with
  | none => (false, k)
  | some (w, k) => (true, k.post w.slot (.delivered (.error e)))

/-- Fails the calls waiting under these tokens, and counts them. -/
def failTokens (k : Correlator) (tokens : List Token) (e : Error) : Nat × Correlator :=
  tokens.foldl (fun (n, k) t =>
    match k.waiters.get? t with
    | none => (n, k)
    | some w =>
      (n + 1, { k with waiters := k.waiters.erase t }.post w.slot (.delivered (.error e)))) (0, k)

/-- Fails every call still listed under `b`, and counts them. -/
def failBatch (k : Correlator) (b : BatchId) (e : Error) : Nat × Correlator :=
  failTokens { k with batches := k.batches.erase b } ((k.batches.get? b).getD []) e

/-- Fails every call that waits, and counts them. -/
def failAll (k : Correlator) (e : Error) : Nat × Correlator :=
  failTokens { k with batches := .empty } k.waiters.keys e

/-- Takes out the call waiting under `t` without an outcome; false if there is none. -/
def cancel (k : Correlator) (t : Token) : Bool × Correlator :=
  match k.take? t with
  | none => (false, k)
  | some (w, k) => (true, k.post w.slot .abandoned)

/-- Takes out every call that waits, without an outcome. -/
def abandonAll (k : Correlator) : Correlator :=
  k.waiters.entries.foldl (fun k entry => k.post entry.2.slot .abandoned)
    { k with waiters := .empty, batches := .empty }

def debugText (k : Correlator) : String :=
  "Correlator \x7b live: " ++ toString k.liveCount ++ " \x7d"

end Correlator

end PolicyClient
