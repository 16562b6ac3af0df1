/-
# PolicyClient.Proofs.Client.Submission -- what becomes of a request that comes

A request that comes is refused, or decided by the cache, or it enters a batch
(`Client.Submission`).  One that enters finds room first, since a batch that would grow too large
with it leaves before (`Client.MakesRoom`).  Then its batch is full and leaves, or it is the first
in its batch and brings its flush timer into being, or it joins others (`Client.Entry`).

That is all that `Client.enqueue` and `Client.submit` can do (`enqueue_cases`, `submission`).  What
a request does to a client is shown from these lists, case by case.
-/
import PolicyClient.Client
import PolicyClient.Proofs.Check.Policy

namespace PolicyClient

set_option autoImplicit false

namespace Client

/-! ## Entering a batch -/

section Entering

variable (c : Client) (t : Token) (request : Request) (prefill : Prefill)

/-- Room is made for a request of this size. -/
inductive MakesRoom (size : Nat) : List Effect → Client → Prop
  | stays (fits : c.openBatch.overflows size c.config.maxBatchBytes = false) : MakesRoom size [] c
  | leaves (overflows : c.openBatch.overflows size c.config.maxBatchBytes = true) :
    MakesRoom size c.departure.1 c.departure.2

/-- The client with a request in its open batch. -/
def joined : Client :=
  { c with
    correlator := (c.correlator.register t c.openBatch.id prefill).2
    openBatch := c.openBatch.add ⟨t, request⟩ request.estimatedSize }

/-- The client with a flush timer for its open batch, which has not run yet. -/
def withTimer : Client := { c with timers := c.timers ++ [{ batch := c.openBatch.id }] }

/-- Whether the open batch has to leave. -/
def isFull : Bool := c.openBatch.isFull c.config.maxBatchSize c.config.maxBatchBytes

/-- A request enters the open batch, which has room for it. -/
inductive Entry : List Effect → Client → Prop
  /-- The batch is full with it, and leaves. -/
  | fills (full : (c.joined t request prefill).isFull = true) :
    Entry (c.joined t request prefill).departure.1 (c.joined t request prefill).departure.2
  /-- It is the first in the batch. -/
  | opens (space : (c.joined t request prefill).isFull = false) (first : c.openBatch.items = []) :
    Entry [.timer c.openBatch.id] (c.joined t request prefill).withTimer
  | joins (space : (c.joined t request prefill).isFull = false) (others : c.openBatch.items ≠ []) :
    Entry [] (c.joined t request prefill)

/-- **A request enters in two steps**: room is made for it, and it is added. -/
theorem enqueue_cases : ∃ before c₁ after c₂,
    c.MakesRoom request.estimatedSize before c₁ ∧ c₁.Entry t request prefill after c₂ ∧
      c.enqueue t request prefill =
        ((c₁.correlator.register t c₁.openBatch.id prefill).1, before ++ after, c₂) := by
  obtain ⟨before, c₁, left, room⟩ : ∃ before c₁,
      (if c.openBatch.overflows request.estimatedSize c.config.maxBatchBytes then c.departure
        else ([], c)) = (before, c₁) ∧ c.MakesRoom request.estimatedSize before c₁ := by
    split
    · rename_i overflows
      exact ⟨_, _, rfl, .leaves overflows⟩
    · rename_i fits
      exact ⟨_, _, rfl, .stays (eq_false_of_ne_true fits)⟩
  simp only [enqueue, left]
  split
  · rename_i full
    exact ⟨before, c₁, _, _, room, .fills full, rfl⟩
  · rename_i space
    split
    · rename_i first
      exact ⟨before, c₁, _, _, room, .opens (eq_false_of_ne_true space) (List.isEmpty_iff.1 first), rfl⟩
    · rename_i others
      refine ⟨before, c₁, _, _, room,
        .joins (eq_false_of_ne_true space) fun none => others (List.isEmpty_iff.2 none), ?_⟩
      rw [List.append_nil]
      rfl

end Entering

/-! ## Submitting -/

section Submitting

variable (c : Client) (request : Request)

/-- What is known about a request when it comes. -/
def prefill : Prefill :=
  match c.correlator.cache with
  | none => {}
  | some store => (consult store request).1

/-- The client once it has given a token out and has consulted its cache. -/
def consulted : Client :=
  { c with
    ids := c.ids.nextToken.2
    correlator.cache := c.correlator.cache.map fun store => (consult store request).2 }

/-- The client with what is left to ask of the request in a batch. -/
def entered : Nat × List Effect × Client :=
  (c.consulted request).enqueue c.ids.nextToken.1 ((c.prefill request).remaining request)
    (c.prefill request)

/-- What becomes of a request that comes. -/
inductive Submission : Prop
  /-- The session is closed. -/
  | refused (reason : String) (closed : c.lifecycle.closedReason = some reason)
    (result : c.submit request = (⟨c.ids.nextToken.1, .ready (.error (.sessionClosed reason))⟩, [],
      { c with ids := c.ids.nextToken.2 }))
  /-- The cache decides every action. -/
  | decided (running : c.lifecycle.closedReason = none) (store : DecisionStore Fingerprint)
    (cache : c.correlator.cache = some store) (all : (c.prefill request).asked = [])
    (result : c.submit request =
      (⟨c.ids.nextToken.1, .ready (.ok { decisions := (c.prefill request).decisions })⟩, [],
        { c.consulted request with stats := c.stats.recordCacheHit }))
  /-- It enters, and waits. -/
  | enters (running : c.lifecycle.closedReason = none)
    (result : c.submit request =
      (⟨c.ids.nextToken.1, .waiting (c.entered request).1⟩, (c.entered request).2))

/-- **Every request is refused, decided or enters.** -/
theorem submission : c.Submission request := by
  cases closed : c.lifecycle.closedReason with
  | some reason => exact .refused reason closed (by simp only [submit, closed])
  | none =>
    cases cache : c.correlator.cache with
    | none =>
      have plain : c.prefill request = {} := by rw [Client.prefill, cache]
      have same : c.consulted request = { c with ids := c.ids.nextToken.2 } := by
        rw [consulted, cache, Option.map_none, ← cache]
      refine .enters closed ?_
      rw [entered, plain, same, Prefill.remaining_empty]
      simp only [submit, closed, cache]
    | some store =>
      have recalled : c.prefill request = (consult store request).1 := by rw [Client.prefill, cache]
      have same : c.consulted request = { c with
          ids := c.ids.nextToken.2
          correlator.cache := some (consult store request).2 } := by
        rw [consulted, cache, Option.map_some]
      by_cases all : (c.prefill request).asked = []
      · refine .decided closed store cache all ?_
        rw [recalled] at all ⊢
        rw [same]
        simp only [submit, closed, cache, all, List.isEmpty_nil, if_true]
      · have some : ((consult store request).1.asked.isEmpty = true) = False :=
          eq_false fun none => all (by rw [recalled]; exact List.isEmpty_iff.1 none)
        refine .enters closed ?_
        rw [entered, recalled, same]
        simp only [submit, closed, cache, some, if_false]
        rfl

end Submitting

end Client

end PolicyClient
