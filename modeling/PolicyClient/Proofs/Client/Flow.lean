/-
# PolicyClient.Proofs.Client.Flow -- work that goes on undisturbed

Most of what a client does with a batch only moves it on: out of the open batch, to the
transport, and off once it is done.  Such a step leaves the calls that wait alone, closes
nothing and holds no item that was not held before (`Client.Flows`).

An attempt that has nothing to send again is untroubled (`Client.Untroubled`).  At the end
of an untroubled attempt that is answered in full its batch is done, however it ends
(`Client.onStreamEnd_flows`, `Client.onDeadline_flows`).
-/
import PolicyClient.Proofs.Check.Policy
import PolicyClient.Proofs.Client.Closing
import PolicyClient.Proofs.Run.Provenance

namespace PolicyClient

set_option autoImplicit false

/-- The attempt that is under way, if there is one, has nothing to send again. -/
def Dispatch.Untroubled (d : Dispatch) : Prop :=
  ∀ deadline a, d.phase = .reading deadline a → a.retry = []

namespace Client

/-- Whether the item is in the open batch or in one under way. -/
def Holds (c : Client) (i : Item) : Prop := i ∈ c.openBatch.items ∨ ∃ d ∈ c.dispatches, i ∈ d.items

def Untroubled (c : Client) : Prop := ∀ d ∈ c.dispatches, d.Untroubled

/-- Work goes on from `c` to `c'`. -/
structure Flows (c c' : Client) : Prop where
  correlator : c'.correlator = c.correlator
  reason : c'.lifecycle.closedReason = c.lifecycle.closedReason
  holds : ∀ i, c'.Holds i → c.Holds i
  untroubled : c.Untroubled → c'.Untroubled

/-- The instant by which the attempt of `b` was to be answered has passed. -/
def Overdue (c : Client) (b : BatchId) : Prop :=
  ∃ d deadline a, c.dispatch? b = some d ∧ d.phase = .reading deadline a ∧ deadline ≤ c.now

namespace Flows

variable {c c' c'' : Client}

theorem refl (c : Client) : Flows c c := ⟨rfl, rfl, fun _ => id, id⟩

theorem trans (first : Flows c c') (second : Flows c' c'') : Flows c c'' where
  correlator := second.correlator.trans first.correlator
  reason := second.reason.trans first.reason
  holds i held := first.holds i (second.holds i held)
  untroubled smooth := second.untroubled (first.untroubled smooth)

/-- What does not touch batches and calls. -/
theorem aside (correlator : c'.correlator = c.correlator) (lifecycle : c.lifecycle.Quiet c'.lifecycle)
    (openBatch : c'.openBatch = c.openBatch) (dispatches : c'.dispatches = c.dispatches) : Flows c c' where
  correlator := correlator
  reason := lifecycle.reason
  holds i held := by
    rw [Holds, openBatch, dispatches] at held
    exact held
  untroubled smooth := by
    rw [Untroubled, dispatches]
    exact smooth

end Flows

variable {c : Client}

/-! ## Filling batches -/

theorem departure_flows (c : Client) : Flows c c.departure.2 where
  correlator := rfl
  reason := rfl
  holds i held := by
    simp only [Holds, departure, OpenBatch.close, List.mem_append, List.mem_singleton] at held
    rcases held with none | ⟨d, before | rfl, item⟩
    · cases none
    · exact .inr ⟨d, before, item⟩
    · exact .inl item
  untroubled smooth d member := by
    rcases List.mem_append.1 member with before | new
    · exact smooth d before
    · rw [List.mem_singleton.1 new]
      intro deadline a phase
      cases phase

theorem flush_flows (c : Client) : Flows c c.flush.2 := by
  unfold flush
  split
  · exact .refl c
  · exact c.departure_flows

theorem onFlushTimer_flows (c : Client) (b : BatchId) : Flows c (c.onFlushTimer b).2 := by
  have quiet : Flows c { c with timers := c.timers.filter fun t => t.batch ≠ b } :=
    .aside rfl (.refl _) rfl rfl
  simp only [onFlushTimer]
  split
  · exact quiet.trans (flush_flows _)
  · exact quiet

/-! ## The steps of a dispatch -/

theorem keep_flows {d d' : Dispatch} (member : d ∈ c.dispatches) (items : d'.items ⊆ d.items)
    (smooth : c.Untroubled → d'.Untroubled) : Flows c (c.keep d') where
  correlator := rfl
  reason := rfl
  holds i held := by
    refine held.imp_right fun ⟨e, under, item⟩ => ?_
    rcases c.mem_keep under with rfl | ⟨before, -⟩
    · exact ⟨d, member, items item⟩
    · exact ⟨e, before, item⟩
  untroubled all e under := by
    rcases c.mem_keep under with rfl | ⟨before, -⟩
    · exact smooth all
    · exact all e before

theorem finish_flows (c : Client) (b : BatchId) : Flows c (c.finish b) where
  correlator := rfl
  reason := rfl
  holds _ held := held.imp_right fun ⟨d, under, item⟩ => ⟨d, (List.mem_filter.1 under).1, item⟩
  untroubled smooth d under := smooth d (List.mem_filter.1 under).1

theorem breakOff_flows (c : Client) (b : BatchId) : Flows c (c.breakOff b) :=
  (c.finish_flows b).trans (.aside rfl (.refl _) rfl rfl)

theorem send_flows {d d' : Dispatch} (member : d ∈ c.dispatches) (items : d'.items ⊆ d.items) :
    Flows c (c.send d').2 := by
  simp only [send]
  split
  · exact c.breakOff_flows d'.id
  · have counted : Flows c { c with stats := c.stats.recordDispatch d'.items.length } :=
      .aside rfl (.refl _) rfl rfl
    refine counted.trans (keep_flows member items fun _ deadline a phase => ?_)
    cases phase
    rfl

/-- As long as the session is open, an attempt begins with what still waits. -/
theorem beginAttempt_flows (running : c.lifecycle.closedReason = none) {d : Dispatch}
    (member : d ∈ c.dispatches) (healthy : Bool) : Flows c (c.beginAttempt d healthy).2 := by
  simp only [beginAttempt]
  split
  · exact c.finish_flows d.id
  · rw [running]
    have connecting : Flows c { c with lifecycle := c.lifecycle.beginConnect.2 } :=
      .aside rfl c.lifecycle.beginConnect_quiet rfl rfl
    simp only
    split
    · exact connecting.trans (send_flows member List.filter_sublist.subset)
    · refine connecting.trans (keep_flows member List.filter_sublist.subset fun _ deadline a phase => ?_)
      cases phase

theorem onDue_flows (running : c.lifecycle.closedReason = none) (b : BatchId) (healthy : Bool) :
    Flows c (c.onDue b healthy).2 := by
  unfold onDue
  split
  · rename_i d found
    have member := (Sound.mem_of_dispatch? found).1
    split
    · exact beginAttempt_flows running member healthy
    · split
      · exact beginAttempt_flows running member healthy
      · exact .refl c
    · exact .refl c
  · exact .refl c

/-- A connection is made. -/
theorem onConnect_flows (c : Client) (b : BatchId) : Flows c (c.onConnect b (.ok ())).2 := by
  unfold onConnect
  split
  · rename_i d found
    have member := (Sound.mem_of_dispatch? found).1
    split
    · have connected : Flows c { c with lifecycle := c.lifecycle.onConnected } :=
        .aside rfl c.lifecycle.onConnected_quiet rfl rfl
      exact connected.trans (send_flows member (List.Subset.refl _))
    · exact .refl c
  · exact .refl c

theorem onLink_flows (c : Client) (up : Bool) : Flows c (c.onLink up) :=
  .aside rfl (c.onLink_quiet up) rfl rfl

/-! ## Reading replies -/

/-- A reply that is no failure moves nothing to be sent again. -/
theorem read_smooth {x x' : Exchange} {reply : Reply} (sound : ∀ tokens e, reply ≠ .failed tokens e)
    (read : x.read reply = .ok x') : x'.attempt.retry = x.attempt.retry := by
  cases reply with
  | result t answer =>
    cases read
    unfold Exchange.readResult
    split <;> rfl
  | unmatched detail =>
    cases read
    rfl
  | failed tokens e => exact absurd rfl (sound tokens e)

/-- A reply that is no failure changes what waits, and that is all. -/
theorem onReply_flows (c : Client) (b : BatchId) {reply : Reply}
    (sound : ∀ tokens e, reply ≠ .failed tokens e) :
    Flows { c with correlator := (c.onReply b reply).correlator } (c.onReply b reply) := by
  unfold onReply
  split
  · rename_i d found
    have member := (Sound.mem_of_dispatch? found).1
    split
    · rename_i deadline a phase
      split
      · rename_i x read
        have settled : Flows { c with correlator := x.correlator } (c.settle x) :=
          .aside rfl (.refl _) rfl rfl
        refine settled.trans (keep_flows member (List.Subset.refl _) fun smooth deadline' a' phase' => ?_)
        cases phase'
        rw [read_smooth sound read]
        exact smooth d member deadline a phase
      · rename_i e broken
        obtain ⟨-, tokens, failed⟩ := read_eq_error broken
        exact absurd failed (sound tokens e)
    · exact .refl c
  · exact .refl c

/-! ## The end of an attempt -/

/-- An attempt that leaves nothing to be sent again is done with its batch. -/
theorem conclude_flows (c : Client) (d : Dispatch) {x : Exchange} (correlator : x.correlator = c.correlator)
    (nothing : x.attempt.retry = []) : Flows c ((c.settle x).onEnding d (x.ending d.items)) := by
  have settled : x.ending d.items = .settled := by
    unfold Exchange.ending
    split
    · simp [nothing]
    · rfl
  rw [settled]
  have succeeded : Flows c { c.settle x with lifecycle := c.lifecycle.onSuccess } :=
    .aside correlator c.lifecycle.onSuccess_quiet rfl rfl
  exact succeeded.trans (finish_flows _ d.id)

theorem unanswered_of_awaits {b : BatchId} (answered : ∀ t, c.awaits b t = false) {d : Dispatch}
    (found : c.dispatch? b = some d) {deadline : Instant} {a : Attempt}
    (phase : d.phase = .reading deadline a) : a.unanswered = [] := by
  rw [List.eq_nil_iff_forall_not_mem]
  intro t member
  have awaits := (c.awaits_iff b t).2 ⟨d, deadline, a, found, phase, member⟩
  rw [answered t] at awaits
  cases awaits

/-- The replies end when everything is answered. -/
theorem onStreamEnd_flows (smooth : c.Untroubled) {b : BatchId} (answered : ∀ t, c.awaits b t = false) :
    Flows c (c.onStreamEnd b) := by
  unfold onStreamEnd
  split
  · rename_i d found
    split
    · rename_i deadline a phase
      have none := unanswered_of_awaits answered found phase
      have done : Exchange.endOfStream ⟨a, c.correlator, c.stats⟩ = ⟨a, c.correlator, c.stats⟩ := by
        simp [Exchange.endOfStream, none]
      simp only [done]
      exact c.conclude_flows d rfl (smooth d (Sound.mem_of_dispatch? found).1 deadline a phase)
    · exact .refl c
  · exact .refl c

/-- The deadline passes when everything is answered. -/
theorem onDeadline_flows (smooth : c.Untroubled) {b : BatchId}
    (answered : c.Overdue b → ∀ t, c.awaits b t = false) : Flows c (c.onDeadline b) := by
  unfold onDeadline
  split
  · rename_i d found
    split
    · rename_i deadline a phase
      split
      · rename_i passed
        have none := unanswered_of_awaits (answered ⟨d, deadline, a, found, phase, passed⟩) found phase
        have nothing := smooth d (Sound.mem_of_dispatch? found).1 deadline a phase
        exact c.conclude_flows d rfl (by simp [Exchange.passDeadline, none, nothing])
      · exact .refl c
    · exact .refl c
  · exact .refl c

/-! ## Taking a request in -/

/-- A check comes to be held, and nothing else changes. -/
structure Admits (c : Client) (item : Item) (c' : Client) : Prop where
  reason : c'.lifecycle.closedReason = c.lifecycle.closedReason
  holds : ∀ i, c'.Holds i → i = item ∨ c.Holds i
  untroubled : c.Untroubled → c'.Untroubled

theorem Admits.flows {c c' c'' : Client} {item : Item} (first : Admits c item c')
    (second : Flows c' c'') : Admits c item c'' where
  reason := second.reason.trans first.reason
  holds i held := first.holds i (second.holds i held)
  untroubled smooth := second.untroubled (first.untroubled smooth)

theorem enqueue_admits (c : Client) (t : Token) (request : Request) (prefill : Prefill) :
    Admits c ⟨t, request⟩ (c.enqueue t request prefill).2.2 := by
  obtain ⟨before, c₁, after, c₂, room, entry, result⟩ := c.enqueue_cases t request prefill
  rw [result]
  have flows : Flows c c₁ := by
    cases room with
    | stays => exact .refl c
    | leaves => exact c.departure_flows
  have admitted : Admits c ⟨t, request⟩ (c₁.joined t request prefill) := by
    refine ⟨flows.reason, ?_, flows.untroubled⟩
    rintro i (filling | under)
    · rcases List.mem_append.1 filling with held | new
      · exact .inr (flows.holds i (.inl held))
      · exact .inl (List.mem_singleton.1 new)
    · exact .inr (flows.holds i (.inr under))
  cases entry with
  | fills => exact admitted.flows (departure_flows _)
  | opens => exact admitted.flows (.aside rfl (.refl _) rfl rfl)
  | joins => exact admitted

/-- **Taking a request in**, the client comes to hold what is left to ask of it, at most. -/
theorem submit_admits (c : Client) (request : Request) :
    Admits c ⟨c.ids.nextToken.1, (c.prefill request).remaining request⟩ (c.submit request).2.2 := by
  cases c.submission request with
  | refused reason closed result =>
    rw [result]
    exact ⟨rfl, fun _ held => .inr held, id⟩
  | decided running store cache all result =>
    rw [result]
    exact ⟨rfl, fun _ held => .inr held, id⟩
  | enters running result =>
    rw [result]
    have enqueued := enqueue_admits (c.consulted request) c.ids.nextToken.1
      ((c.prefill request).remaining request) (c.prefill request)
    exact ⟨enqueued.reason, enqueued.holds, enqueued.untroubled⟩

end Client

end PolicyClient
