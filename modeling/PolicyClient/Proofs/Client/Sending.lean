/-
# PolicyClient.Proofs.Client.Sending -- what departs, and what is sent

A batch departs by leaving the place of the open batch.  A dispatch comes into being for it
then, under an id that no batch before it has had (`Client.Departs`); and nothing is sent yet.

Only a dispatch sends, and at two places: as it begins an attempt (`Client.onDue_cases`), or once
it is connected (`Client.onConnect_cases`).  What it sends is what it goes on with, unless the
deadline is beyond the clock (`Client.Sends`).
-/
import PolicyClient.Proofs.Run.Progress

namespace PolicyClient

set_option autoImplicit false

/-- Replies are read in the present attempt. -/
def Dispatch.IsReading (d : Dispatch) : Prop := ∃ deadline a, d.phase = .reading deadline a

namespace Client

/-! ## Departures -/

/-- Batches may have departed, each under an id of its own that has been shown. -/
structure Departs (c : Client) (effects : List Effect) (c' : Client) : Prop where
  latest : c'.openBatch.id.number = c'.ids.batches
  batches : c.ids.batches ≤ c'.ids.batches
  arises : ∀ d ∈ c'.dispatches, d ∈ c.dispatches ∨
    (d.IsNew ∧ .spawned d.id ∈ effects ∧ c.ids.batches ≤ d.id.number)
  quiet : ∀ b, .send b ∉ effects

variable {c c' c'' : Client}

theorem Departs.trans {effects effects' : List Effect} (first : Departs c effects c')
    (second : Departs c' effects' c'') : Departs c (effects ++ effects') c'' where
  latest := second.latest
  batches := Nat.le_trans first.batches second.batches
  arises d member := by
    rcases second.arises d member with before | ⟨new, shown, fresh⟩
    · refine (first.arises d before).imp_right fun ⟨new, shown, fresh⟩ => ?_
      exact ⟨new, List.mem_append_left _ shown, fresh⟩
    · exact .inr ⟨new, List.mem_append_right _ shown, Nat.le_trans first.batches fresh⟩
  quiet b shown := (List.mem_append.1 shown).elim (first.quiet b) (second.quiet b)

/-- Nothing departs. -/
theorem Departs.aside (latest : c.openBatch.id.number = c.ids.batches) {effects : List Effect}
    (id : c'.openBatch.id = c.openBatch.id) (batches : c'.ids.batches = c.ids.batches)
    (dispatches : c'.dispatches = c.dispatches) (quiet : ∀ b, .send b ∉ effects) :
    Departs c effects c' where
  latest := by rw [id, batches]; exact latest
  batches := Nat.le_of_eq batches.symm
  arises d member := .inl (dispatches ▸ member)
  quiet := quiet

theorem departure_departs (latest : c.openBatch.id.number = c.ids.batches) :
    Departs c c.departure.1 c.departure.2 where
  latest := rfl
  batches := Nat.le_succ _
  arises d member := by
    refine (List.mem_append.1 member).imp_right fun new => ?_
    rw [List.mem_singleton.1 new]
    exact ⟨⟨rfl, rfl⟩, List.mem_singleton_self _, Nat.le_of_eq latest.symm⟩
  quiet b shown := nomatch List.mem_singleton.1 shown

theorem flush_departs (latest : c.openBatch.id.number = c.ids.batches) :
    Departs c c.flush.1 c.flush.2 := by
  unfold flush
  split
  · exact .aside latest rfl rfl rfl nofun
  · exact departure_departs latest

theorem onFlushTimer_departs (latest : c.openBatch.id.number = c.ids.batches) (b : BatchId) :
    Departs c (c.onFlushTimer b).1 (c.onFlushTimer b).2 := by
  have quiet : Departs c [] { c with timers := c.timers.filter fun t => t.batch ≠ b } :=
    .aside latest rfl rfl rfl nofun
  simp only [onFlushTimer]
  split
  · exact quiet.trans (flush_departs latest)
  · exact quiet

theorem enqueue_departs (latest : c.openBatch.id.number = c.ids.batches) (t : Token) (request : Request)
    (prefill : Prefill) :
    Departs c (c.enqueue t request prefill).2.1 (c.enqueue t request prefill).2.2 := by
  obtain ⟨before, c₁, after, c₂, room, entry, result⟩ := c.enqueue_cases t request prefill
  rw [result]
  have departs : Departs c before c₁ := by
    cases room with
    | stays => exact .aside latest rfl rfl rfl fun _ => List.not_mem_nil
    | leaves => exact departure_departs latest
  have admitted : Departs c before (c₁.joined t request prefill) :=
    ⟨departs.latest, departs.batches, departs.arises, departs.quiet⟩
  cases entry with
  | fills => exact admitted.trans (departure_departs admitted.latest)
  | opens => exact admitted.trans (.aside admitted.latest rfl rfl rfl (by simp))
  | joins => exact admitted.trans (.aside admitted.latest rfl rfl rfl fun _ => List.not_mem_nil)

theorem submit_departs (latest : c.openBatch.id.number = c.ids.batches) (request : Request) :
    Departs c (c.submit request).2.1 (c.submit request).2.2 := by
  cases c.submission request with
  | refused reason closed result =>
    rw [result]
    exact .aside latest rfl rfl rfl fun _ => List.not_mem_nil
  | decided running store cache all result =>
    rw [result]
    exact .aside latest rfl rfl rfl fun _ => List.not_mem_nil
  | enters running result =>
    rw [result]
    have enqueued := enqueue_departs (c := c.consulted request) latest c.ids.nextToken.1
      ((c.prefill request).remaining request) (c.prefill request)
    exact ⟨enqueued.latest, enqueued.batches, enqueued.arises, enqueued.quiet⟩

theorem close_departs (latest : c.openBatch.id.number = c.ids.batches) :
    Departs c c.close.1 c.close.2 := by
  have shut : Departs c [] (c.closeWith "closed by caller" (.sessionClosed "closed by caller")) := by
    unfold closeWith
    split
    · exact .aside latest rfl rfl rfl nofun
    · exact .aside latest rfl rfl rfl nofun
  exact shut.trans (flush_departs shut.latest)

/-! ## Sending -/

theorem Moves.id {event : Event} {d d' : Dispatch} (moves : c.Moves event d d') : d'.id = d.id := by
  cases moves <;> rfl

/-- What becomes of a dispatch that is to send its items. -/
inductive Sends (c : Client) (d : Dispatch) : List Effect × Client → Prop
  /-- The clock does not reach to the deadline. -/
  | breaksOff : Sends c d ([], c.breakOff d.id)
  | sends : Sends c d ([.send ⟨d.id, d.items⟩],
      { c with stats := c.stats.recordDispatch d.items.length }.keep (c.sent d))

theorem send_sends (c : Client) (d : Dispatch) : Sends c d (c.send d) := by
  simp only [send]
  split
  · exact .breaksOff
  · exact .sends

/-- What becomes of a dispatch that is to begin an attempt. -/
inductive Begins (c : Client) (d : Dispatch) (healthy : Bool) : List Effect × Client → Prop
  /-- Nothing of it waits any more. -/
  | finishes (nothing : (c.begun d).items = []) : Begins c d healthy ([], c.finish d.id)
  /-- The session is closed. -/
  | refused (reason : String) (closed : c.lifecycle.closedReason = some reason) :
    Begins c d healthy
      ([], { c with correlator := (c.correlator.failBatch d.id (.sessionClosed reason)).2 }.finish d.id)
  | connects (running : c.lifecycle.closedReason = none) (some : (c.begun d).items ≠ []) :
    Begins c d healthy ([.connect d.id],
      { c with lifecycle := c.lifecycle.beginConnect.2 }.keep { c.begun d with phase := .connecting })
  /-- The session is connected as it is. -/
  | sends (running : c.lifecycle.closedReason = none) (some : (c.begun d).items ≠ []) (ready : healthy = true)
      (result : List Effect × Client)
      (sent : Sends { c with lifecycle := c.lifecycle.beginConnect.2 } (c.begun d) result) :
    Begins c d healthy result

theorem beginAttempt_begins (c : Client) (d : Dispatch) (healthy : Bool) :
    Begins c d healthy (c.beginAttempt d healthy) := by
  simp only [beginAttempt]
  split
  · rename_i nothing
    exact .finishes (List.isEmpty_iff.1 nothing)
  · rename_i some
    have some : (c.begun d).items ≠ [] := fun nothing => some (List.isEmpty_iff.2 nothing)
    split
    · rename_i reason closed
      exact .refused reason closed
    · rename_i running
      split
      · rename_i ready
        exact .sends running some (Bool.and_eq_true_iff.1 ready).2 _ (send_sends _ _)
      · exact .connects running some

theorem onDue_cases (c : Client) (b : BatchId) (healthy : Bool) :
    c.onDue b healthy = ([], c) ∨
      ∃ d ∈ c.dispatches, d.id = b ∧ d.IsDue c.now ∧ c.Begins d healthy (c.onDue b healthy) := by
  unfold onDue
  split
  · rename_i d found
    obtain ⟨member, id⟩ := Sound.mem_of_dispatch? found
    split
    · rename_i phase
      exact .inr ⟨d, member, id, .inl phase, c.beginAttempt_begins d healthy⟩
    · rename_i wake phase
      split
      · rename_i passed
        exact .inr ⟨d, member, id, .inr ⟨wake, phase, passed⟩, c.beginAttempt_begins d healthy⟩
      · exact .inl rfl
    · exact .inl rfl
  · exact .inl rfl

theorem onConnect_cases (c : Client) (b : BatchId) (result : Except Error Unit) :
    c.onConnect b result = ([], c) ∨ (∃ e, result = .error e ∧ (c.onConnect b result).1 = []) ∨
      ∃ d ∈ c.dispatches, d.id = b ∧ d.phase = .connecting ∧ result = .ok () ∧
        Sends { c with lifecycle := c.lifecycle.onConnected } d (c.onConnect b result) := by
  unfold onConnect
  split
  · rename_i d found
    obtain ⟨member, id⟩ := Sound.mem_of_dispatch? found
    split
    · rename_i phase
      split
      · exact .inr (.inr ⟨d, member, id, phase, rfl, send_sends _ d⟩)
      · rename_i e
        exact .inr (.inl ⟨e, rfl, rfl⟩)
    · exact .inl rfl
  · exact .inl rfl

end Client

end PolicyClient
