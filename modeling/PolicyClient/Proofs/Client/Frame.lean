/-
# PolicyClient.Proofs.Client.Frame -- what the functions of a client leave alone

A client does two things, and neither meddles with the other.  It fills batches: that leaves the
lifecycle alone (`Client.Fills`).  It sees batches through that have left: that leaves alone the
open batch, with its timers and the ids (`Client.SeesThrough`).  Nothing touches the settings or
where the clock ends, and the clock only moves by itself.
-/
import PolicyClient.Proofs.Client.Submission

namespace PolicyClient

set_option autoImplicit false

namespace Client

/-- What filling batches leaves alone. -/
structure Fills (c c' : Client) : Prop where
  config : c'.config = c.config
  horizon : c'.horizon = c.horizon
  now : c'.now = c.now
  lifecycle : c'.lifecycle = c.lifecycle

/-- What seeing batches through leaves alone. -/
structure SeesThrough (c c' : Client) : Prop where
  config : c'.config = c.config
  horizon : c'.horizon = c.horizon
  now : c'.now = c.now
  ids : c'.ids = c.ids
  openBatch : c'.openBatch = c.openBatch
  timers : c'.timers = c.timers

variable (c : Client)

/-! ## Filling batches -/

theorem departure_fills : c.Fills c.departure.2 := ⟨rfl, rfl, rfl, rfl⟩

theorem flush_fills : c.Fills c.flush.2 := by
  unfold flush
  split
  · exact ⟨rfl, rfl, rfl, rfl⟩
  · exact c.departure_fills

theorem onFlushTimer_fills (b : BatchId) : c.Fills (c.onFlushTimer b).2 := by
  simp only [onFlushTimer]
  split
  · obtain ⟨config, horizon, now, lifecycle⟩ := flush_fills { c with timers := c.timers.filter fun t => t.batch ≠ b }
    exact ⟨config, horizon, now, lifecycle⟩
  · exact ⟨rfl, rfl, rfl, rfl⟩

theorem enqueue_fills (t : Token) (request : Request) (prefill : Prefill) :
    c.Fills (c.enqueue t request prefill).2.2 := by
  obtain ⟨before, c₁, after, c₂, room, entry, result⟩ := c.enqueue_cases t request prefill
  rw [result]
  cases room <;> cases entry <;> exact ⟨rfl, rfl, rfl, rfl⟩

theorem submit_fills (request : Request) : c.Fills (c.submit request).2.2 := by
  cases c.submission request with
  | refused reason closed result =>
    rw [result]
    exact ⟨rfl, rfl, rfl, rfl⟩
  | decided running store cache all result =>
    rw [result]
    exact ⟨rfl, rfl, rfl, rfl⟩
  | enters running result =>
    rw [result]
    obtain ⟨config, horizon, now, lifecycle⟩ := (c.consulted request).enqueue_fills c.ids.nextToken.1
      ((c.prefill request).remaining request) (c.prefill request)
    exact ⟨config, horizon, now, lifecycle⟩

theorem abandon_fills : c.Fills c.abandon := by
  unfold abandon
  split <;> exact ⟨rfl, rfl, rfl, rfl⟩

/-! ## Seeing batches through -/

namespace SeesThrough

variable {c} {c₁ c₂ : Client}

theorem refl (c : Client) : c.SeesThrough c := ⟨rfl, rfl, rfl, rfl, rfl, rfl⟩

theorem trans (first : c.SeesThrough c₁) (second : c₁.SeesThrough c₂) : c.SeesThrough c₂ where
  config := second.config.trans first.config
  horizon := second.horizon.trans first.horizon
  now := second.now.trans first.now
  ids := second.ids.trans first.ids
  openBatch := second.openBatch.trans first.openBatch
  timers := second.timers.trans first.timers

/-- The correlator, the counters and the lifecycle may change on the way. -/
theorem aside (k : Correlator) (s : Stats) (l : Lifecycle) :
    c.SeesThrough { c with correlator := k, stats := s, lifecycle := l } := ⟨rfl, rfl, rfl, rfl, rfl, rfl⟩

end SeesThrough

theorem closeWith_seesThrough (reason : String) (e : Error) : c.SeesThrough (c.closeWith reason e) := by
  unfold closeWith
  split <;> exact ⟨rfl, rfl, rfl, rfl, rfl, rfl⟩

theorem abandon_seesThrough : c.SeesThrough c.abandon := by
  unfold abandon
  split <;> exact ⟨rfl, rfl, rfl, rfl, rfl, rfl⟩

theorem send_seesThrough (d : Dispatch) : c.SeesThrough (c.send d).2 := by
  simp only [send]
  split <;> exact ⟨rfl, rfl, rfl, rfl, rfl, rfl⟩

theorem beginAttempt_seesThrough (d : Dispatch) (healthy : Bool) :
    c.SeesThrough (c.beginAttempt d healthy).2 := by
  simp only [beginAttempt]
  split
  · exact ⟨rfl, rfl, rfl, rfl, rfl, rfl⟩
  · split
    · exact ⟨rfl, rfl, rfl, rfl, rfl, rfl⟩
    · split
      · exact SeesThrough.trans (.aside _ _ _) (send_seesThrough _ _)
      · exact ⟨rfl, rfl, rfl, rfl, rfl, rfl⟩

theorem onTransientFailure_seesThrough (d : Dispatch) (rest : List Item) (e : Error) :
    c.SeesThrough (c.onTransientFailure d rest e) := by
  unfold onTransientFailure
  split
  · exact ⟨rfl, rfl, rfl, rfl, rfl, rfl⟩
  · exact ⟨rfl, rfl, rfl, rfl, rfl, rfl⟩
  · dsimp only
    split
    · exact ⟨rfl, rfl, rfl, rfl, rfl, rfl⟩
    · split <;> exact ⟨rfl, rfl, rfl, rfl, rfl, rfl⟩

theorem onEnding_seesThrough (d : Dispatch) (ending : AttemptEnding) :
    c.SeesThrough (c.onEnding d ending) := by
  cases ending with
  | settled => exact ⟨rfl, rfl, rfl, rfl, rfl, rfl⟩
  | fatal e => exact (c.closeWith_seesThrough e.message e).trans ⟨rfl, rfl, rfl, rfl, rfl, rfl⟩
  | retry rest e => exact c.onTransientFailure_seesThrough d rest e

theorem onDue_seesThrough (b : BatchId) (healthy : Bool) : c.SeesThrough (c.onDue b healthy).2 := by
  unfold onDue
  split
  · rename_i d found
    split
    · exact c.beginAttempt_seesThrough d healthy
    · split
      · exact c.beginAttempt_seesThrough d healthy
      · exact .refl c
    · exact .refl c
  · exact .refl c

theorem onConnect_seesThrough (b : BatchId) (result : Except Error Unit) :
    c.SeesThrough (c.onConnect b result).2 := by
  unfold onConnect
  split
  · rename_i d found
    split
    · split
      · exact SeesThrough.trans (.aside _ _ _) (send_seesThrough _ d)
      · exact c.onEnding_seesThrough d _
    · exact .refl c
  · exact .refl c

theorem onReply_seesThrough (b : BatchId) (reply : Reply) : c.SeesThrough (c.onReply b reply) := by
  unfold onReply
  split
  · rename_i d found
    split
    · split
      · exact ⟨rfl, rfl, rfl, rfl, rfl, rfl⟩
      · exact c.onEnding_seesThrough d _
    · exact .refl c
  · exact .refl c

theorem onStreamEnd_seesThrough (b : BatchId) : c.SeesThrough (c.onStreamEnd b) := by
  unfold onStreamEnd
  split
  · rename_i d found
    split
    · exact SeesThrough.trans (.aside _ _ _) (onEnding_seesThrough _ d _)
    · exact .refl c
  · exact .refl c

theorem onDeadline_seesThrough (b : BatchId) : c.SeesThrough (c.onDeadline b) := by
  unfold onDeadline
  split
  · rename_i d found
    split
    · split
      · exact SeesThrough.trans (.aside _ _ _) (onEnding_seesThrough _ d _)
      · exact .refl c
    · exact .refl c
  · exact .refl c

end Client

end PolicyClient
