/-
# PolicyClient.Proofs.Run.Standing -- a check nobody has asked after yet, and one that is spent

A check of which nothing has been told is `Run.Open`: it waits, or its outcome is there.  It stays so
until its own handle is used, which makes it `Run.Done`: it has told all it will and waits no longer.
-/
import PolicyClient.Proofs.Run.Containment

namespace PolicyClient

set_option autoImplicit false

namespace Run

variable {config : Config} {horizon : Instant} {events : List Event} {t : Token}

/-- Nothing has been told of the check under `t`, and its handle is held: it waits, or its outcome is there. -/
structure Open (config : Config) (horizon : Instant) (events : List Event) (t : Token) : Prop where
  silent : told t ((fresh config horizon).after events).1 = []
  pending : (∃ w, ((fresh config horizon).after events).2.client.correlator.waiters.get? t = some w) ∨
    ((fresh config horizon).after events).2.calls.get? t ≠ none ∧ ∃ o, ((fresh config horizon).after events).2.Pledged t o

/-- These outcomes have been told of the check under `t`, and it waits no longer. -/
structure Done (config : Config) (horizon : Instant) (events : List Event) (t : Token) (outcomes : List Outcome) : Prop where
  told : told t ((fresh config horizon).after events).1 = outcomes
  gone : ((fresh config horizon).after events).2.client.correlator.waiters.get? t = none
  issued : t.number ≤ ((fresh config horizon).after events).2.client.ids.tokens

theorem Open.issued (h : Open config horizon events t) :
    t.number ≤ ((fresh config horizon).after events).2.client.ids.tokens := by
  rcases h.pending with ⟨w, found⟩ | ⟨-, o, pledged⟩
  · exact ((fresh_sound_run config horizon).after events).client.known t w found
  · exact pledged.issued

/-- A check stays open as long as nobody uses its handle. -/
theorem Open.step (h : Open config horizon events t) {event : Event} (apart : ¬ event.Uses t) :
    Open config horizon (events ++ [event]) t := by
  have sound := (fresh_sound_run config horizon).after events
  obtain ⟨silent, calls⟩ := step_of_not_uses sound h.issued apart
  refine ⟨by rw [told_after_snoc, h.silent, silent]; rfl, ?_⟩
  rw [after_snoc, calls]
  rcases h.pending with ⟨w, found⟩ | ⟨held, o, pledged⟩
  · rcases step_fate found event with ⟨-, found'⟩ | ⟨o, gives, -⟩
    · exact .inl ⟨w, found'⟩
    · have attended := (fresh_attended config horizon).after (fresh_sound_run config horizon) events
      refine .inr ⟨by rw [attended t w found]; nofun, o, ?_⟩
      rcases gives with now | ⟨-, pledged⟩
      · cases silent.symm.trans now
      · exact pledged
  · refine .inr ⟨held, o, ?_⟩
    rcases pledged.step sound event with now | ⟨-, later⟩
    · cases silent.symm.trans now
    · exact later

/-- A check stays done as long as nobody uses its handle. -/
theorem Done.step {outcomes : List Outcome} (h : Done config horizon events t outcomes) {event : Event}
    (apart : ¬ event.Uses t) : Done config horizon (events ++ [event]) t outcomes := by
  have sound := (fresh_sound_run config horizon).after events
  obtain ⟨silent, -⟩ := step_of_not_uses sound h.issued apart
  refine ⟨by rw [told_after_snoc, h.told, silent, List.append_nil], ?_, ?_⟩
  · rw [after_snoc]
    exact gone_step sound h.issued h.gone event
  · rw [after_snoc]
    exact Nat.le_trans h.issued (tokens_le_step sound.client event)

/-- A check is open once it is submitted. -/
theorem open_of_submit (config : Config) (horizon : Instant) (events : List Event) (request : Request) :
    Open config horizon (events ++ [.submit request]) ((fresh config horizon).after events).2.client.ids.nextToken.1 := by
  have sound₀ := fresh_sound_run config horizon
  have sound := sound₀.after events
  have unissued : told _ ((fresh config horizon).after events).1 = [] :=
    told_of_unissued (t := ((fresh config horizon).after events).2.client.ids.nextToken.1) sound₀ (Nat.lt_succ_self _)
  refine ⟨by rw [told_after_snoc, unissued, told_submit]; rfl, ?_⟩
  rw [after_snoc]
  have held : (((fresh config horizon).after events).2.step (.submit request)).2.calls.get?
      ((fresh config horizon).after events).2.client.ids.nextToken.1 ≠ none := by
    simp [Run.step, (sound.client.submit request).1, Table.get?_insert]
  obtain ⟨-, -, standing⟩ := sound.client.submit request
  cases standing with
  | refused reason closed state correlator =>
    exact .inr ⟨held, _, pledged_of_submitted sound state (congrArg Correlator.waiters correlator)⟩
  | decided running store cache all state waiters =>
    exact .inr ⟨held, _, pledged_of_submitted sound state waiters⟩
  | waits running b state waiter => exact .inl ⟨_, waiter⟩

/-- Who looks for the outcome of an open check finds that it waits, or is told and the check is done. -/
theorem Open.poll (h : Open config horizon events t) :
    ((((fresh config horizon).after events).2.step (.poll t)).1 = [] ∧ Open config horizon (events ++ [.poll t]) t ∧
        ((fresh config horizon).after events).2.client.correlator.isLive t = true) ∨
      ∃ o, (((fresh config horizon).after events).2.step (.poll t)).1 = [.outcome t o] ∧
        Done config horizon (events ++ [.poll t]) t [o] := by
  have sound := (fresh_sound_run config horizon).after events
  rcases h.pending with ⟨w, found⟩ | ⟨held, o, pledged⟩
  · left
    have attended := (fresh_attended config horizon).after (fresh_sound_run config horizon) events
    have same : ((fresh config horizon).after events).2.step (.poll t) = ([], ((fresh config horizon).after events).2) := by
      simp only [Run.step, attended t w found,
        Call.poll_of_waiting sound.client.coherent (fits_of_waiting found) found]
    refine ⟨by rw [same], ⟨?_, ?_⟩, (Correlator.isLive_iff _ t).2 ⟨w, found⟩⟩
    · rw [told_after_snoc, same, h.silent]
      rfl
    · rw [after_snoc, same]
      exact h.pending
  · right
    obtain ⟨call, found⟩ := Option.ne_none_iff_exists'.1 held
    have shown : (((fresh config horizon).after events).2.step (.poll t)).1 = [.outcome t o] := by
      simp [Run.step, found, pledged.poll found]
    refine ⟨o, shown, ?_, ?_, ?_⟩
    · rw [told_after_snoc, shown, h.silent]
      simp
    · rw [after_snoc]
      exact gone_step sound pledged.issued pledged.gone _
    · rw [after_snoc]
      exact Nat.le_trans pledged.issued (tokens_le_step sound.client _)

/-- Who gives up the handle of an open check is told nothing, and the check waits no longer. -/
theorem Open.drop (h : Open config horizon events t) : Done config horizon (events ++ [.drop t]) t [] := by
  have sound := (fresh_sound_run config horizon).after events
  refine ⟨?_, ?_, ?_⟩
  · have silent : told t (((fresh config horizon).after events).2.step (.drop t)).1 = [] := by
      simp only [Run.step]
      split <;> rfl
    rw [told_after_snoc, h.silent, silent]
    rfl
  · rw [after_snoc]
    rcases h.pending with ⟨w, found⟩ | ⟨-, o, pledged⟩
    · have attended := (fresh_attended config horizon).after (fresh_sound_run config horizon) events
      have uses : (Event.drop t).Uses t := rfl
      exact (attended.step_uses sound found uses).resolve_left fun same => absurd same.1 (by simp)
    · exact gone_step sound pledged.issued pledged.gone _
  · rw [after_snoc]
    exact Nat.le_trans h.issued (tokens_le_step sound.client _)

end Run

end PolicyClient
