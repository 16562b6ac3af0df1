/-
# PolicyClient.Proofs.Lifecycle.Closing -- who closes a session

A session is closed by `Lifecycle.close` and by the failure that reaches the limit, and by
nothing else.  Every other change is `Lifecycle.Quiet`: it closes nothing, keeps the reason,
and leaves a closed session as it is.  What closes a session leaves a reason behind.

`Lifecycle.Reckons` lists what a failure can do to a session.
-/
import PolicyClient.Lifecycle

namespace PolicyClient

set_option autoImplicit false

namespace Lifecycle

/-- Nothing is closed on the way from `l` to `l'`, and nothing happens to what is closed. -/
structure Quiet (l l' : Lifecycle) : Prop where
  closed : l'.state = .closed → l.state = .closed
  reason : l'.closedReason = l.closedReason
  stays : l.state = .closed → l' = l

theorem Quiet.refl (l : Lifecycle) : Quiet l l := ⟨id, rfl, fun _ => rfl⟩

theorem Quiet.trans {l l' l'' : Lifecycle} (first : Quiet l l') (second : Quiet l' l'') : Quiet l l'' where
  closed closed := first.closed (second.closed closed)
  reason := second.reason.trans first.reason
  stays closed := by
    obtain rfl := first.stays closed
    exact second.stays closed

/-- What is not closed is quiet as long as nothing closes it. -/
theorem quiet_of_open {l l' : Lifecycle} (running : l.state ≠ .closed) (running' : l'.state ≠ .closed)
    (reason : l'.closedReason = l.closedReason) : Quiet l l' :=
  ⟨fun closed => absurd closed running', reason, fun closed => absurd closed running⟩

@[simp] theorem moveTo_state (l : Lifecycle) (next : SessionState) : (l.moveTo next).state = next := by
  unfold moveTo
  split
  · assumption
  · rfl

@[simp] theorem moveTo_closedReason (l : Lifecycle) (next : SessionState) :
    (l.moveTo next).closedReason = l.closedReason := by
  unfold moveTo
  split <;> rfl

@[simp] theorem moveTo_failures (l : Lifecycle) (next : SessionState) :
    (l.moveTo next).failures = l.failures := by
  unfold moveTo
  split <;> rfl

@[simp] theorem moveTo_lastFailure (l : Lifecycle) (next : SessionState) :
    (l.moveTo next).lastFailure = l.lastFailure := by
  unfold moveTo
  split <;> rfl

theorem moveTo_quiet {l : Lifecycle} (running : l.state ≠ .closed) {next : SessionState}
    (h : next ≠ .closed) : Quiet l (l.moveTo next) :=
  quiet_of_open running (by rw [moveTo_state]; exact h) (l.moveTo_closedReason next)

theorem beginConnect_quiet (l : Lifecycle) : Quiet l l.beginConnect.2 := by
  unfold beginConnect
  cases state : l.state with
  | idle => exact moveTo_quiet (by simp [state]) nofun
  | _ => exact .refl l

theorem onConnected_quiet (l : Lifecycle) : Quiet l l.onConnected := by
  unfold onConnected
  split
  · rename_i connecting
    exact moveTo_quiet (by simp [connecting]) nofun
  · exact .refl l

theorem onLinkUp_quiet (l : Lifecycle) : Quiet l l.onLinkUp := by
  unfold onLinkUp
  cases state : l.state with
  | connecting | degraded => exact moveTo_quiet (by simp [state]) nofun
  | _ => exact .refl l

theorem onLinkDown_quiet (l : Lifecycle) : Quiet l l.onLinkDown := by
  unfold onLinkDown
  cases state : l.state with
  | ready | connecting => exact moveTo_quiet (by simp [state]) nofun
  | _ => exact .refl l

theorem onSuccess_quiet (l : Lifecycle) : Quiet l l.onSuccess := by
  unfold onSuccess
  split
  · exact .refl l
  · rename_i running
    exact quiet_of_open running (by simp) (by simp)

/-! ## Failures -/

/-- No failure has been recorded after `started`. -/
def Clear (l : Lifecycle) (started : Instant) : Prop :=
  ∀ last, l.lastFailure = some last → last ≤ started

theorem clear_of_none {l : Lifecycle} (none : l.lastFailure = none) (started : Instant) :
    l.Clear started := by
  intro last found
  rw [none] at found
  cases found

theorem clear_iff_of_some {l : Lifecycle} {last : Instant} (recorded : l.lastFailure = some last)
    (started : Instant) : l.Clear started ↔ last ≤ started := by
  simp [Clear, recorded]

/-- What a failure at `now` can do to a session, for an attempt that began at `started`. -/
inductive Reckons (l : Lifecycle) (now started : Instant) (limit : Nat) (error : String) :
    FailureOutcome × Lifecycle → Prop
  /-- The session is closed already. -/
  | late (closed : l.state = .closed) : Reckons l now started limit error (.alreadyClosed, l)
  /-- The failure is part of one that was recorded after the attempt began. -/
  | shared (running : l.state ≠ .closed) (overtaken : ¬ l.Clear started) :
    Reckons l now started limit error
      (.degraded, { l with lastFailure := some now }.moveTo .degraded)
  | counted (running : l.state ≠ .closed) (clear : l.Clear started) (below : l.failures + 1 < limit) :
    Reckons l now started limit error
      (.degraded, { l with lastFailure := some now, failures := l.failures + 1 }.moveTo .degraded)
  | closing (running : l.state ≠ .closed) (clear : l.Clear started) (reached : limit ≤ l.failures + 1) :
    Reckons l now started limit error
      (.closed (limitReason (l.failures + 1) error),
        { l with
          lastFailure := some now
          failures := l.failures + 1
          closedReason := some (limitReason (l.failures + 1) error) }.moveTo .closed)

theorem onFailure_reckons (l : Lifecycle) (now started : Instant) (limit : Nat) (error : String) :
    Reckons l now started limit error (l.onFailure now started limit error) := by
  unfold onFailure
  by_cases closed : l.state = .closed
  · rw [if_pos closed]
    exact .late closed
  · rw [if_neg closed]
    have adds : l.Clear started → Reckons l now started limit error
        (if limit ≤ l.failures + 1 then
          (.closed (limitReason (l.failures + 1) error),
            { l with
              lastFailure := some now
              failures := l.failures + 1
              closedReason := some (limitReason (l.failures + 1) error) }.moveTo .closed)
        else
          (.degraded, { l with lastFailure := some now, failures := l.failures + 1 }.moveTo .degraded)) := by
      intro clear
      split
      · exact .closing closed clear ‹_›
      · exact .counted closed clear (Nat.lt_of_not_le ‹_›)
    cases recorded : l.lastFailure with
    | none => exact adds (clear_of_none recorded started)
    | some last =>
      by_cases before : last ≤ started
      · simp only [before, decide_true, Bool.not_true, Bool.false_eq_true, if_false]
        exact adds ((clear_iff_of_some recorded started).2 before)
      · simp only [before, decide_false, Bool.not_false, if_true]
        apply Reckons.shared closed
        rw [clear_iff_of_some recorded]
        exact before

/-- A failure that the session stays open over. -/
theorem Reckons.quiet {l l' : Lifecycle} {now started : Instant} {limit : Nat} {error : String}
    (h : Reckons l now started limit error (.degraded, l')) : Quiet l l' := by
  cases h with
  | shared running => exact quiet_of_open running (by simp) (by simp)
  | counted running => exact quiet_of_open running (by simp) (by simp)

/-! ## After the end -/

section

variable {l : Lifecycle} (h : l.state = .closed)

include h

theorem beginConnect_of_closed : l.beginConnect = (none, l) := by
  simp [beginConnect, h]

theorem onConnected_of_closed : l.onConnected = l := by
  simp [onConnected, h]

theorem onLinkUp_of_closed : l.onLinkUp = l := by
  simp [onLinkUp, h]

theorem onLinkDown_of_closed : l.onLinkDown = l := by
  simp [onLinkDown, h]

theorem onSuccess_of_closed : l.onSuccess = l := by
  simp [onSuccess, h]

theorem onFailure_of_closed (now started : Instant) (limit : Nat) (error : String) :
    l.onFailure now started limit error = (.alreadyClosed, l) := by
  simp [onFailure, h]

theorem close_of_closed (reason : String) : l.close reason = (false, l) := by
  simp [close, h]

end

theorem close_of_open {l : Lifecycle} (h : l.state ≠ .closed) (reason : String) :
    l.close reason = (true, { l with closedReason := some reason }.moveTo .closed) := by
  simp [close, h]

end Lifecycle

end PolicyClient
