/-
# PolicyClient.Proofs.Lifecycle.Transitions -- what a lifecycle keeps, and what it publishes

Whatever a lifecycle hears, its fields agree with each other (`Lifecycle.Consistent`): a
reason is kept exactly for a closed session, failures are counted exactly while one is
recorded, the count reaches the limit only by closing the session, and the state published
last is the state.  A state is published exactly when it changes (`Lifecycle.Publishes`).

A state is followed by few others (`SessionState.Precedes`).  A lifecycle keeps to this as
long as no attempt ends while it is idle (`Lifecycle.follows_of_hear`), and it is idle only
until the first attempt is to connect (`Lifecycle.busy_after`).
-/
import PolicyClient.Proofs.Lifecycle.Outage

namespace PolicyClient

set_option autoImplicit false

/-- The states that can come next. -/
inductive SessionState.Precedes : SessionState → SessionState → Prop
  | idle_connecting : Precedes .idle .connecting
  | connecting_ready : Precedes .connecting .ready
  | connecting_degraded : Precedes .connecting .degraded
  | ready_degraded : Precedes .ready .degraded
  | degraded_ready : Precedes .degraded .ready
  | closes (s : SessionState) (running : s ≠ .closed) : Precedes s .closed

theorem SessionState.Precedes.ne_idle {s s' : SessionState} (h : s.Precedes s') : s' ≠ .idle := by
  cases h <;> nofun

namespace Lifecycle

/-- The fields of a lifecycle agree with each other. -/
structure Consistent (limit : Nat) (l : Lifecycle) : Prop where
  reason : l.closedReason ≠ none ↔ l.state = .closed
  recorded : l.failures = 0 ↔ l.lastFailure = none
  most : l.failures ≤ limit
  below : l.state ≠ .closed → l.failures < limit
  published : l.published = l.state

/-- The state is as it was and nothing is published, or it is another one and that is published. -/
def Publishes (l l' : Lifecycle) : Prop :=
  (l'.state = l.state ∧ l'.published = l.published ∧ l'.publications = l.publications) ∨
    (l'.state ≠ l.state ∧ l'.published = l'.state ∧ l'.publications = l.publications + 1)

/-- The state is as it was, or one that can come next. -/
def Follows (l l' : Lifecycle) : Prop := l'.state = l.state ∨ l.state.Precedes l'.state

/-! ## One move -/

theorem moveTo_published {l : Lifecycle} (h : l.published = l.state) (next : SessionState) :
    (l.moveTo next).published = next := by
  unfold moveTo
  split
  · rename_i same
    exact h.trans same
  · rfl

theorem publishes_refl (l : Lifecycle) : l.Publishes l := .inl ⟨rfl, rfl, rfl⟩

theorem publishes_moveTo (l : Lifecycle) (next : SessionState) : l.Publishes (l.moveTo next) := by
  unfold moveTo
  split
  · exact l.publishes_refl
  · rename_i other
    exact .inr ⟨Ne.symm other, rfl, rfl⟩

theorem follows_moveTo {l : Lifecycle} {next : SessionState} (precedes : l.state.Precedes next) :
    l.Follows (l.moveTo next) := by
  right
  rw [moveTo_state]
  exact precedes

/-- Other fields may be set before the state is. -/
theorem consistent_moveTo {limit : Nat} {l : Lifecycle} {next : SessionState}
    (reason : l.closedReason ≠ none ↔ next = .closed) (recorded : l.failures = 0 ↔ l.lastFailure = none)
    (most : l.failures ≤ limit) (below : next ≠ .closed → l.failures < limit)
    (published : l.published = l.state) : Consistent limit (l.moveTo next) where
  reason := by rw [moveTo_closedReason, moveTo_state]; exact reason
  recorded := by rw [moveTo_failures, moveTo_lastFailure]; exact recorded
  most := by rw [moveTo_failures]; exact most
  below := by rw [moveTo_failures, moveTo_state]; exact below
  published := by rw [moveTo_published published, moveTo_state]

/-! ## One report -/

variable {limit : Nat} {l : Lifecycle}

theorem Consistent.reason_of_running (h : Consistent limit l) (running : l.state ≠ .closed) :
    l.closedReason = none := by
  by_contra some
  exact running (h.reason.1 some)

/-- A session that is not closed may move to any state but that. -/
theorem Consistent.moveTo (h : Consistent limit l) (running : l.state ≠ .closed) {next : SessionState}
    (open_ : next ≠ .closed) : Consistent limit (l.moveTo next) := by
  apply consistent_moveTo
  · simp [h.reason_of_running running, open_]
  · exact h.recorded
  · exact h.most
  · exact fun _ => h.below running
  · exact h.published

theorem Consistent.failed (h : Consistent limit l) {now started : Instant} {error : String}
    {result : FailureOutcome × Lifecycle} (reckons : Reckons l now started limit error result) :
    Consistent limit result.2 := by
  cases reckons with
  | late => exact h
  | shared running overtaken =>
    have none := h.reason_of_running running
    apply consistent_moveTo
    · simp [none]
    · -- The failure that overtook the attempt has been counted.
      have counted : l.failures ≠ 0 := fun zero => overtaken (clear_of_none (h.recorded.1 zero) started)
      simp [counted]
    · exact h.most
    · exact fun _ => h.below running
    · exact h.published
  | counted running clear below =>
    have none := h.reason_of_running running
    apply consistent_moveTo
    · simp [none]
    · simp
    · exact Nat.le_of_lt below
    · exact fun _ => below
    · exact h.published
  | closing running clear reached =>
    apply consistent_moveTo
    · simp
    · simp
    · exact h.below running
    · exact fun open_ => absurd rfl open_
    · exact h.published

/-- **Whatever a lifecycle hears**, its fields agree afterwards. -/
theorem Consistent.hear (positive : 0 < limit) (h : Consistent limit l) (x : Report) :
    Consistent limit (l.hear limit x) := by
  by_cases closed : l.state = .closed
  · rw [hear_of_closed limit closed]
    exact h
  · unfold Lifecycle.hear
    split
    · unfold beginConnect
      split
      · exact h.moveTo closed nofun
      all_goals exact h
    · unfold onConnected
      split
      · exact h.moveTo closed nofun
      · exact h
    · unfold onLinkUp onLinkDown
      split
      all_goals
        split
        · exact h.moveTo closed nofun
        · exact h.moveTo closed nofun
        · exact h
    · rw [onSuccess, if_neg closed]
      apply consistent_moveTo
      · simp [h.reason_of_running closed]
      · simp
      · exact Nat.zero_le _
      · exact fun _ => positive
      · exact h.published
    · rename_i started error _
      exact h.failed (l.onFailure_reckons x.time started limit error)
    · rw [close_of_open closed]
      apply consistent_moveTo
      · simp
      · exact h.recorded
      · exact h.most
      · exact fun open_ => absurd rfl open_
      · exact h.published

theorem consistent_start (positive : 0 < limit) : Consistent limit {} :=
  ⟨by simp, by simp, Nat.zero_le _, fun _ => positive, rfl⟩

theorem consistent_after (positive : 0 < limit) (reports : List Report) :
    Consistent limit (after limit {} reports) := by
  induction reports using List.reverseRecOn with
  | nil => exact consistent_start positive
  | append_singleton reports x ih =>
    rw [after_snoc]
    exact ih.hear positive x

/-- **A state is published exactly when it changes.** -/
theorem publishes_hear (limit : Nat) (l : Lifecycle) (x : Report) : l.Publishes (l.hear limit x) := by
  unfold hear
  split
  · unfold beginConnect
    split
    · exact l.publishes_moveTo .connecting
    all_goals exact l.publishes_refl
  · unfold onConnected
    split
    · exact l.publishes_moveTo .ready
    · exact l.publishes_refl
  · unfold onLinkUp onLinkDown
    split
    · split
      · exact l.publishes_moveTo .ready
      · exact l.publishes_moveTo .ready
      · exact l.publishes_refl
    · split
      · exact l.publishes_moveTo .degraded
      · exact l.publishes_moveTo .degraded
      · exact l.publishes_refl
  · unfold onSuccess
    split
    · exact l.publishes_refl
    · exact publishes_moveTo { l with failures := 0, lastFailure := none } .ready
  · rename_i started error _
    have reckons := l.onFailure_reckons x.time started limit error
    generalize l.onFailure x.time started limit error = result at reckons
    cases reckons with
    | late => exact l.publishes_refl
    | shared => exact publishes_moveTo { l with lastFailure := some x.time } .degraded
    | counted =>
      exact publishes_moveTo { l with lastFailure := some x.time, failures := l.failures + 1 } .degraded
    | closing =>
      exact publishes_moveTo { l with
        lastFailure := some x.time
        failures := l.failures + 1
        closedReason := some (limitReason (l.failures + 1) error) } .closed
  · rename_i reason _
    unfold close
    split
    · exact l.publishes_refl
    · exact publishes_moveTo { l with closedReason := some reason } .closed

/-! ## The order of the states -/

/-- Whether the news is that an attempt has come to its end. -/
def News.Ends : News → Prop
  | .success | .failure _ _ => True
  | _ => False

/-- **A lifecycle goes from state to state in order**, if no attempt ends while it is idle. -/
theorem follows_of_hear (limit : Nat) {l : Lifecycle} {x : Report}
    (begun : x.news.Ends → l.state ≠ .idle) : l.Follows (l.hear limit x) := by
  unfold hear
  split
  · unfold beginConnect
    split
    · rename_i state
      exact follows_moveTo (state ▸ .idle_connecting)
    all_goals exact .inl rfl
  · unfold onConnected
    split
    · rename_i state
      exact follows_moveTo (state ▸ .connecting_ready)
    · exact .inl rfl
  · unfold onLinkUp onLinkDown
    split
    · split
      · rename_i state
        exact follows_moveTo (state ▸ .connecting_ready)
      · rename_i state
        exact follows_moveTo (state ▸ .degraded_ready)
      · exact .inl rfl
    · split
      · rename_i state
        exact follows_moveTo (state ▸ .ready_degraded)
      · rename_i state
        exact follows_moveTo (state ▸ .connecting_degraded)
      · exact .inl rfl
  · rename_i news
    have busy := begun (by rw [news]; trivial)
    unfold onSuccess
    split
    · exact .inl rfl
    · rename_i running
      cases state : l.state with
      | idle => exact absurd state busy
      | closed => exact absurd state running
      | connecting => exact .inr (by rw [moveTo_state, state]; exact .connecting_ready)
      | ready => exact .inl (by rw [moveTo_state, state])
      | degraded => exact .inr (by rw [moveTo_state, state]; exact .degraded_ready)
  · rename_i started error news
    have busy := begun (by rw [news]; trivial)
    have degrades : l.state ≠ .closed → SessionState.degraded = l.state ∨ l.state.Precedes .degraded := by
      intro running
      cases state : l.state with
      | idle => exact absurd state busy
      | closed => exact absurd state running
      | connecting => exact .inr .connecting_degraded
      | ready => exact .inr .ready_degraded
      | degraded => exact .inl rfl
    have reckons := l.onFailure_reckons x.time started limit error
    generalize l.onFailure x.time started limit error = result at reckons
    cases reckons with
    | late => exact .inl rfl
    | shared running | counted running =>
      rw [Follows, moveTo_state]
      exact degrades running
    | closing running =>
      rw [Follows, moveTo_state]
      exact .inr (.closes _ running)
  · unfold close
    split
    · exact .inl rfl
    · rename_i running
      rw [Follows, moveTo_state]
      exact .inr (.closes _ running)

/-- Nothing leads back to the idle state. -/
theorem idle_of_hear (limit : Nat) {l : Lifecycle} {x : Report} (idle : (l.hear limit x).state = .idle) :
    l.state = .idle := by
  by_contra busy
  have follows : l.Follows (l.hear limit x) := follows_of_hear limit fun _ => busy
  rcases follows with same | precedes
  · exact busy (same.symm.trans idle)
  · exact precedes.ne_idle idle

theorem beginConnect_busy (l : Lifecycle) : l.beginConnect.2.state ≠ .idle := by
  unfold beginConnect
  cases state : l.state <;> simp [state]

/-- Once an attempt is to connect, the session is idle no more. -/
theorem busy_after (limit : Nat) {reports : List Report} {y : Report} (member : y ∈ reports)
    (connects : y.news = .connecting) : (after limit {} reports).state ≠ .idle := by
  induction reports using List.reverseRecOn with
  | nil => cases member
  | append_singleton reports x ih =>
    rw [after_snoc]
    rcases List.mem_append.1 member with before | new
    · exact fun idle => ih before (idle_of_hear limit idle)
    · rw [← List.mem_singleton.1 new, hear, connects]
      exact beginConnect_busy _

end Lifecycle

end PolicyClient
