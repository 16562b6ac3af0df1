/-
# PolicyClient.Proofs.Run.Clock -- time passes, and dispatches act on it

Only `elapse` moves the clock (`Run.step_now`).  A dispatch acts on its clock when it is due: at
once if it is new, at the deadline while it reads replies, and when its delay is over; one that
connects has no clock to act on (`Dispatch.Lets`).  In a run in which time stops for every
dispatch that has to act (`Run.Punctual`), none is ever late (`Run.inTime_after`).
-/
import PolicyClient.Proofs.Run.Sending

namespace PolicyClient

set_option autoImplicit false

/-! ## The clock -/

theorem Duration.add_nanos (a b : Duration) : (a + b).nanos = a.nanos + b.nanos := rfl

theorem Duration.add_zero (a : Duration) : a + .zero = a := rfl

namespace Client

/-- Whether the dispatch of `b` is connecting. -/
def connects (c : Client) (b : BatchId) : Bool :=
  match c.dispatch? b with
  | some d =>
    match d.phase with
    | .connecting => true
    | _ => false
  | none => false

theorem Sound.connects_of_mem {c : Client} (h : c.Sound) {d : Dispatch} (member : d ∈ c.dispatches)
    (phase : d.phase = .connecting) : c.connects d.id = true := by
  simp [Client.connects, h.dispatch?_of_mem member, phase]

end Client

/-- Time may pass until `later` before the dispatch has to act. -/
def Dispatch.Lets (d : Dispatch) (now later : Instant) : Prop :=
  match d.phase with
  | .queued => later ≤ now
  | .connecting => True
  | .reading deadline _ => later ≤ deadline
  | .backingOff wake => later ≤ wake

instance (d : Dispatch) (now later : Instant) : Decidable (d.Lets now later) :=
  match phase : d.phase with
  | .queued => decidable_of_iff (later ≤ now) (by rw [Dispatch.Lets, phase])
  | .connecting => .isTrue (by rw [Dispatch.Lets, phase]; trivial)
  | .reading deadline _ => decidable_of_iff (later ≤ deadline) (by rw [Dispatch.Lets, phase])
  | .backingOff wake => decidable_of_iff (later ≤ wake) (by rw [Dispatch.Lets, phase])

/-- Once time has passed, a dispatch has acted if it lets the time pass. -/
theorem Dispatch.Lets.pass {d : Dispatch} {now later : Instant} (h : d.Lets now later) : d.Lets later later := by
  unfold Dispatch.Lets at h ⊢
  split
  · exact Nat.le_refl _
  all_goals
    rename_i phase
    simp only [phase] at h
    exact h

namespace Run

/-- When time passes, it stops for every dispatch that has to act. -/
def Punctual (r : Run) (events : List Event) : Prop :=
  r.Throughout (fun r event => event.span = .zero ∨
    ∀ d ∈ r.client.dispatches, d.Lets r.client.now (r.client.now + event.span)) events

instance (r : Run) (events : List Event) : Decidable (r.Punctual events) :=
  inferInstanceAs (Decidable (r.Throughout _ events))

/-- The time over a history during which the dispatch of `b` is connecting, in nanoseconds. -/
def connecting (r : Run) (b : BatchId) : List Event → Nat
  | [] => 0
  | event :: events =>
    (if r.client.connects b then event.span.nanos else 0) + (r.step event).2.connecting b events

theorem punctual_append (r : Run) (first later : List Event) :
    r.Punctual (first ++ later) ↔ r.Punctual first ∧ (r.after first).2.Punctual later :=
  throughout_append _ r first later

theorem connecting_append (r : Run) (b : BatchId) (first later : List Event) :
    r.connecting b (first ++ later) = r.connecting b first + (r.after first).2.connecting b later := by
  induction first generalizing r with
  | nil => simp [connecting]
  | cons event first ih => rw [List.cons_append, connecting, connecting, ih, after_cons, Nat.add_assoc]

theorem connecting_snoc (r : Run) (b : BatchId) (events : List Event) (event : Event) :
    r.connecting b (events ++ [event]) =
      r.connecting b events + if (r.after events).2.client.connects b then event.span.nanos else 0 := by
  rw [connecting_append]
  simp [connecting]

/-! ## Acting in time -/

/-- Every dispatch has acted when it was due. -/
def InTime (r : Run) : Prop := ∀ d ∈ r.client.dispatches, d.Lets r.client.now r.client.now

end Run

namespace Client

variable {c : Client} {event : Event} {d d' : Dispatch}

theorem Moves.span (moves : c.Moves event d d') : event.span = .zero := by
  cases moves with
  | backsOff d event rest e fails => cases fails <;> rfl
  | _ => rfl

/-- A dispatch that has made a move need not act before time passes. -/
theorem Moves.lets (moves : c.Moves event d d') (before : d.Lets c.now c.now) : d'.Lets c.now c.now := by
  cases moves with
  | connects d due healthy => trivial
  | begins | sends | backsOff => exact Nat.le_add_right ..
  | reads d deadline a phase =>
    rw [Dispatch.Lets, phase] at before
    exact before

end Client

namespace Run

theorem Spawns.span {r : Run} {event : Event} {d : Dispatch} (spawns : r.Spawns event d) :
    event.span = .zero := by
  cases event with
  | elapse time => cases spawns.shown
  | _ => rfl

theorem InTime.lets {r : Run} (h : r.InTime) {event : Event} (punctual : r.Punctual [event]) {d : Dispatch}
    (member : d ∈ r.client.dispatches) : d.Lets r.client.now (r.client.now + event.span) := by
  rcases punctual.1 with still | stops
  · rw [still]
    exact h d member
  · exact stops d member

theorem InTime.step {r : Run} (h : r.InTime) (sound : r.client.Sound) {event : Event}
    (punctual : r.Punctual [event]) : (r.step event).2.InTime := by
  intro d' member
  rw [step_now]
  rcases step_arises sound member with before | spawns | ⟨d, before, moves⟩
  · exact (h.lets punctual before).pass
  · rw [spawns.span, Dispatch.Lets, spawns.new.1]
    exact Nat.le_refl _
  · rw [moves.span]
    exact moves.lets (h d before)

theorem inTime_after {r : Run} (h : r.InTime) (sound : r.client.Sound) {events : List Event}
    (punctual : r.Punctual events) : (r.after events).2.InTime := by
  induction events using List.reverseRecOn with
  | nil => exact h
  | append_singleton events event ih =>
    obtain ⟨before, last⟩ := (r.punctual_append events [event]).1 punctual
    rw [after_snoc]
    exact (ih before).step (sound_after sound events) last

end Run

end PolicyClient
