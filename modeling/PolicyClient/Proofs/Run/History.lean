/-
# PolicyClient.Proofs.Run.History -- histories taken apart

A history of events can be cut anywhere: what happens after a first part is a history of
the run that the first part leads to (`Run.after_append`), and what is shown is shown by
one of its events.

No event changes the settings, and the clock moves only as time passes (`Run.step_config`,
`Run.step_now`).  All events but those that fill batches leave alone what fills
(`Run.step_seesThrough`).
-/
import PolicyClient.Proofs.Client.Frame
import PolicyClient.Run

namespace PolicyClient

set_option autoImplicit false

/-- The time that passes over an event. -/
def Event.span : Event → Duration
  | .elapse d => d
  | _ => .zero

/-- Whether an event is something that is done with a handle. -/
def Event.OfHandle : Event → Prop
  | .poll _ | .cancel _ | .drop _ | .expire .. => True
  | _ => False

/-- Whether an event has to do with the batch that fills. -/
def Event.Fills : Event → Prop
  | .submit _ | .flush | .close | .startTimer _ | .flushTimer _ => True
  | _ => False

namespace Run

@[simp] theorem after_nil (r : Run) : r.after [] = ([], r) := rfl

theorem foldl_step (events : List Event) (seen : List Observation) (r : Run) :
    events.foldl (fun (seen, r) event =>
        let (shown, r) := r.step event
        (seen ++ shown, r)) (seen, r) = (seen ++ (r.after events).1, (r.after events).2) := by
  induction events generalizing seen r with
  | nil => simp
  | cons event events ih =>
    simp only [after, List.foldl_cons, List.nil_append]
    rw [ih, ih (r.step event).1, List.append_assoc]

theorem after_cons (r : Run) (event : Event) (events : List Event) :
    r.after (event :: events) =
      ((r.step event).1 ++ ((r.step event).2.after events).1, ((r.step event).2.after events).2) := by
  rw [after, List.foldl_cons]
  simp only [List.nil_append]
  exact foldl_step events _ _

theorem after_append (r : Run) (first later : List Event) :
    r.after (first ++ later) = ((r.after first).1 ++ ((r.after first).2.after later).1,
      ((r.after first).2.after later).2) := by
  induction first generalizing r with
  | nil => simp
  | cons event first ih => rw [List.cons_append, after_cons, after_cons, ih, List.append_assoc]

/-- A history leads to where its last event leads from the run before. -/
theorem after_snoc (r : Run) (events : List Event) (event : Event) :
    (r.after (events ++ [event])).2 = ((r.after events).2.step event).2 := by
  rw [after_append, after_cons, after_nil]

/-- A history shows what its last event shows at the end. -/
theorem shown_snoc (r : Run) (events : List Event) (event : Event) :
    (r.after (events ++ [event])).1 = (r.after events).1 ++ ((r.after events).2.step event).1 := by
  rw [after_append, after_cons, after_nil, List.append_nil]

/-- What every event keeps, every history keeps. -/
theorem after_keeps {P : Run → Prop} (step : ∀ r event, P r → P (r.step event).2) {r : Run} (h : P r)
    (events : List Event) : P (r.after events).2 := by
  induction events generalizing r with
  | nil => exact h
  | cons event events ih =>
    rw [after_cons]
    exact ih (step r event h)

/-- Every event of a history finds the run as `P` has it. -/
def Throughout (P : Run → Event → Prop) (r : Run) : List Event → Prop
  | [] => True
  | event :: events => P r event ∧ (r.step event).2.Throughout P events

instance decidableThroughout {P : Run → Event → Prop} [∀ r event, Decidable (P r event)] :
    (r : Run) → (events : List Event) → Decidable (r.Throughout P events)
  | _, [] => inferInstanceAs (Decidable True)
  | r, event :: events =>
    have := decidableThroughout (P := P) (r.step event).2 events
    inferInstanceAs (Decidable (_ ∧ _))

theorem throughout_append (P : Run → Event → Prop) (r : Run) (first later : List Event) :
    r.Throughout P (first ++ later) ↔ r.Throughout P first ∧ (r.after first).2.Throughout P later := by
  induction first generalizing r with
  | nil => simp [Throughout]
  | cons event first ih => rw [List.cons_append, Throughout, Throughout, ih, after_cons, and_assoc]

theorem throughout_snoc (P : Run → Event → Prop) (r : Run) (events : List Event) (event : Event) :
    r.Throughout P (events ++ [event]) ↔ r.Throughout P events ∧ P (r.after events).2 event := by
  rw [throughout_append, Throughout, Throughout, and_true]

/-! ## What events leave alone -/

/-- What is done with a handle touches the correlator, and nothing else of the client. -/
theorem step_ofHandle (r : Run) (event : Event) (handled : event.OfHandle) :
    ∃ k, (r.step event).2.client = { r.client with correlator := k } := by
  cases event with
  | poll t | cancel t | drop t | expire t =>
    simp only [step]
    split
    · exact ⟨_, rfl⟩
    · first
      | exact ⟨_, rfl⟩
      | split <;> exact ⟨_, rfl⟩
  | _ => exact handled.elim

theorem step_seesThrough (r : Run) {event : Event} (other : ¬ event.Fills) :
    Client.SeesThrough { r.client with now := r.client.now + event.span } (r.step event).2.client := by
  have handle := r.step_ofHandle event
  cases event with
  | submit _ | flush | close | startTimer _ | flushTimer _ => exact absurd trivial other
  | poll t | cancel t | drop t | expire t =>
    obtain ⟨k, same⟩ := handle trivial
    rw [same]
    exact .aside k _ _
  | abandon => exact r.client.abandon_seesThrough
  | link up => exact .aside _ _ _
  | due b healthy => exact r.client.onDue_seesThrough b healthy
  | connected b result => exact r.client.onConnect_seesThrough b result
  | reply b reply => exact r.client.onReply_seesThrough b reply
  | streamEnd b => exact r.client.onStreamEnd_seesThrough b
  | deadline b => exact r.client.onDeadline_seesThrough b
  | draw share => exact ⟨rfl, rfl, rfl, rfl, rfl, rfl⟩
  | elapse d => exact .refl _
  | age d => exact .aside _ _ _

/-- The settings stay, and the clock moves as time passes and ends where it ended. -/
structure Setting (c : Client) (event : Event) (c' : Client) : Prop where
  config : c'.config = c.config
  horizon : c'.horizon = c.horizon
  now : c'.now = c.now + event.span

theorem step_setting (r : Run) (event : Event) : Setting r.client event (r.step event).2.client := by
  have aside : ¬ event.Fills → Setting r.client event (r.step event).2.client := fun other =>
    have sees := r.step_seesThrough other
    ⟨sees.config, sees.horizon, sees.now⟩
  cases event with
  | submit request =>
    have fills := r.client.submit_fills request
    exact ⟨fills.config, fills.horizon, fills.now⟩
  | flush =>
    have fills := r.client.flush_fills
    exact ⟨fills.config, fills.horizon, fills.now⟩
  | close =>
    have shut := r.client.closeWith_seesThrough "closed by caller" (.sessionClosed "closed by caller")
    have fills := Client.flush_fills (r.client.closeWith "closed by caller" (.sessionClosed "closed by caller"))
    exact ⟨fills.config.trans shut.config, fills.horizon.trans shut.horizon, fills.now.trans shut.now⟩
  | startTimer b => exact ⟨rfl, rfl, rfl⟩
  | flushTimer b =>
    have fills := r.client.onFlushTimer_fills b
    simp only [step]
    split
    · exact ⟨fills.config, fills.horizon, fills.now⟩
    · exact ⟨rfl, rfl, rfl⟩
  | _ => exact aside id

@[simp] theorem step_config (r : Run) (event : Event) :
    (r.step event).2.client.config = r.client.config := (r.step_setting event).config

theorem step_now (r : Run) (event : Event) :
    (r.step event).2.client.now = r.client.now + event.span := (r.step_setting event).now

theorem config_after (r : Run) (events : List Event) :
    (r.after events).2.client.config = r.client.config :=
  after_keeps (P := fun r' => r'.client.config = r.client.config)
    (fun r' event same => (step_config r' event).trans same) rfl events

theorem horizon_after (r : Run) (events : List Event) :
    (r.after events).2.client.horizon = r.client.horizon :=
  after_keeps (P := fun r' => r'.client.horizon = r.client.horizon)
    (fun r' event same => (step_setting r' event).horizon.trans same) rfl events

/-- The clock does not go back. -/
theorem now_le_after (r : Run) (events : List Event) : r.client.now ≤ (r.after events).2.client.now :=
  after_keeps (P := fun r' => r.client.now ≤ r'.client.now)
    (fun r' event le => by
      rw [step_now]
      exact Nat.le_trans le (Nat.le_add_right ..)) (Nat.le_refl _) events

/-! ## The beginning -/

/-- The run of a client with these settings before anything has happened, on a clock that ends at
`horizon`. -/
def fresh (config : Config) (horizon : Instant) : Run where
  client := {
    config
    horizon
    ids := { batches := 1 }
    correlator := { cache := config.cache.map DecisionCache.ofConfig }
    openBatch := { id := ⟨1⟩ } }

theorem start_eq_ok_iff (config : Config) (horizon : Instant) (r : Run) :
    start config horizon = .ok r ↔ config.validate = .ok () ∧ r = fresh config horizon := by
  unfold start Client.create
  cases valid : config.validate with
  | error e => exact ⟨nofun, fun h => nomatch h.1⟩
  | ok u => exact ⟨fun h => ⟨rfl, by cases h; rfl⟩, fun h => h.2 ▸ rfl⟩

def view : Action := ⟨"view", by decide⟩

/-- A small question: may alice view a document? -/
def mayAliceView : Request where
  principal := ⟨"alice", .ofList [("employee", ())], .empty, none, none⟩
  resource := ⟨"document", "1", .empty, none, none⟩
  actions := [view]
  auxData := none

end Run

end PolicyClient
