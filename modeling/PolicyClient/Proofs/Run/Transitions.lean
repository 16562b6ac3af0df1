/-
# PolicyClient.Proofs.Run.Transitions -- how a session goes from state to state

Every event leaves the lifecycle of a session as it is or has it hear one piece of news
(`Run.Hears`), and what news that can be is said by `Event.Brings`.  So whatever a lifecycle
keeps over reports it keeps over a run.

That a session goes through its states in order is a matter of the whole run: news of an
attempt that has ended must not come while the session is idle.  It does not, since a
dispatch that has begun an attempt has had the session connect first (`Run.Unbegun`).
-/
import PolicyClient.Proofs.Client.Sending
import PolicyClient.Proofs.Config.Validation
import PolicyClient.Proofs.Lifecycle.Transitions
import PolicyClient.Proofs.Run.Closing

namespace PolicyClient

set_option autoImplicit false

open Lifecycle (News Report)

/-- The news of a session that an event can bring. -/
inductive Event.Brings : Event → News → Prop
  | begins (b : BatchId) (healthy : Bool) : Brings (.due b healthy) .connecting
  | connects (b : BatchId) : Brings (.connected b (.ok ())) .connected
  | link (up : Bool) : Brings (.link up) (.link up)
  | streamEnd (b : BatchId) : Brings (.streamEnd b) .success
  | deadline (b : BatchId) : Brings (.deadline b) .success
  | fails (event : Event) (ends : event.EndsAttempt) (started : Instant) (error : String) :
    Brings event (.failure started error)
  | fatalReply (b : BatchId) (tokens : List Token) (e : Error) (fatal : e.isFatal = true) :
    Brings (.reply b (.failed tokens e)) (.closing e.message)
  | fatalConnect (b : BatchId) (e : Error) (fatal : e.isFatal = true) :
    Brings (.connected b (.error e)) (.closing e.message)
  | caller : Brings .close (.closing "closed by caller")

/-- The news of an attempt that began at `started` and has ended. -/
def AttemptEnding.news (started : Instant) : AttemptEnding → News
  | .settled => .success
  | .retry _ e => .failure started e.message
  | .fatal e => .closing e.message

namespace Client

/-! ## What the functions of a client tell the lifecycle -/

theorem closeWith_lifecycle (c : Client) (reason : String) (e : Error) :
    (c.closeWith reason e).lifecycle = (c.lifecycle.close reason).2 := by
  unfold closeWith
  by_cases closed : c.lifecycle.state = .closed
  · rw [Lifecycle.close_of_closed closed]
  · rw [Lifecycle.close_of_open closed]

theorem onTransientFailure_lifecycle (c : Client) (d : Dispatch) (rest : List Item) (e : Error) :
    (c.onTransientFailure d rest e).lifecycle =
      (c.lifecycle.onFailure c.now d.started c.config.failureLimit e.message).2 := by
  unfold onTransientFailure
  generalize c.lifecycle.onFailure c.now d.started c.config.failureLimit e.message = outcome
  obtain ⟨outcome, l⟩ := outcome
  cases outcome with
  | closed reason => rfl
  | alreadyClosed => rfl
  | degraded =>
    dsimp only
    split
    · rfl
    · split <;> rfl

theorem onEnding_lifecycle (c : Client) (d : Dispatch) (ending : AttemptEnding) :
    (c.onEnding d ending).lifecycle =
      c.lifecycle.hear c.config.failureLimit ⟨c.now, ending.news d.started⟩ := by
  cases ending with
  | settled => rfl
  | fatal e => exact c.closeWith_lifecycle e.message e
  | retry rest e => exact c.onTransientFailure_lifecycle d rest e

/-- An attempt that has come to its end brings no news of closing. -/
theorem news_of_ending (x : Exchange) (items : List Item) (started : Instant) :
    (x.ending items).news started = .success ∨
      ∃ error, (x.ending items).news started = .failure started error := by
  unfold Exchange.ending
  split
  · split
    · exact .inl rfl
    · exact .inr ⟨_, rfl⟩
  · exact .inl rfl

end Client

namespace Run

/-- What becomes of the lifecycle over an event: nothing, or it hears what the event brings.
An attempt that ends has been begun before. -/
inductive Hears (r : Run) (event : Event) : Lifecycle → Prop
  | nothing : Hears r event r.client.lifecycle
  | news (news : News) (brings : event.Brings news)
      (begun : news.Ends → ∃ d ∈ r.client.dispatches, ¬ d.IsNew) :
    Hears r event (r.client.lifecycle.hear r.client.config.failureLimit ⟨r.client.now, news⟩)

/-- **Every event** has the lifecycle hear one piece of news at most. -/
theorem step_hears (r : Run) (event : Event) : r.Hears event (r.step event).2.client.lifecycle := by
  have under : ∀ {b d}, r.client.dispatch? b = some d → d.phase ≠ .queued →
      ∃ d ∈ r.client.dispatches, ¬ d.IsNew := fun found busy =>
    ⟨_, (Client.Sound.mem_of_dispatch? found).1, fun new => busy new.1⟩
  -- The replies have ended, or the deadline has passed: success or failure.
  have concludes : ∀ {d : Dispatch} {x : Exchange}, (∃ d ∈ r.client.dispatches, ¬ d.IsNew) →
      event.Brings .success → event.EndsAttempt →
      r.Hears event ((r.client.settle x).onEnding d (x.ending d.items)).lifecycle := by
    intro d x begun succeeds ends
    rw [Client.onEnding_lifecycle]
    rcases Client.news_of_ending x d.items d.started with news | ⟨error, news⟩
    · rw [news]
      exact .news .success succeeds fun _ => begun
    · rw [news]
      exact .news _ (.fails event ends d.started error) fun _ => begun
  have handle := r.step_ofHandle event
  cases event with
  | submit request =>
    simp only [step, (r.client.submit_fills request).lifecycle]
    exact .nothing
  | poll t | cancel t | drop t | expire t =>
    obtain ⟨k, same⟩ := handle trivial
    rw [same]
    exact .nothing
  | flush =>
    simp only [step, act, r.client.flush_fills.lifecycle]
    exact .nothing
  | abandon =>
    simp only [step, update, r.client.abandon_fills.lifecycle]
    exact .nothing
  | flushTimer b =>
    simp only [step]
    split
    · simp only [act, (r.client.onFlushTimer_fills b).lifecycle]
      exact .nothing
    · exact .nothing
  | startTimer b | draw share | elapse d | age d => exact .nothing
  | link up => exact .news (.link up) (.link up) False.elim
  | close =>
    simp only [step, act, Client.close, (Client.flush_fills _).lifecycle, Client.closeWith_lifecycle]
    exact .news (.closing "closed by caller") .caller False.elim
  | due b healthy =>
    have connecting := Hears.news (r := r) .connecting (.begins b healthy) False.elim
    simp only [step, act]
    rcases r.client.onDue_cases b healthy with nothing | ⟨d, -, -, -, begun⟩
    · rw [nothing]
      exact .nothing
    · generalize r.client.onDue b healthy = outcome at begun
      cases begun with
      | finishes => exact .nothing
      | refused => exact .nothing
      | connects => exact connecting
      | sends _ _ _ _ sent => cases sent <;> exact connecting
  | connected b result =>
    simp only [step, act, Client.onConnect]
    split
    · rename_i d found
      split
      · rename_i phase
        have begun := under found (by simp [phase])
        split
        · rw [Client.send_lifecycle]
          exact .news .connected (.connects b) False.elim
        · rename_i e
          rw [Client.onEnding_lifecycle]
          split
          · rename_i fatal
            exact .news _ (.fatalConnect b e fatal) False.elim
          · rename_i passing
            exact .news _ (.fails (.connected b (.error e)) (Bool.eq_false_iff.2 passing) d.started e.message)
              fun _ => begun
      · exact .nothing
    · exact .nothing
  | reply b reply =>
    simp only [step, update, Client.onReply]
    split
    · split
      · split
        · exact .nothing
        · rename_i e broken
          obtain ⟨fatal, tokens, rfl⟩ := Client.read_eq_error broken
          rw [Client.onEnding_lifecycle]
          exact .news _ (.fatalReply b tokens e fatal) False.elim
      · exact .nothing
    · exact .nothing
  | streamEnd b =>
    simp only [step, update, Client.onStreamEnd]
    split
    · rename_i d found
      split
      · rename_i phase
        exact concludes (under found (by simp [phase])) (.streamEnd b) trivial
      · exact .nothing
    · exact .nothing
  | deadline b =>
    simp only [step, update, Client.onDeadline]
    split
    · rename_i d found
      split
      · rename_i phase
        split
        · exact concludes (under found (by simp [phase])) (.deadline b) trivial
        · exact .nothing
      · exact .nothing
    · exact .nothing

/-! ## No attempt ends while the session is idle -/

/-- As long as the session is idle no dispatch has begun an attempt. -/
def Unbegun (r : Run) : Prop :=
  r.client.lifecycle.state = .idle → ∀ d ∈ r.client.dispatches, d.IsNew

theorem fresh_unbegun (config : Config) (horizon : Instant) : (fresh config horizon).Unbegun := fun _ => nofun

/-- An idle session has nothing begun that is due. -/
theorem mem_onDue_of_idle {c : Client} {b : BatchId} {healthy : Bool}
    (idle : (c.onDue b healthy).2.lifecycle.state = .idle) {e : Dispatch}
    (member : e ∈ (c.onDue b healthy).2.dispatches) : e ∈ c.dispatches := by
  rcases c.onDue_cases b healthy with nothing | ⟨d, -, -, -, begun⟩
  · rw [nothing] at member
    exact member
  · generalize c.onDue b healthy = outcome at begun member idle
    cases begun with
    | finishes => exact (Client.mem_finish member).1
    | refused => exact (Client.mem_finish member).1
    -- The session has had to connect.
    | connects => exact absurd idle (Lifecycle.beginConnect_busy _)
    | sends _ _ _ _ sent => cases sent <;> exact absurd idle (Lifecycle.beginConnect_busy _)

theorem Unbegun.step {r : Run} (h : r.Unbegun) (sound : r.client.Sound) (event : Event) :
    (r.step event).2.Unbegun := by
  intro idle d' member
  have before : r.client.lifecycle.state = .idle := by
    have hears := r.step_hears event
    generalize (r.step event).2.client.lifecycle = l' at hears idle
    cases hears with
    | nothing => exact idle
    | news news => exact Lifecycle.idle_of_hear _ idle
  cases mem_step_dispatches sound member with
  | stays earlier => exact h before d' earlier
  | new new => exact new
  | moves d earlier moves =>
    have new := (h before d earlier).1
    cases moves with
    | connects d due healthy => exact h before _ (mem_onDue_of_idle idle member)
    | begins d due => exact h before _ (mem_onDue_of_idle idle member)
    | sends d phase => cases new.symm.trans phase
    | reads d deadline a phase => cases new.symm.trans phase
    | backsOff d event rest e fails =>
      -- What fails has begun.
      cases fails with
      | unconnected e passing phase => cases new.symm.trans phase
      | streamEnd deadline a phase => cases new.symm.trans phase
      | overdue deadline a phase => cases new.symm.trans phase

theorem Unbegun.after {r : Run} (h : r.Unbegun) (sound : r.client.Sound) (events : List Event) :
    (r.after events).2.Unbegun :=
  (after_keeps (P := fun r => r.client.Sound ∧ r.Unbegun)
    (fun _ event ⟨sound, h⟩ => ⟨(step_sound sound event).1, h.step sound event⟩) ⟨sound, h⟩ events).2

/-! ## Every run -/

/-- Settings that can be worked with allow for a failure. -/
theorem failureLimit_pos {config : Config} (valid : config.validate = .ok ()) : 0 < config.failureLimit :=
  Nat.pos_of_ne_zero (config.validate_eq_ok_iff.1 valid).failureLimit

theorem publishes_step (r : Run) (event : Event) :
    r.client.lifecycle.Publishes (r.step event).2.client.lifecycle := by
  have hears := r.step_hears event
  generalize (r.step event).2.client.lifecycle = l' at hears
  cases hears with
  | nothing => exact Lifecycle.publishes_refl _
  | news news => exact Lifecycle.publishes_hear _ _ _

theorem Unbegun.follows_step {r : Run} (h : r.Unbegun) (event : Event) :
    r.client.lifecycle.Follows (r.step event).2.client.lifecycle := by
  have hears := r.step_hears event
  generalize (r.step event).2.client.lifecycle = l' at hears
  cases hears with
  | nothing => exact .inl rfl
  | news news brings begun =>
    refine Lifecycle.follows_of_hear _ fun ends idle => ?_
    obtain ⟨d, under, old⟩ := begun ends
    exact old (h idle d under)

theorem consistent_after {config : Config} {horizon : Instant} (valid : config.validate = .ok ()) (events : List Event) :
    Lifecycle.Consistent config.failureLimit ((fresh config horizon).after events).2.client.lifecycle := by
  have positive := failureLimit_pos valid
  induction events using List.reverseRecOn with
  | nil => exact Lifecycle.consistent_start positive
  | append_singleton events event ih =>
    rw [after_snoc]
    have hears := ((fresh config horizon).after events).2.step_hears event
    generalize (((fresh config horizon).after events).2.step event).2.client.lifecycle = l' at hears
    cases hears with
    | nothing => exact ih
    | news news =>
      rw [config_after]
      exact ih.hear positive _

/-- A connection that is to be made, or is made, leaves a degraded session degraded. -/
theorem degraded_step {r : Run} {event : Event}
    (connects : ∀ news, event.Brings news → news = .connecting ∨ news = .connected)
    (degraded : r.client.state = .degraded) : (r.step event).2.client.state = .degraded := by
  unfold Client.state at degraded ⊢
  have hears := r.step_hears event
  generalize (r.step event).2.client.lifecycle = l' at hears
  cases hears with
  | nothing => exact degraded
  | news news brings =>
    rcases connects news brings with rfl | rfl
    · simp [Lifecycle.hear, Lifecycle.beginConnect, degraded]
    · simp [Lifecycle.hear, Lifecycle.onConnected, degraded]

/-- **A session goes through its states in order.**  Whatever a lifecycle hears, in any order,
its fields agree with each other, and it publishes a state exactly when it changes to it; and
it keeps to the order of the states as long as an attempt ends only after one was to connect.

In a run that is always so, however many dispatches there are and whatever happens to them,
to the link and to the session.  A connection alone does not end an outage. -/
theorem states_in_order {config : Config} {horizon : Instant} {r₀ : Run} (started : start config horizon = .ok r₀) :
    (∀ limit, 0 < limit → ∀ reports x,
      Lifecycle.Consistent limit (Lifecycle.after limit {} reports) ∧
      (Lifecycle.after limit {} reports).Publishes (Lifecycle.after limit {} (reports ++ [x])) ∧
      ((x.news.Ends → ∃ y ∈ reports, y.news = .connecting) →
        (Lifecycle.after limit {} reports).Follows (Lifecycle.after limit {} (reports ++ [x]))) ∧
      (x.news = .connected → (Lifecycle.after limit {} reports).state = .degraded →
        (Lifecycle.after limit {} (reports ++ [x])).state = .degraded)) ∧
    (∀ events, Lifecycle.Consistent config.failureLimit (r₀.after events).2.client.lifecycle) ∧
    ∀ events event,
      (r₀.after events).2.client.lifecycle.Publishes (r₀.after (events ++ [event])).2.client.lifecycle ∧
      (r₀.after events).2.client.lifecycle.Follows (r₀.after (events ++ [event])).2.client.lifecycle ∧
      ((r₀.after events).2.client.state = .degraded →
        (∃ b, event = .connected b (.ok ())) ∨ (∃ b healthy, event = .due b healthy) →
        (r₀.after (events ++ [event])).2.client.state = .degraded) := by
  obtain ⟨valid, rfl⟩ := (start_eq_ok_iff config horizon r₀).1 started
  refine ⟨?_, consistent_after valid, ?_⟩
  · intro limit positive reports x
    rw [Lifecycle.after_snoc]
    refine ⟨Lifecycle.consistent_after positive reports, Lifecycle.publishes_hear limit _ x, ?_, ?_⟩
    · intro led
      refine Lifecycle.follows_of_hear limit fun ends => ?_
      obtain ⟨y, member, connects⟩ := led ends
      exact Lifecycle.busy_after limit member connects
    · intro connected degraded
      simp [Lifecycle.hear, Lifecycle.onConnected, connected, degraded]
  · intro events event
    have unbegun := (fresh_unbegun config horizon).after (fresh_sound config horizon) events
    rw [after_snoc]
    refine ⟨publishes_step _ event, unbegun.follows_step event, fun degraded connects => ?_⟩
    apply degraded_step _ degraded
    intro news brings
    rcases connects with ⟨b, rfl⟩ | ⟨b, healthy, rfl⟩
    · cases brings with
      | connects => exact .inr rfl
      | fails _ ends => exact ends.elim
    · cases brings with
      | begins => exact .inl rfl
      | fails _ ends => exact ends.elim

/-- A batch that cannot connect degrades its session and connects again. -/
def reconnecting : List Event :=
  [.submit mayAliceView, .due ⟨1⟩ true, .connected ⟨1⟩ (.error (.transport "no route")),
    .elapse (.ofSeconds 1), .due ⟨1⟩ true]

/-- The connection is made this time, and the session stays degraded. -/
theorem reconnected_degraded :
    start { maxBatchSize := 1 } .horizon = .ok (fresh { maxBatchSize := 1 } .horizon) ∧
      ((fresh { maxBatchSize := 1 } .horizon).after reconnecting).2.client.state = .degraded ∧
      ((fresh { maxBatchSize := 1 } .horizon).after (reconnecting ++ [.connected ⟨1⟩ (.ok ())])).2.client.state =
        .degraded := by
  have started : start { maxBatchSize := 1 } .horizon = .ok (fresh { maxBatchSize := 1 } .horizon) := by rfl
  have degraded : ((fresh { maxBatchSize := 1 } .horizon).after reconnecting).2.client.state = .degraded := by
    decide +kernel
  have stays := ((states_in_order started).2.2 reconnecting (.connected ⟨1⟩ (.ok ()))).2.2 degraded
    (.inl ⟨⟨1⟩, rfl⟩)
  exact ⟨started, degraded, stays⟩

end Run

end PolicyClient
