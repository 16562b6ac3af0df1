/-
# PolicyClient.Proofs.Run.Closing -- closing is complete and final

A session is closed by its caller, by a fatal failure that an attempt meets, or by the
limit of failures (`Event.Closes`), and by nothing else (`Run.step_leaves`).  The event that
closes it fails every check that still waits, with the error it closes for.  From then on
nothing waits, nothing reopens the session and every request is refused for the same reason
(`Run.closing_final`).
-/
import PolicyClient.Proofs.Client.Closing
import PolicyClient.Proofs.Run.Outcomes

namespace PolicyClient

set_option autoImplicit false

open Client (Shuts AtLimit ClosedFor)

/-- Whether an attempt may come to its end without a fatal failure: it cannot connect, the
replies end, or the deadline passes. -/
def Event.EndsAttempt : Event → Prop
  | .connected _ (.error e) => e.isFatal = false
  | .streamEnd _ | .deadline _ => True
  | _ => False

/-- The ways in which an event closes a session: the error that the checks which wait fail
with, and the reason that is given from then on. -/
inductive Event.Closes : Event → Error → String → Prop
  | caller : Closes .close (.sessionClosed "closed by caller") "closed by caller"
  | fatalReply (b : BatchId) (tokens : List Token) (e : Error) (fatal : e.isFatal = true) :
    Closes (.reply b (.failed tokens e)) e e.message
  | fatalConnect (b : BatchId) (e : Error) (fatal : e.isFatal = true) :
    Closes (.connected b (.error e)) e e.message
  | limit (event : Event) (ends : event.EndsAttempt) (failures : Nat) (last : String) :
    Closes event (.sessionClosed (Lifecycle.limitReason failures last)) (Lifecycle.limitReason failures last)

namespace Run

/-! ## One event -/

/-- The error that a check gets when the event closes the session for `e`: it is `e`, but a
check that the end of a stream leaves without an answer has failed for that before. -/
def partingError (r : Run) (event : Event) (e : Error) (t : Token) : Error :=
  match event with
  | .streamEnd b => if r.client.awaits b t = true then .protocolViolation (.unanswered t) else e
  | _ => e

/-- The event closes the session: every check that waits gets its error in the same step. -/
structure ShutBy (r : Run) (event : Event) (e : Error) (reason : String) : Prop where
  closes : event.Closes e reason
  running : r.client.lifecycle.state ≠ .closed
  state : (r.step event).2.client.lifecycle.state = .closed
  given : (r.step event).2.client.lifecycle.closedReason = some reason
  settles : r.client.correlator.Settles (fun t _ => some (.delivered (.error (r.partingError event e t))))
    (r.step event).2.client.correlator
  calls : (r.step event).2.calls = r.calls

/-- Every check fails with `e` once those have failed that the stream leaves without an
answer. -/
theorem streamEnded_settles {c : Client} (h : c.Sound) (b : BatchId) :
    c.correlator.Settles (fun t _ => if c.awaits b t = true then
      some (.delivered (.error (.protocolViolation (.unanswered t)))) else none) (c.streamEnded b) := by
  unfold Client.streamEnded Client.awaits
  cases c.dispatch? b with
  | none => exact .of_none h.coherent fun t w _ => if_neg nofun
  | some d =>
    cases phase : d.phase with
    | reading deadline a =>
      simp only [phase, decide_eq_true_eq]
      exact Exchange.endOfStream_settles (x := ⟨a, c.correlator, c.stats⟩) h.coherent
    | _ =>
      simp only [phase]
      exact .of_none h.coherent fun t w _ => if_neg nofun

/-- All that wait fail with the error that the session is closed for. -/
theorem shutBy_of_shuts {r : Run} (h : r.client.Sound) {event : Event} {e : Error} {reason : String}
    (closes : event.Closes e reason) (whole : ∀ t, r.partingError event e t = e)
    (calls : (r.step event).2.calls = r.calls)
    (shuts : Shuts r.client r.client.correlator e reason (r.step event).2.client) :
    r.ShutBy event e reason := by
  refine ⟨closes, shuts.running, shuts.state, shuts.reason, ?_, calls⟩
  rw [shuts.correlator]
  refine (Correlator.failAll_settles h.coherent e).congr fun t w _ => ?_
  rw [whole]

/-- **Every event** leaves the session as it is, or closes it in one of the known ways. -/
theorem step_leaves {r : Run} (h : r.client.Sound) (event : Event) :
    r.client.lifecycle.Quiet (r.step event).2.client.lifecycle ∨ ∃ e reason, r.ShutBy event e reason := by
  have handle := r.step_ofHandle event
  cases event with
  | submit request =>
    left
    simp only [step, (r.client.submit_fills request).lifecycle]
    exact .refl _
  | poll t | cancel t | drop t | expire t =>
    obtain ⟨k, same⟩ := handle trivial
    rw [same]
    exact .inl (.refl _)
  | flush =>
    left
    simp only [step, act, r.client.flush_fills.lifecycle]
    exact .refl _
  | abandon =>
    left
    simp only [step, update, r.client.abandon_fills.lifecycle]
    exact .refl _
  | link up => exact .inl (r.client.onLink_quiet up)
  | flushTimer b =>
    left
    simp only [step]
    split
    · simp only [act, (r.client.onFlushTimer_fills b).lifecycle]
      exact .refl _
    · exact .refl _
  | due b healthy => exact .inl (r.client.onDue_quiet b healthy)
  | startTimer b | draw share | elapse d | age d => exact .inl (.refl _)
  | close =>
    cases r.client.close_leaves with
    | quiet quiet => exact .inl quiet
    | shuts e reason way shuts =>
      obtain ⟨rfl, rfl⟩ := way
      exact .inr ⟨_, _, shutBy_of_shuts h .caller (fun _ => rfl) rfl shuts⟩
  | connected b result =>
    cases r.client.onConnect_leaves b result with
    | quiet quiet => exact .inl quiet
    | shuts e reason way shuts =>
      refine .inr ⟨e, reason, shutBy_of_shuts h ?_ (fun _ => rfl) rfl shuts⟩
      cases result with
      | ok done => exact way.elim
      | error last =>
        obtain ⟨d, way⟩ := way
        unfold Client.connectEnding at way
        split at way
        · obtain ⟨rfl, rfl⟩ := way
          exact .fatalConnect b e ‹_›
        · rename_i fatal
          obtain ⟨failures, rfl, rfl⟩ := way
          exact .limit (.connected b (.error last)) (Bool.eq_false_iff.2 fatal) failures _
  | reply b reply =>
    cases r.client.onReply_leaves b reply with
    | quiet quiet => exact .inl quiet
    | shuts e reason way shuts =>
      obtain ⟨fatal, ⟨tokens, rfl⟩, rfl⟩ := way
      exact .inr ⟨e, _, shutBy_of_shuts h (.fatalReply b tokens e fatal) (fun _ => rfl) rfl shuts⟩
  | deadline b =>
    cases r.client.onDeadline_leaves b with
    | quiet quiet => exact .inl quiet
    | shuts e reason way shuts =>
      obtain ⟨failures, last, rfl, rfl⟩ := way
      exact .inr ⟨_, _, shutBy_of_shuts h (.limit (.deadline b) trivial failures last) (fun _ => rfl) rfl shuts⟩
  | streamEnd b =>
    cases r.client.onStreamEnd_leaves b with
    | quiet quiet => exact .inl quiet
    | shuts e reason way shuts =>
      obtain ⟨failures, last, rfl, rfl⟩ := way
      refine .inr ⟨_, _, .limit (.streamEnd b) trivial failures last,
        shuts.running, shuts.state, shuts.reason, ?_, rfl⟩
      have correlator : (r.step (.streamEnd b)).2.client.correlator = _ := shuts.correlator
      have first := streamEnded_settles h b
      have rest := Correlator.failAll_settles first.coherent
        (.sessionClosed (Lifecycle.limitReason failures last))
      rw [correlator]
      refine (first.trans h.coherent rest).congr fun t w _ => ?_
      by_cases awaits : r.client.awaits b t = true <;> simp [partingError, awaits]

/-! ## Every run -/

/-- A closed session stays closed, for the same reason. -/
theorem closed_after {r : Run} (h : r.client.Sound) {reason : String}
    (closed : r.client.lifecycle.state = .closed) (given : r.client.lifecycle.closedReason = some reason)
    (events : List Event) : (r.after events).2.client.ClosedFor reason := by
  have kept := after_keeps (P := fun r => r.client.Sound ∧ r.client.lifecycle.state = .closed ∧
    r.client.lifecycle.closedReason = some reason) (r := r) ?_ ⟨h, closed, given⟩ events
  · exact kept.1.closedFor kept.2.1 kept.2.2
  · intro r event ⟨h, closed, given⟩
    refine ⟨(step_sound h event).1, ?_⟩
    rcases step_leaves h event with quiet | ⟨e, reason', shut⟩
    · rw [quiet.stays closed]
      exact ⟨closed, given⟩
    · exact absurd closed shut.running

/-- A session that is not closed has no reason to be. -/
theorem closedReason_of_running {config : Config} {horizon : Instant} {events : List Event}
    (running : ((fresh config horizon).after events).2.client.lifecycle.state ≠ .closed) :
    ((fresh config horizon).after events).2.client.lifecycle.closedReason = none := by
  induction events using List.reverseRecOn with
  | nil => rfl
  | append_singleton events event ih =>
    have sound := ((fresh_sound_run config horizon).after events).client
    rw [after_snoc] at running ⊢
    rcases step_leaves sound event with quiet | ⟨e, reason, shut⟩
    · rw [quiet.reason]
      refine ih fun closed => running ?_
      rw [quiet.stays closed]
      exact closed
    · exact absurd shut.state running

/-- A session that is closed was closed by one event. -/
theorem closing_event {config : Config} {horizon : Instant} {events : List Event}
    (closed : ((fresh config horizon).after events).2.client.state = .closed) :
    ∃ before event since e reason, events = before ++ event :: since ∧
      ((fresh config horizon).after before).2.ShutBy event e reason := by
  induction events using List.reverseRecOn with
  | nil => cases closed
  | append_singleton events event ih =>
    by_cases earlier : ((fresh config horizon).after events).2.client.state = .closed
    · obtain ⟨before, first, since, e, reason, rfl, shut⟩ := ih earlier
      exact ⟨before, first, since ++ [event], e, reason, by simp, shut⟩
    · refine ⟨events, event, [], ?_⟩
      have sound := ((fresh_sound_run config horizon).after events).client
      rw [after_snoc] at closed
      rcases step_leaves sound event with quiet | ⟨e, reason, shut⟩
      · exact absurd (quiet.closed closed) earlier
      · exact ⟨e, reason, rfl, shut⟩

/-- A check that waits when the session is closed has its error from then on. -/
theorem ShutBy.delivers {r : Run} {event : Event} {e : Error} {reason : String}
    (shut : r.ShutBy event e reason) (sound : r.Sound) (attended : r.Attended) {t : Token} {w : Waiter}
    (found : r.client.correlator.waiters.get? t = some w) :
    (r.step event).2.Delivers t (.error (r.partingError event e t)) := by
  have sound' := sound.step event
  have gone := (sound'.client.closed shut.state).2 t
  apply Pledged.delivers _ sound'
  · rw [shut.calls, attended t w found]
    nofun
  · refine attended.pledged_of_left sound found gone (by rw [shut.calls]) ?_
    rw [shut.settles.posted t w _ found rfl]
    rfl

/-- **Closing is complete and final.**  A closed session was closed by one event: by its
caller, by a fatal failure or by the limit of failures.  Every check that waited then, and
had been told nothing before, is told exactly the error that the session was closed for; but
one that the end of a stream left without an answer is told that.  And whatever happens
afterwards, the session stays closed for the same reason, no check waits, and every request
is refused for it. -/
theorem closing_final {config : Config} {horizon : Instant} {r₀ : Run} (started : start config horizon = .ok r₀) {events : List Event}
    (closed : (r₀.after events).2.client.state = .closed) :
    ∃ before event since e reason, events = before ++ event :: since ∧
      (r₀.after before).2.client.state ≠ .closed ∧ event.Closes e reason ∧
      (∀ t, (r₀.after before).2.client.correlator.isLive t = true →
        told t (r₀.after before).1 = [] ∧
        (r₀.after (before ++ [event])).2.Delivers t
          (.error ((r₀.after before).2.partingError event e t))) ∧
      ∀ later, (r₀.after (before ++ event :: later)).2.client.ClosedFor reason := by
  obtain ⟨-, rfl⟩ := (start_eq_ok_iff config horizon r₀).1 started
  have sound₀ := fresh_sound_run config horizon
  obtain ⟨before, event, since, e, reason, split, shut⟩ := closing_event closed
  have sound := sound₀.after before
  refine ⟨before, event, since, e, reason, split, shut.running, shut.closes, ?_, ?_⟩
  · intro t live
    obtain ⟨w, found⟩ := (Correlator.isLive_iff _ t).1 live
    have attended := (fresh_attended config horizon).after sound₀ before
    refine ⟨told_of_waiting found, ?_⟩
    rw [after_append, after_cons, after_nil]
    exact shut.delivers sound attended found
  · intro later
    rw [after_append, after_cons]
    exact closed_after (sound.step event).client shut.state shut.given later

/-- Two checks are in flight in two batches, one of them about to connect, and the attempt
of the other reads that the client is not welcome. -/
def unwelcome : List Event :=
  [.submit mayAliceView, .submit mayAliceView, .due ⟨1⟩ true, .connected ⟨1⟩ (.ok ()),
    .due ⟨2⟩ false, .reply ⟨1⟩ (.failed [⟨1⟩] (.status .unauthenticated "who?"))]

/-- That closes the session for both, and neither the connection nor the link opens it again. -/
theorem unwelcome_closes :
    start { maxBatchSize := 1 } .horizon = .ok (fresh { maxBatchSize := 1 } .horizon) ∧
      ((fresh { maxBatchSize := 1 } .horizon).after unwelcome).2.client.state = .closed ∧
      (∃ before event since e reason, unwelcome = before ++ event :: since ∧ event.Closes e reason) ∧
      ∃ reason, ((fresh { maxBatchSize := 1 } .horizon).after
        (unwelcome ++ [.connected ⟨2⟩ (.ok ()), .link true, .close])).2.client.ClosedFor reason := by
  have started : start { maxBatchSize := 1 } .horizon = .ok (fresh { maxBatchSize := 1 } .horizon) := by rfl
  have closed : ((fresh { maxBatchSize := 1 } .horizon).after unwelcome).2.client.state = .closed := by decide +kernel
  obtain ⟨before, event, since, e, reason, split, -, closes, -, final⟩ := closing_final started closed
  refine ⟨started, closed, ⟨before, event, since, e, reason, split, closes⟩, reason, ?_⟩
  rw [split, List.append_assoc, List.cons_append]
  exact final _

end Run

end PolicyClient
