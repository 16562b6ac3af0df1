/-
# PolicyClient.Proofs.Run.Transience -- what is tried again, and over which errors

An attempt fails for the moment in three ways (`Client.FailsAttempt`), and each has an error.
If the replies have ended or the deadline has passed, that error is retryable.  If no connection
could be made it need not be: there every error that is not fatal will do (`Event.Passing`).

So every attempt that another one follows has failed with a passing error (`Run.fell_of_failed`),
and nothing but such a failure and the loss of the link is to the harm of the session
(`Run.step_spares`).  Of replies that name an error the session hears nothing unless the error is
fatal, and what fails by one that is not retryable is never sent again.

`Run.passing_errors_retried` puts this together for every run.  A connection that is refused for
good is retried all the same: `Run.refused_connection_retried`.
-/
import PolicyClient.Proofs.Run.Containment
import PolicyClient.Proofs.Run.Resending
import PolicyClient.Proofs.Run.Transitions

namespace PolicyClient

set_option autoImplicit false

open Lifecycle (News Report)

/-- Whether an attempt that the event makes fail with `e` is worth another one. -/
inductive Event.Passing (e : Error) : Event → Prop
  | retryable (event : Event) (again : e.isRetryable = true) : Passing e event
  /-- No connection could be made. -/
  | unconnected (b : BatchId) (lasting : e.isFatal = false) : Passing e (.connected b (.error e))

/-- The attempts of a dispatch that are over. -/
def Dispatch.failed (d : Dispatch) : Nat :=
  match d.phase with
  | .queued | .backingOff _ => d.attempts
  | .connecting | .reading _ _ => d.attempts - 1

theorem Dispatch.failed_of_due {d : Dispatch} {now : Instant} (due : d.IsDue now) :
    d.failed = d.attempts := by
  unfold failed
  rcases due with phase | ⟨wake, phase, -⟩
  · rw [phase]
  · rw [phase]

/-! ## What harms a session -/

namespace Lifecycle

/-- No failure is counted or recorded on the way from `l` to `l'`, and a session that is degraded
then was so before. -/
structure Spares (l l' : Lifecycle) : Prop where
  failures : l'.failures ≤ l.failures
  lastFailure : l'.lastFailure = none ∨ l'.lastFailure = l.lastFailure
  state : l'.state = .degraded → l.state = .degraded

theorem Spares.refl (l : Lifecycle) : l.Spares l := ⟨Nat.le_refl _, .inr rfl, id⟩

theorem spares_moveTo {l l' : Lifecycle} (failures : l'.failures ≤ l.failures)
    (lastFailure : l'.lastFailure = none ∨ l'.lastFailure = l.lastFailure) {next : SessionState}
    (other : next ≠ .degraded) : l.Spares (l'.moveTo next) where
  failures := by
    rw [moveTo_failures]
    exact failures
  lastFailure := by
    rw [moveTo_lastFailure]
    exact lastFailure
  state degraded := by
    rw [moveTo_state] at degraded
    exact absurd degraded other

/-- A session is harmed by a failure and by the loss of its link, and by no other news. -/
theorem spares_hear (limit : Nat) (l : Lifecycle) {x : Report} (link : x.news ≠ .link false)
    (failure : ∀ started error, x.news ≠ .failure started error) : l.Spares (l.hear limit x) := by
  have same {next : SessionState} (other : next ≠ .degraded) : l.Spares (l.moveTo next) :=
    spares_moveTo (Nat.le_refl _) (.inr rfl) other
  obtain ⟨time, news⟩ := x
  cases news with
  | connecting =>
    simp only [hear, beginConnect]
    split
    · exact same (by decide)
    · exact .refl l
    · exact .refl l
    · exact .refl l
    · exact .refl l
  | connected =>
    simp only [hear, onConnected]
    split
    · exact same (by decide)
    · exact .refl l
  | link up =>
    cases up with
    | false => exact absurd rfl link
    | true =>
      simp only [hear, onLinkUp, if_true]
      split
      · exact same (by decide)
      · exact same (by decide)
      · exact .refl l
  | success =>
    simp only [hear, onSuccess]
    split
    · exact .refl l
    · exact spares_moveTo (Nat.zero_le _) (.inl rfl) (by decide)
  | failure started error => exact absurd rfl (failure started error)
  | closing reason =>
    by_cases closed : l.state = .closed
    · simp only [hear, close_of_closed closed]
      exact .refl l
    · simp only [hear, close_of_open closed]
      refine spares_moveTo ?_ ?_ ?_
      · exact Nat.le_refl _
      · exact .inr rfl
      · decide

end Lifecycle

namespace Client

/-- The end of an attempt spares the session unless the attempt fails for the moment. -/
theorem onEnding_spares (c : Client) (d : Dispatch) (ending : AttemptEnding) :
    c.lifecycle.Spares (c.onEnding d ending).lifecycle ∨ ∃ rest e, ending = .retry rest e := by
  rw [onEnding_lifecycle]
  cases ending with
  | settled => exact .inl (Lifecycle.spares_hear _ _ nofun nofun)
  | fatal e => exact .inl (Lifecycle.spares_hear _ _ nofun nofun)
  | retry rest e => exact .inr ⟨rest, e, rfl⟩

end Client

namespace Run

open Client (onConnect onStreamEnd onDeadline onEnding_spares failsAttempt_of_deadline)

/-- What ends an attempt spares the session unless the attempt fails for the moment. -/
theorem spares_of_endsAttempt {r : Run} (sound : r.client.Sound) {event : Event} (ends : event.EndsAttempt) :
    r.client.lifecycle.Spares (r.step event).2.client.lifecycle ∨
      ∃ d ∈ r.client.dispatches, ∃ rest e, r.client.FailsAttempt d event rest e := by
  have same := Lifecycle.Spares.refl r.client.lifecycle
  cases event with
  | connected b result =>
    cases result with
    | ok done => exact ends.elim
    | error e =>
      simp only [step, act, onConnect]
      split
      · rename_i d under
        obtain ⟨member, rfl⟩ := Client.Sound.mem_of_dispatch? under
        split
        · rename_i phase
          exact .inr ⟨d, member, d.items, e, .unconnected e ends phase⟩
        · exact .inl same
      · exact .inl same
  | streamEnd b =>
    simp only [step, update, onStreamEnd]
    split
    · rename_i d under
      obtain ⟨member, rfl⟩ := Client.Sound.mem_of_dispatch? under
      split
      · rename_i phase
        refine (onEnding_spares (r.client.settle _) d _).imp_right ?_
        rintro ⟨rest, e, ending⟩
        exact ⟨d, member, rest, e, sound.failsAttempt_of_streamEnd member phase ending⟩
      · exact .inl same
    · exact .inl same
  | deadline b =>
    simp only [step, update, onDeadline]
    split
    · rename_i d under
      obtain ⟨member, rfl⟩ := Client.Sound.mem_of_dispatch? under
      split
      · rename_i phase
        split
        · rename_i passed
          refine (onEnding_spares (r.client.settle _) d _).imp_right ?_
          rintro ⟨rest, e, ending⟩
          exact ⟨d, member, rest, e, failsAttempt_of_deadline phase passed ending⟩
        · exact .inl same
      · exact .inl same
    · exact .inl same
  | _ => exact ends.elim

/-- **Every event** spares the session, reports its link down, or makes an attempt fail for the moment. -/
theorem step_spares {r : Run} (sound : r.client.Sound) (event : Event) :
    r.client.lifecycle.Spares (r.step event).2.client.lifecycle ∨ event = .link false ∨
      ∃ d ∈ r.client.dispatches, ∃ rest e, r.client.FailsAttempt d event rest e := by
  by_cases ends : event.EndsAttempt
  · exact (spares_of_endsAttempt sound ends).imp_right .inr
  · have hears := r.step_hears event
    generalize (r.step event).2.client.lifecycle = l' at hears
    cases hears with
    | nothing => exact .inl (.refl _)
    | news news brings =>
      cases brings with
      | begins | connects | streamEnd | deadline | fatalReply | fatalConnect | caller =>
        exact .inl (Lifecycle.spares_hear _ _ nofun nofun)
      | link up =>
        cases up with
        | true => exact .inl (Lifecycle.spares_hear _ _ nofun nofun)
        | false => exact .inr (.inl rfl)
      | fails event ends' => exact absurd ends' ends

/-- The session hears nothing of a reply, unless it names a fatal error. -/
theorem lifecycle_of_reply (r : Run) (b : BatchId) {reply : Reply}
    (lasting : ∀ tokens e, reply = .failed tokens e → e.isFatal = false) :
    (r.step (.reply b reply)).2.client.lifecycle = r.client.lifecycle := by
  have hears := r.step_hears (.reply b reply)
  generalize (r.step (.reply b reply)).2.client.lifecycle = l' at hears ⊢
  cases hears with
  | nothing => rfl
  | news news brings =>
    cases brings with
    | fails event ends => exact ends.elim
    | fatalReply b tokens e fatal =>
      rw [lasting tokens e rfl] at fatal
      cases fatal

/-! ## Attempts that are over -/

variable {config : Config} {horizon : Instant}

/-- **A failure for the moment** has a passing error. -/
theorem passing_of_fails {before : List Event} {d : Dispatch}
    (member : d ∈ ((fresh config horizon).after before).2.client.dispatches) {event : Event} {rest : List Item}
    {e : Error} (fails : ((fresh config horizon).after before).2.client.FailsAttempt d event rest e) :
    event.Passing e := by
  cases fails with
  | unconnected e lasting phase => exact .unconnected d.id lasting
  | streamEnd deadline a phase left e last =>
    obtain ⟨-, -, -, -, again, -⟩ := lastError_heard (fresh_sound_run config horizon) rfl member phase last
    exact .retryable _ again
  | overdue => exact .retryable _ rfl

/-- Over a history the attempt number `n` of `b` has failed for the moment, with `e`. -/
def Fell (r₀ : Run) (events : List Event) (b : BatchId) (n : Nat) (e : Error) : Prop :=
  ∃ before event since d rest, events = before ++ event :: since ∧
    d ∈ (r₀.after before).2.client.dispatches ∧ d.id = b ∧ d.attempts = n ∧
    (r₀.after before).2.client.FailsAttempt d event rest e ∧ event.Passing e

theorem Fell.append {r₀ : Run} {events : List Event} {b : BatchId} {n : Nat} {e : Error}
    (h : r₀.Fell events b n e) (later : List Event) : r₀.Fell (events ++ later) b n e := by
  obtain ⟨before, event, since, d, rest, rfl, fell⟩ := h
  exact ⟨before, event, since ++ later, d, rest, by simp, fell⟩

/-- **Every attempt that is over** while its dispatch goes on has failed for the moment. -/
theorem fell_of_failed {events : List Event} {d : Dispatch}
    (member : d ∈ ((fresh config horizon).after events).2.client.dispatches) {n : Nat} (begun : 0 < n)
    (past : n ≤ d.failed) : ∃ e, (fresh config horizon).Fell events d.id n e := by
  induction events using List.reverseRecOn generalizing d with
  | nil => cases member
  | append_singleton events event ih =>
    have sound := sound_after (fresh_sound config horizon) events
    rw [after_snoc] at member
    have earlier {d₀ : Dispatch} (before : d₀ ∈ ((fresh config horizon).after events).2.client.dispatches)
        (id : d.id = d₀.id) (past : n ≤ d₀.failed) : ∃ e, (fresh config horizon).Fell (events ++ [event]) d.id n e := by
      obtain ⟨e, fell⟩ := ih before past
      rw [id]
      exact ⟨e, fell.append [event]⟩
    cases mem_step_dispatches sound member with
    | stays before => exact earlier before rfl past
    | new new =>
      simp only [Dispatch.failed, new.1, new.2] at past
      exact absurd begun (Nat.not_lt.2 past)
    | moves d₀ before moves =>
      cases moves with
      | connects d₀ due healthy =>
        refine earlier before rfl ?_
        rw [Dispatch.failed_of_due due]
        exact past
      | begins d₀ due =>
        refine earlier before rfl ?_
        rw [Dispatch.failed_of_due due]
        exact past
      | sends d₀ phase =>
        refine earlier before rfl ?_
        rw [Dispatch.failed, phase]
        exact past
      | reads d₀ deadline a phase =>
        refine earlier before rfl ?_
        rw [Dispatch.failed, phase]
        exact past
      | backsOff d₀ event rest e fails =>
        -- The attempt that has just failed is the last one that is over.
        by_cases last : n = d₀.attempts
        · exact ⟨e, events, event, [], d₀, rest, rfl, before, rfl, last.symm, fails, passing_of_fails before fails⟩
        · refine earlier before rfl ?_
          have most : n ≤ d₀.attempts := past
          cases fails with
          | unconnected e lasting phase =>
            rw [Dispatch.failed, phase]
            exact Nat.le_sub_one_of_lt (Nat.lt_of_le_of_ne most last)
          | streamEnd deadline a phase | overdue deadline a phase =>
            rw [Dispatch.failed, phase]
            exact Nat.le_sub_one_of_lt (Nat.lt_of_le_of_ne most last)

/-! ## Every run -/

/-- **What is tried again has failed for the moment.**  In every run an attempt that is over while
its dispatch goes on has failed for the moment, and so has the last attempt of what is told to be
unavailable, unless the transport itself has said so.  Each such failure has an error that is
retryable, or there was no connection and the error is not fatal.  Nothing else but the loss of its
link harms the session: no failure is counted or recorded, and it is not degraded.

Of a reply that names an error which is neither retryable nor fatal the session hears nothing, and
what the reply makes fail is not sent any more. -/
theorem passing_errors_retried {r₀ : Run} (started : start config horizon = .ok r₀) (events : List Event) :
    (∀ d ∈ (r₀.after events).2.client.dispatches, ∀ n, 0 < n → n ≤ d.failed →
      ∃ e, r₀.Fell events d.id n e) ∧
    (∀ t n last rest, told t (r₀.after events).1 = .error (.unavailable n last) :: rest →
      (∃ b, r₀.Fell events b n last) ∨
        ∃ before b tokens since, events = before ++ .reply b (.failed tokens (.unavailable n last)) :: since ∧
          t ∈ tokens ∧ (r₀.after before).2.client.awaits b t = true) ∧
    (∀ before event since, events = before ++ event :: since →
      (r₀.after before).2.client.lifecycle.Spares (r₀.after (before ++ [event])).2.client.lifecycle ∨
      event = .link false ∨
      ∃ d ∈ (r₀.after before).2.client.dispatches, ∃ rest e,
        (r₀.after before).2.client.FailsAttempt d event rest e ∧ event.Passing e) ∧
    ∀ before b tokens e since, events = before ++ .reply b (.failed tokens e) :: since →
      e.isRetryable = false → e.isFatal = false →
      (r₀.after (before ++ [.reply b (.failed tokens e)])).2.client.lifecycle =
          (r₀.after before).2.client.lifecycle ∧
        ∀ t ∈ tokens, (r₀.after before).2.client.awaits b t = true →
          ∀ b', ∀ batch ∈ handed b' ((r₀.after (before ++ [.reply b (.failed tokens e)])).2.after since).1,
            t ∉ batch.tokens := by
  obtain ⟨-, rfl⟩ := (start_eq_ok_iff config horizon r₀).1 started
  have sound₀ := fresh_sound_run config horizon
  refine ⟨fun d member n begun past => fell_of_failed member begun past, ?_, ?_, ?_⟩
  · intro t n last rest failed
    obtain ⟨before, event, since, rfl, ⟨-, reason, -, same⟩ | ⟨w, found, cause⟩⟩ := cause_of_failed failed
    · cases same
    · cases cause with
      | shut event e reason shut =>
        have closes := shut.closes
        cases closes with
        | fatalReply b tokens e fatal => cases fatal
        | fatalConnect b e fatal => cases fatal
      | rejected tokens e named limited final awaits =>
        exact .inr ⟨before, w.batch, tokens, since, rfl, named, awaits⟩
      | exhausted event d rest last under final fails heard =>
        obtain ⟨member, -⟩ := Client.Sound.mem_of_dispatch? under
        exact .inl ⟨d.id, before, event, since, d, rest, rfl, member, rfl, final, fails,
          passing_of_fails member fails⟩
  · rintro before event since rfl
    rw [after_snoc]
    refine (step_spares (sound₀.after before).client event).imp_right (.imp_right ?_)
    rintro ⟨d, member, rest, e, fails⟩
    exact ⟨d, member, rest, e, fails, passing_of_fails member fails⟩
  · rintro before b tokens e since rfl final limited
    rw [after_snoc]
    refine ⟨lifecycle_of_reply _ b fun tokens' e' named => ?_, fun t names awaits b' batch member => ?_⟩
    · cases named
      exact limited
    · exact (Concludes.failed tokens e names final awaits).not_sent (sound₀.after before) member

/-- The only attempt that a check is allowed fails: the remote service is busy. -/
def busyOnce : List Event :=
  [.submit mayAliceView, .due ⟨1⟩ true, .connected ⟨1⟩ (.ok ()),
    .reply ⟨1⟩ (.failed [⟨1⟩] (.status .unavailable "busy")), .streamEnd ⟨1⟩, .poll ⟨1⟩]

/-- The caller is told so, and the attempt has failed with that. -/
theorem busy_once_unavailable :
    start { maxBatchSize := 1, retryBudget := 0 } .horizon = .ok (fresh { maxBatchSize := 1, retryBudget := 0 } .horizon) ∧
      told ⟨1⟩ ((fresh { maxBatchSize := 1, retryBudget := 0 } .horizon).after busyOnce).1 =
        [.error (.unavailable 1 (.status .unavailable "busy"))] ∧
      ∃ b, (fresh { maxBatchSize := 1, retryBudget := 0 } .horizon).Fell busyOnce b 1 (.status .unavailable "busy") := by
  have started : start { maxBatchSize := 1, retryBudget := 0 } .horizon =
      .ok (fresh { maxBatchSize := 1, retryBudget := 0 } .horizon) := by rfl
  have failed : told ⟨1⟩ ((fresh { maxBatchSize := 1, retryBudget := 0 } .horizon).after busyOnce).1 =
      [.error (.unavailable 1 (.status .unavailable "busy"))] := by rfl
  refine ⟨started, failed, ?_⟩
  rcases (passing_errors_retried started busyOnce).2.1 _ _ _ _ failed with fell | relayed
  · exact fell
  · obtain ⟨before, b, tokens, since, split, -⟩ := relayed
    have member : .reply b (.failed tokens (.unavailable 1 (.status .unavailable "busy"))) ∈ busyOnce := by
      rw [split]
      exact List.mem_append_right _ (List.mem_cons_self ..)
    simp [busyOnce] at member

/-- No connection can be made for a check, because the remote service rejects it. -/
def refusedConnection : List Event :=
  [.submit mayAliceView, .due ⟨1⟩ true, .connected ⟨1⟩ (.error (.status .invalidArgument "bad"))]

/-- The attempt is to be made again, although the only error of the run is not retryable. -/
theorem refused_connection_retried :
    ¬ ∀ config r₀ events d wake, start config .horizon = .ok r₀ → d ∈ (r₀.after events).2.client.dispatches →
      d.phase = .backingOff wake → ∃ e, r₀.Fell events d.id d.attempts e ∧ e.isRetryable = true := by
  intro retryable
  have started : start { maxBatchSize := 1 } .horizon = .ok (fresh { maxBatchSize := 1 } .horizon) := by rfl
  have waits : (((fresh { maxBatchSize := 1 } .horizon).after refusedConnection).2.client.dispatches.any fun d =>
      match d.phase with
      | .backingOff _ => true
      | _ => false) = true := by decide +kernel
  obtain ⟨d, member, backs⟩ := List.any_eq_true.1 waits
  cases phase : d.phase with
  | backingOff wake =>
    obtain ⟨e, ⟨before, event, since, d₀, rest, split, -, -, -, fails, -⟩, again⟩ :=
      retryable _ _ refusedConnection d wake started member phase
    have happens : event ∈ refusedConnection := by
      rw [split]
      exact List.mem_append_right _ (List.mem_cons_self ..)
    cases fails with
    | unconnected e =>
      obtain ⟨-, rfl⟩ : d₀.id = ⟨1⟩ ∧ e = .status .invalidArgument "bad" := by
        simpa [refusedConnection] using happens
      cases again
    | streamEnd | overdue => simp [refusedConnection] at happens
  | _ =>
    rw [phase] at backs
    cases backs

end Run

end PolicyClient
