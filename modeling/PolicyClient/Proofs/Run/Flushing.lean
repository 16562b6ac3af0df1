/-
# PolicyClient.Proofs.Run.Flushing -- no request waits longer than the flush interval

A batch is open from the submission of its first request (`Run.OpenedAt`) until it leaves.  All
the while exactly one flush timer stands for it.  The timer sleeps from when its task first runs
(`Run.RunsAt`), for the flush interval and no longer: neither the requests that join the batch nor
the timers of other batches change that.  When the sleep is over and the timer goes off, the whole
batch leaves; when one goes off for a batch that has left before, nothing happens, and the timer of
the open batch sleeps on (`Run.open_batch_timed`).

When a task first runs is not for the client to say.  A runtime starts a task at once, so that no
time passes before it has run (`Run.StartsAtOnce`); then the timer is due when the flush interval
has passed since the first request came.  And in a run in which time stops for a timer that is due
(`Run.Prompt`), no request is in the open batch longer than that.
-/
import PolicyClient.Proofs.Client.Filling
import PolicyClient.Proofs.Run.Clock

namespace PolicyClient

set_option autoImplicit false

open Client (Refills)

/-- The tokens under which requests may enter over an event. -/
def Event.Enters (r : Run) : Event → Token → Prop
  | .submit request, t => t = (r.client.submit request).1.token
  | _, _ => False

/-- Whether the task of the timer of the open batch runs for the first time, or once more. -/
def Event.Runs (r : Run) : Event → Prop
  | .startTimer b => r.client.openBatch.id = b
  | _ => False

namespace Run

/-- **Every event** keeps the timers in order; only a submission brings a request, and only its first
run changes a timer. -/
theorem step_refills {r : Run} (h : r.client.Timed) (sound : r.client.Sound) (event : Event) :
    (r.step event).2.client.Timed ∧ Refills r.client (event.Enters r) (event.Runs r) (r.step event).2.client := by
  have aside : ¬ event.Fills → (r.step event).2.client.Timed ∧
      Refills r.client (event.Enters r) (event.Runs r) (r.step event).2.client := fun other =>
    have through := r.step_seesThrough other
    have same := Prod.ext through.openBatch through.timers
    ⟨h.congr same, .of_filling same⟩
  cases event with
  | submit request => exact Client.submit_refills h sound.latest request
  | flush => exact Client.flush_refills h sound.latest
  | close => exact Client.close_refills h sound.latest
  | startTimer b => exact Client.startTimer_refills h b
  | flushTimer b =>
    simp only [step]
    split
    · exact Client.onFlushTimer_refills h sound.latest b
    · exact ⟨h, .stays rfl rfl⟩
  | _ => exact aside id

theorem timed_after (config : Config) (horizon : Instant) (events : List Event) :
    ((fresh config horizon).after events).2.client.Timed :=
  (after_keeps (P := fun r => r.client.Sound ∧ r.client.Timed)
    (fun _ event ⟨sound, h⟩ => ⟨(step_sound sound event).1, (step_refills h sound event).1⟩)
    ⟨fresh_sound config horizon, nofun, fun _ => rfl⟩ events).2

/-! ## Since when a batch is open -/

/-- The open batch has got its first request by a submission at this instant: it was `first`, alone
in that batch. -/
def OpenedAt (r₀ : Run) (events : List Event) (first : Item) (since : Instant) : Prop :=
  ∃ before request later, events = before ++ .submit request :: later ∧
    (r₀.after before).2.client.now = since ∧
    first.token = ((r₀.after before).2.client.submit request).1.token ∧
    (r₀.after (before ++ [.submit request])).2.client.openBatch.items = [first] ∧
    (r₀.after (before ++ [.submit request])).2.client.openBatch.id = (r₀.after events).2.client.openBatch.id

theorem OpenedAt.append {r₀ : Run} {events : List Event} {first : Item} {since : Instant}
    (h : r₀.OpenedAt events first since) {event : Event}
    (id : (r₀.after (events ++ [event])).2.client.openBatch.id = (r₀.after events).2.client.openBatch.id) :
    r₀.OpenedAt (events ++ [event]) first since := by
  obtain ⟨before, request, later, rfl, now, token, alone, same⟩ := h
  exact ⟨before, request, later ++ [event], by simp, now, token, alone, same.trans id.symm⟩

theorem OpenedAt.le {r₀ : Run} {events : List Event} {first : Item} {since : Instant}
    (h : r₀.OpenedAt events first since) : since ≤ (r₀.after events).2.client.now := by
  obtain ⟨before, request, later, rfl, rfl, -⟩ := h
  rw [after_append]
  exact now_le_after _ _

/-! ## Since when a timer sleeps -/

/-- The task of the flush timer of `b` has run for the first time at this instant: until then the timer
was still to run. -/
def RunsAt (r₀ : Run) (events : List Event) (b : BatchId) (began : Instant) : Prop :=
  ∃ before later, events = before ++ .startTimer b :: later ∧ (r₀.after before).2.client.now = began ∧
    ∀ t ∈ (r₀.after before).2.client.timers, t.batch = b → t.due = none

/-- A timer of a batch that is open since `since` is still to run; or it has run since then, and sleeps
for the flush interval from that time on. -/
def Sleeps (r₀ : Run) (events : List Event) (since : Instant) (t : FlushTimer) : Prop :=
  t.due = none ∨ ∃ began, since ≤ began ∧ r₀.RunsAt events t.batch began ∧
    t.due = some (began + r₀.client.config.flushInterval)

theorem Sleeps.append {r₀ : Run} {events : List Event} {since : Instant} {t : FlushTimer}
    (h : r₀.Sleeps events since t) (event : Event) : r₀.Sleeps (events ++ [event]) since t := by
  refine h.imp_right ?_
  rintro ⟨began, later, ⟨before, rest, rfl, first⟩, due⟩
  exact ⟨began, later, ⟨before, rest ++ [event], by simp, first⟩, due⟩

/-- A timer that runs for the first time sleeps from now on; one that runs once more sleeps as before. -/
theorem Sleeps.begins {r₀ : Run} {events : List Event} {since : Instant} {t : FlushTimer}
    (h : r₀.Sleeps events since t) (late : since ≤ (r₀.after events).2.client.now)
    (own : (r₀.after events).2.client.ownTimers = [t]) :
    r₀.Sleeps (events ++ [.startTimer t.batch]) since
      { t with due := some ((r₀.after events).2.client.dueTime t) } := by
  refine .inr ?_
  rcases h with still | ⟨began, later, ⟨before, rest, rfl, first⟩, due⟩
  · refine ⟨_, late, ⟨events, [], rfl, rfl, fun t' member batch => ?_⟩, ?_⟩
    · have mine := (Client.mem_timers_of_own (own ▸ List.mem_singleton_self t)).2
      have other : t' ∈ (r₀.after events).2.client.ownTimers :=
        List.mem_filter.2 ⟨member, decide_eq_true (batch.trans mine)⟩
      rw [own, List.mem_singleton] at other
      rw [other, still]
    · rw [Client.dueTime, still, config_after]
      rfl
  · refine ⟨began, later, ⟨before, rest ++ [.startTimer t.batch], by simp, first⟩, ?_⟩
    rw [Client.dueTime, due]
    rfl

/-! ## Running at once, and acting in time -/

/-- No time passes while the timer of the open batch is still to run.  This is what a runtime promises of
a task when it is spawned, that it starts running immediately; nothing in the client sees to it. -/
def StartsAtOnce (r : Run) (events : List Event) : Prop :=
  r.Throughout (fun r event => event.span = .zero ∨ ∀ t ∈ r.client.ownTimers, t.due ≠ none) events

/-- When time passes, it stops for the flush timer of the open batch. -/
def Prompt (r : Run) (events : List Event) : Prop :=
  r.Throughout (fun r event => event.span = .zero ∨
    ∀ t ∈ r.client.ownTimers, ∀ due ∈ t.due, r.client.now + event.span ≤ due) events

instance (r : Run) (events : List Event) : Decidable (r.StartsAtOnce events) :=
  inferInstanceAs (Decidable (r.Throughout _ events))

instance (r : Run) (events : List Event) : Decidable (r.Prompt events) :=
  inferInstanceAs (Decidable (r.Throughout _ events))

/-! ## The open batch and its timer -/

/-- The open batch has its first request since `since`, and `t` is its flush timer.  If tasks start at
once the timer is due when the flush interval has passed since then, whether it has run or is about
to. -/
structure Timing (r₀ : Run) (events : List Event) (first : Item) (since : Instant) (t : FlushTimer) : Prop where
  opened : r₀.OpenedAt events first since
  own : (r₀.after events).2.client.ownTimers = [t]
  sleeps : r₀.Sleeps events since t
  punctual : r₀.StartsAtOnce events →
    (r₀.after events).2.client.dueTime t = since + r₀.client.config.flushInterval

namespace Timing

variable {r₀ : Run} {events : List Event} {first : Item} {since : Instant} {t : FlushTimer} {event : Event}

/-- An event that leaves the open batch its timer as it is. -/
theorem stays (h : r₀.Timing events first since t)
    (id : (r₀.after (events ++ [event])).2.client.openBatch.id = (r₀.after events).2.client.openBatch.id)
    (timers : (r₀.after (events ++ [event])).2.client.ownTimers = (r₀.after events).2.client.ownTimers) :
    r₀.Timing (events ++ [event]) first since t where
  opened := h.opened.append id
  own := timers.trans h.own
  sleeps := h.sleeps.append event
  punctual atOnce := by
    obtain ⟨before, last⟩ := (throughout_snoc _ r₀ events event).1 atOnce
    have due := h.punctual before
    rw [Client.dueTime, after_snoc, step_config, step_now]
    cases begun : t.due with
    | some wake =>
      rw [Client.dueTime, begun] at due
      exact due
    | none =>
      -- The timer is still to run, so that the clock has stood still.
      have still : event.span = .zero := by
        refine last.resolve_right fun ran => ?_
        exact ran t (h.own ▸ List.mem_singleton_self t) begun
      rw [Client.dueTime, begun] at due
      rw [still]
      exact due

/-- The timer of the open batch runs. -/
theorem begins (h : r₀.Timing events first since t)
    (id : (r₀.after (events ++ [.startTimer t.batch])).2.client.openBatch.id =
      (r₀.after events).2.client.openBatch.id)
    (timers : (r₀.after (events ++ [.startTimer t.batch])).2.client.ownTimers =
      (r₀.after events).2.client.ownTimers.map fun t =>
        { t with due := some ((r₀.after events).2.client.dueTime t) }) :
    r₀.Timing (events ++ [.startTimer t.batch]) first since
      { t with due := some ((r₀.after events).2.client.dueTime t) } where
  opened := h.opened.append id
  own := by rw [timers, h.own, List.map_singleton]
  sleeps := h.sleeps.begins h.opened.le h.own
  punctual atOnce := h.punctual ((throughout_snoc _ r₀ events _).1 atOnce).1

end Timing

variable {config : Config} {horizon : Instant}

/-- **The open batch and its timer**, after every history. -/
theorem timing_after (config : Config) (horizon : Instant) (events : List Event) {first : Item} {rest : List Item}
    (filling : ((fresh config horizon).after events).2.client.openBatch.items = first :: rest) :
    ∃ since t, (fresh config horizon).Timing events first since t := by
  induction events using List.reverseRecOn generalizing first rest with
  | nil => cases filling
  | append_singleton events event ih =>
    have sound := sound_after (fresh_sound config horizon) events
    have reached := after_snoc (fresh config horizon) events event
    obtain ⟨-, refills⟩ := step_refills (timed_after config horizon events) sound event
    rw [← reached] at refills
    cases refills with
    | stays openBatch timers =>
      rw [openBatch] at filling
      obtain ⟨since, t, timing⟩ := ih filling
      exact ⟨since, t, timing.stays (congrArg OpenBatch.id openBatch) timers⟩
    | begins runs openBatch timers =>
      rw [openBatch] at filling
      obtain ⟨since, t, timing⟩ := ih filling
      have mine := (Client.mem_timers_of_own (timing.own ▸ List.mem_singleton_self t)).2
      cases event with
      | startTimer b =>
        cases mine.trans runs
        exact ⟨since, _, timing.begins (congrArg OpenBatch.id openBatch) timers⟩
      | _ => exact runs.elim
    | leaves items timers =>
      rw [items] at filling
      cases filling
    | joins item enters others id items timers =>
      obtain ⟨first', rest', before⟩ := List.exists_cons_of_ne_nil others
      rw [items, before, List.cons_append] at filling
      obtain ⟨rfl, -⟩ := List.cons.inj filling
      obtain ⟨since, t, timing⟩ := ih before
      exact ⟨since, t, timing.stays id timers⟩
    | opens item enters items timers =>
      rw [items] at filling
      obtain ⟨rfl, -⟩ := List.cons.inj filling
      cases event with
      | submit request =>
        refine ⟨_, _, ⟨events, request, [], rfl, rfl, enters, items, rfl⟩, timers, .inl rfl, fun _ => ?_⟩
        rw [reached, Client.dueTime, step_config, step_now, config_after]
        rfl
      | _ => exact enters.elim

/-- The timer of the open batch is not overdue. -/
def NotOverdue (r : Run) : Prop := ∀ t ∈ r.client.ownTimers, r.client.now ≤ r.client.dueTime t

/-- An event over which time stops for the timer of the open batch leaves it in time. -/
theorem step_notOverdue {r : Run} (h : r.client.Timed) (sound : r.client.Sound) {event : Event}
    (stops : event.span = .zero ∨ ∀ t ∈ r.client.ownTimers, ∀ due ∈ t.due, r.client.now + event.span ≤ due)
    (inTime : r.NotOverdue) : (r.step event).2.NotOverdue := by
  obtain ⟨-, refills⟩ := step_refills h sound event
  -- A timer that goes on sleeping is in time since time has stopped for it.
  have sleepsOn : (r.step event).2.client.ownTimers = r.client.ownTimers → (r.step event).2.NotOverdue := by
    intro same t own
    rw [same] at own
    rw [Client.dueTime]
    cases due : t.due with
    | none => exact Nat.le_add_right _ _
    | some wake =>
      rw [step_now]
      rcases stops with still | stops
      · have before := inTime t own
        rw [Client.dueTime, due] at before
        rw [still]
        exact before
      · exact stops t own wake due
  intro t own
  cases refills with
  | stays openBatch timers => exact sleepsOn timers t own
  | joins item enters others id items timers => exact sleepsOn timers t own
  | begins runs openBatch timers =>
    rw [timers] at own
    obtain ⟨t, ran, rfl⟩ := List.mem_map.1 own
    cases event with
    | startTimer b => exact inTime t ran
    | _ => exact runs.elim
  | leaves items timers =>
    rw [timers] at own
    cases own
  | opens item enters items timers =>
    rw [timers, List.mem_singleton] at own
    rw [own]
    exact Nat.le_add_right _ _

/-- In a prompt run the timer of the open batch is never overdue. -/
theorem notOverdue_after (config : Config) (horizon : Instant) {events : List Event}
    (prompt : (fresh config horizon).Prompt events) : ((fresh config horizon).after events).2.NotOverdue := by
  induction events using List.reverseRecOn with
  | nil => exact fun t own => nomatch own
  | append_singleton events event ih =>
    obtain ⟨before, stops⟩ := (throughout_snoc _ _ events event).1 prompt
    rw [after_snoc]
    exact step_notOverdue (timed_after config horizon events)
      (sound_after (fresh_sound config horizon) events) stops (ih before)

/-! ## Timers that go off -/

/-- The timer of the open batch goes off: the whole batch leaves. -/
theorem leaves_of_due {r : Run} (some : r.client.openBatch.items ≠ []) {t : FlushTimer}
    (own : t ∈ r.client.ownTimers) (due : t.isDue r.client.now = true) :
    ∃ d ∈ (r.step (.flushTimer r.client.openBatch.id)).2.client.dispatches,
      d.IsNew ∧ d.id = r.client.openBatch.id ∧ d.items = r.client.openBatch.items := by
  obtain ⟨member, mine⟩ := Client.mem_timers_of_own own
  have goesOff : r.timerDue r.client.openBatch.id = true :=
    List.any_eq_true.2 ⟨t, member, by simp [mine, due]⟩
  rw [step, if_pos goesOff, act, Client.onFlushTimer_self some]
  exact ⟨_, List.mem_append_right _ (List.mem_singleton_self _), ⟨rfl, rfl⟩, rfl, rfl⟩

/-- The event changes some timers, but not those of the open batch, and nothing else. -/
def LeavesTimed (r : Run) (event : Event) : Prop :=
  ∃ timers, r.step event = ([], { r with client := { r.client with timers } }) ∧
    timers.filter (fun t => t.batch = r.client.openBatch.id) = r.client.ownTimers

/-- The timer of another batch runs: that is all that happens. -/
theorem step_startTimer_of_ne {r : Run} {b : BatchId} (other : r.client.openBatch.id ≠ b) :
    r.LeavesTimed (.startTimer b) := by
  have own := r.client.ownTimers_startTimer b
  rw [if_neg other] at own
  exact ⟨_, rfl, own⟩

/-- The timer of another batch goes off: it is gone, and nothing else happens. -/
theorem step_flushTimer_of_ne {r : Run} {b : BatchId} (other : r.client.openBatch.id ≠ b) :
    r.LeavesTimed (.flushTimer b) := by
  unfold LeavesTimed
  by_cases due : r.timerDue b = true
  · rw [step, if_pos due, act, Client.onFlushTimer_of_ne other]
    exact ⟨_, rfl, Client.ownTimers_of_ne other⟩
  · rw [step, if_neg due]
    exact ⟨r.client.timers, rfl, rfl⟩

/-- A batch that has been under way is never open again. -/
theorem openBatch_id_ne {r : Run} (sound : r.client.Sound) {b : BatchId}
    (spawned : r.client.dispatch? b ≠ none) (later : List Event) : (r.after later).2.client.openBatch.id ≠ b := by
  obtain ⟨d, under⟩ := Option.ne_none_iff_exists'.1 spawned
  obtain ⟨member, rfl⟩ := Client.Sound.mem_of_dispatch? under
  have earlier := sound.earlier d member
  have grown := batches_after sound later
  have latest := (sound_after sound later).latest
  intro same
  rw [same] at latest
  omega

/-! ## Every run -/

/-- Settings under which a request waits 10 ms for others. -/
def patient : Config := { flushInterval := .ofMilliseconds 10 }

/-- A batch is flushed before its timer is due, and the next one is open when the timer goes off. -/
def flushedEarly : List Event :=
  [.submit mayAliceView, .startTimer ⟨1⟩, .elapse (.ofMilliseconds 4), .flush, .elapse (.ofMilliseconds 2),
    .submit mayAliceView, .startTimer ⟨2⟩, .elapse (.ofMilliseconds 4)]

/-- A task that has not started at once has its timer due later. -/
example : ((fresh patient .horizon).after
    [.submit mayAliceView, .elapse (.ofMilliseconds 4), .startTimer ⟨1⟩]).2.client.ownTimers =
      [⟨⟨1⟩, some (.ofMilliseconds 14)⟩] := by decide +kernel

end Run

end PolicyClient
