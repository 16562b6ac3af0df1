/-
# PolicyClient.Proofs.Run.Deadlines -- how long an attempt and a batch can take

As long as dispatches act in time, an attempt is over within the timeout of when it began, but
for the time that it has been connecting (`Run.attempted_of_mem`).  A batch has as many attempts
as the budget has re-sends, and one, with the delays of the backoff in between.  So no check
waits longer than these take once its batch has departed, but for the time that has been spent on
connecting (`Run.attempts_bounded`).  That time has no bound, and neither has an attempt or a
check that includes it (`Run.slow_connection_unbounded`).
-/
import Mathlib.Order.Monotone.Basic
import PolicyClient.Proofs.Backoff.Range
import PolicyClient.Proofs.Run.Clock

namespace PolicyClient

set_option autoImplicit false

/-! ## One attempt -/

namespace Dispatch

/-- The attempt under way keeps to the timeout, if it has connected by `base`. -/
def Timed (base timeout : Nat) (now : Instant) (d : Dispatch) : Prop :=
  match d.phase with
  | .connecting => now.nanos ≤ base
  | .reading deadline _ => deadline.nanos ≤ base + timeout
  | _ => True

variable {base timeout : Nat} {now : Instant} {d d' : Dispatch}

theorem timed_of_connecting (phase : d.phase = .connecting) (bound : now.nanos ≤ base) :
    d.Timed base timeout now := by
  rw [Timed, phase]
  exact bound

theorem timed_of_reading {deadline : Instant} {a : Attempt} (phase : d.phase = .reading deadline a)
    (bound : deadline.nanos ≤ base + timeout) : d.Timed base timeout now := by
  rw [Timed, phase]
  exact bound

/-- Time spent on connecting is allowed for. -/
theorem Timed.pass (h : d.Timed base timeout now) (time : Duration) {connecting : Bool}
    (counted : d.phase = .connecting → connecting = true) :
    d.Timed (base + if connecting then time.nanos else 0) timeout (now + time) := by
  unfold Timed at h ⊢
  split
  · rename_i phase
    simp only [phase] at h
    rw [counted phase, if_pos rfl, Duration.add_nanos]
    exact Nat.add_le_add_right h _
  · rename_i phase
    simp only [phase] at h
    omega
  · trivial

/-- A dispatch that has connected has the timeout to read replies. -/
theorem Timed.of_moves {c : Client} {event : Event} (h : d.Timed base c.config.requestTimeout.nanos c.now)
    (moves : c.Moves event d d') (underway : d.phase = .connecting ∨ d.IsReading) :
    d'.Timed base c.config.requestTimeout.nanos c.now := by
  have waiting : ∀ {now}, ¬ d.IsDue now := by
    rintro now (phase | ⟨wake, phase, -⟩) <;> rcases underway with other | ⟨_, _, other⟩ <;>
      cases other.symm.trans phase
  cases moves with
  | connects d due healthy => exact absurd due waiting
  | begins d due => exact absurd due waiting
  | sends d phase =>
    rw [Timed, phase] at h
    exact timed_of_reading rfl (Nat.add_le_add_right h _)
  | reads d deadline a phase =>
    rw [Timed, phase] at h
    exact timed_of_reading rfl h
  | backsOff => trivial

/-- As long as the dispatch acts in time, the attempt is within the timeout. -/
theorem Timed.le (h : d.Timed base timeout now) (lets : d.Lets now now)
    (underway : d.phase = .connecting ∨ d.IsReading) : now.nanos ≤ base + timeout := by
  rcases underway with phase | ⟨deadline, a, phase⟩
  · rw [Timed, phase] at h
    omega
  · rw [Timed, phase] at h
    rw [Lets, phase] at lets
    exact Nat.le_trans lets h

end Dispatch

namespace Run

variable {config : Config} {horizon : Instant}

/-- Since an event of this kind, a bound has been kept that allows for the time which the
dispatch of `b` has been connecting. -/
def Since (r₀ : Run) (events : List Event) (b : BatchId) (kind : Run → Event → Prop) (bound : Nat → Prop) :
    Prop :=
  ∃ before event since, events = before ++ event :: since ∧ kind (r₀.after before).2 event ∧
    bound ((r₀.after before).2.client.now.nanos + (r₀.after (before ++ [event])).2.connecting b since)

theorem since_now {r₀ : Run} {events : List Event} {event : Event} (b : BatchId)
    {kind : Run → Event → Prop} {bound : Nat → Prop} (now : kind (r₀.after events).2 event)
    (kept : bound (r₀.after events).2.client.now.nanos) : r₀.Since (events ++ [event]) b kind bound :=
  ⟨events, event, [], rfl, now, kept⟩

theorem Since.snoc {r₀ : Run} {events : List Event} {b : BatchId} {kind : Run → Event → Prop}
    {bound bound' : Nat → Prop} (h : r₀.Since events b kind bound) {event : Event}
    (kept : ∀ base, bound base →
      bound' (base + if (r₀.after events).2.client.connects b then event.span.nanos else 0)) :
    r₀.Since (events ++ [event]) b kind bound' := by
  obtain ⟨before, first, since, rfl, found, base⟩ := h
  refine ⟨before, first, since ++ [event], by simp, found, ?_⟩
  have same : ((r₀.after (before ++ [first])).2.after since).2 = (r₀.after (before ++ first :: since)).2 := by
    rw [after_snoc, after_append, after_cons]
  rw [connecting_snoc, same, ← Nat.add_assoc]
  exact kept _ base

theorem Since.imp {r₀ : Run} {events : List Event} {b : BatchId} {kind : Run → Event → Prop}
    {bound bound' : Nat → Prop} (h : r₀.Since events b kind bound) (weaker : ∀ base, bound base → bound' base) :
    r₀.Since events b kind bound' := by
  obtain ⟨before, event, since, split, found, base⟩ := h
  exact ⟨before, event, since, split, found, weaker _ base⟩

/-- The attempt of `d` under way began when the dispatch says, and keeps to the timeout. -/
def Attempted (r₀ : Run) (events : List Event) (d : Dispatch) : Prop :=
  r₀.Since events d.id (fun r event => (∃ healthy, event = .due d.id healthy) ∧ r.client.now = d.started)
    fun base => d.Timed base r₀.client.config.requestTimeout.nanos (r₀.after events).2.client.now

/-- **Every attempt** keeps to the timeout, but for the time that it has been connecting. -/
theorem attempted_of_mem {events : List Event} {d : Dispatch}
    (member : d ∈ ((fresh config horizon).after events).2.client.dispatches)
    (underway : d.phase = .connecting ∨ d.IsReading) : (fresh config horizon).Attempted events d := by
  induction events using List.reverseRecOn generalizing d with
  | nil => cases member
  | append_singleton events event ih =>
    have sound := sound_after (fresh_sound config horizon) events
    have settings := config_after (fresh config horizon) events
    unfold Attempted
    rw [after_snoc] at member ⊢
    rw [step_now, ← settings]
    rcases step_arises sound member with before | spawns | ⟨d₀, before, moves⟩
    · refine (ih before underway).snoc fun base timed => ?_
      rw [settings]
      exact timed.pass event.span fun phase => sound.connects_of_mem before phase
    · rcases underway with phase | ⟨_, _, phase⟩ <;> cases spawns.new.1.symm.trans phase
    · rw [moves.span, Duration.add_zero]
      have goesOn : d₀.phase = .connecting ∨ d₀.IsReading → d.started = d₀.started →
          (fresh config horizon).Since (events ++ [event]) d.id
            (fun r event => (∃ healthy, event = .due d.id healthy) ∧ r.client.now = d.started) fun base =>
            d.Timed base ((fresh config horizon).after events).2.client.config.requestTimeout.nanos
              ((fresh config horizon).after events).2.client.now := by
        intro underway₀ started
        rw [moves.id, started]
        refine (ih before underway₀).snoc fun base timed => ?_
        rw [← settings] at timed
        rw [moves.span, Duration.zero, ite_self]
        exact timed.of_moves moves underway₀
      cases moves with
      | connects d₀ due healthy =>
        exact since_now _ ⟨⟨healthy, rfl⟩, rfl⟩ (Dispatch.timed_of_connecting rfl (Nat.le_refl _))
      | begins d₀ due =>
        exact since_now _ ⟨⟨true, rfl⟩, rfl⟩ (Dispatch.timed_of_reading rfl (Nat.le_refl _))
      | sends d₀ phase => exact goesOn (.inl phase) rfl
      | reads d₀ deadline a phase => exact goesOn (.inr ⟨deadline, a, phase⟩) rfl
      | backsOff => rcases underway with phase | ⟨_, _, phase⟩ <;> cases phase

end Run

/-! ## All attempts of a batch -/

/-- The delays before the first `n` re-sends with nothing taken off them, in nanoseconds. -/
def BackoffConfig.delays (b : BackoffConfig) : Nat → Nat
  | 0 => 0
  | n + 1 => b.delays n + (b.longest n).nanos

/-- The time for `n` attempts that need not connect, each with the delay after it. -/
def Config.allowance (config : Config) (n : Nat) : Nat :=
  n * config.requestTimeout.nanos + config.backoff.delays n

/-- Whatever is taken off a delay, there is time for what is left of it. -/
theorem Config.le_allowance_succ {config : Config} (workable : config.backoff.Workable) {n : Nat}
    {chance : Binary64} {wait : Duration} (delay : config.backoff.wait? n chance = some wait) :
    config.allowance n + config.requestTimeout.nanos + wait.nanos ≤ config.allowance (n + 1) := by
  have most : wait.nanos ≤ (config.backoff.longest n).nanos := BackoffConfig.wait_le workable delay
  rw [allowance, allowance, BackoffConfig.delays, Nat.succ_mul]
  omega

theorem Config.allowance_mono (config : Config) : Monotone config.allowance := by
  apply monotone_nat_of_le_succ
  intro n
  rw [allowance, allowance, BackoffConfig.delays, Nat.succ_mul]
  omega

namespace Dispatch

/-- The dispatch keeps to the time for its attempts, of a batch that has departed by `base`. -/
def Paced (base : Nat) (config : Config) (now : Instant) (d : Dispatch) : Prop :=
  match d.phase with
  | .queued => d.attempts = 0 ∧ now.nanos ≤ base
  | .backingOff wake => wake.nanos ≤ base + config.allowance d.attempts
  | .connecting | .reading _ _ => ∃ n, d.attempts = n + 1 ∧
      d.Timed (base + config.allowance n) config.requestTimeout.nanos now

variable {base : Nat} {config : Config} {now : Instant} {d d' : Dispatch}

theorem paced_of_underway (underway : d.phase = .connecting ∨ d.IsReading) :
    d.Paced base config now ↔ ∃ n, d.attempts = n + 1 ∧
      d.Timed (base + config.allowance n) config.requestTimeout.nanos now := by
  unfold Paced
  rcases underway with phase | ⟨deadline, a, phase⟩
  · rw [phase]
  · rw [phase]

theorem Paced.pass (h : d.Paced base config now) {time : Duration} (lets : d.Lets now (now + time))
    {connecting : Bool} (counted : d.phase = .connecting → connecting = true) :
    d.Paced (base + if connecting then time.nanos else 0) config (now + time) := by
  have goesOn : d.phase = .connecting ∨ d.IsReading →
      d.Paced (base + if connecting then time.nanos else 0) config (now + time) := by
    intro underway
    obtain ⟨n, attempts, timed⟩ := (paced_of_underway underway).1 h
    refine (paced_of_underway underway).2 ⟨n, attempts, ?_⟩
    rw [Nat.add_right_comm]
    exact timed.pass time counted
  cases phase : d.phase with
  | queued =>
    rw [Paced, phase] at h ⊢
    rw [Lets, phase] at lets
    exact ⟨h.1, Nat.le_add_right_of_le (Nat.le_trans lets h.2)⟩
  | connecting => exact goesOn (.inl phase)
  | reading deadline a => exact goesOn (.inr ⟨deadline, a, phase⟩)
  | backingOff wake =>
    rw [Paced, phase] at h ⊢
    dsimp only at h ⊢
    omega

/-- An attempt begins once those before it have had their time. -/
theorem Paced.of_due (h : d.Paced base config now) (lets : d.Lets now now) (due : d.IsDue now) :
    now.nanos ≤ base + config.allowance d.attempts := by
  rcases due with phase | ⟨wake, phase, -⟩
  · rw [Paced, phase] at h
    exact Nat.le_add_right_of_le h.2
  · rw [Paced, phase] at h
    rw [Lets, phase] at lets
    exact Nat.le_trans lets h

/-- **Every move** keeps to the time for the attempts that have been begun. -/
theorem Paced.of_moves {c : Client} {event : Event} (workable : c.config.backoff.Workable)
    (h : d.Paced base c.config c.now) (lets : d.Lets c.now c.now) (moves : c.Moves event d d') :
    d'.Paced base c.config c.now := by
  have goesOn : d.phase = .connecting ∨ d.IsReading → d'.phase = .connecting ∨ d'.IsReading →
      d'.attempts = d.attempts → d'.Paced base c.config c.now := by
    intro underway underway' same
    obtain ⟨n, attempts, timed⟩ := (paced_of_underway underway).1 h
    exact (paced_of_underway underway').2 ⟨n, same.trans attempts, timed.of_moves moves underway⟩
  cases moves with
  | connects d due healthy =>
    exact ⟨d.attempts, rfl, timed_of_connecting rfl (h.of_due lets due)⟩
  | begins d due =>
    exact ⟨d.attempts, rfl, timed_of_reading rfl (Nat.add_le_add_right (h.of_due lets due) _)⟩
  | sends d phase => exact goesOn (.inl phase) (.inr ⟨_, _, rfl⟩) rfl
  | reads d deadline a phase => exact goesOn (.inr ⟨deadline, a, phase⟩) (.inr ⟨_, _, rfl⟩) rfl
  | backsOff d event rest e fails affordable wait delay =>
    have underway : d.phase = .connecting ∨ d.IsReading := by
      cases fails with
      | unconnected e passing phase => exact .inl phase
      | streamEnd deadline a phase => exact .inr ⟨deadline, a, phase⟩
      | overdue deadline a phase => exact .inr ⟨deadline, a, phase⟩
    obtain ⟨n, attempts, timed⟩ := (paced_of_underway underway).1 h
    have late := timed.le lets underway
    rw [attempts, Nat.add_sub_cancel] at delay
    change (c.now + wait).nanos ≤ base + c.config.allowance d.attempts
    have allowed := c.config.le_allowance_succ workable delay
    rw [attempts, Duration.add_nanos]
    omega

/-- A batch under way is within the time for all its attempts. -/
theorem Paced.le (h : d.Paced base config now) (lets : d.Lets now now) (within : d.Within config.retryBudget) :
    now.nanos ≤ base + config.allowance config.retryBudget + config.requestTimeout.nanos := by
  have goesOn : d.phase = .connecting ∨ d.IsReading → d.attempts ≤ config.retryBudget + 1 →
      now.nanos ≤ base + config.allowance config.retryBudget + config.requestTimeout.nanos := by
    intro underway most
    obtain ⟨n, attempts, timed⟩ := (paced_of_underway underway).1 h
    have grown := config.allowance_mono (show n ≤ config.retryBudget by omega)
    have late := timed.le lets underway
    omega
  cases phase : d.phase with
  | queued =>
    rw [Paced, phase] at h
    have late := h.2
    omega
  | connecting =>
    rw [Within, phase] at within
    exact goesOn (.inl phase) within
  | reading deadline a =>
    rw [Within, phase] at within
    exact goesOn (.inr ⟨deadline, a, phase⟩) within
  | backingOff wake =>
    rw [Paced, phase] at h
    rw [Lets, phase] at lets
    rw [Within, phase] at within
    have grown := config.allowance_mono within
    have late := Nat.le_trans lets h
    omega

end Dispatch

namespace Run

variable {config : Config} {horizon : Instant}

/-- The batch of `d` has departed, and its attempts keep to their time. -/
def Attempting (r₀ : Run) (events : List Event) (d : Dispatch) : Prop :=
  r₀.Since events d.id (fun r event => ∃ d₀, r.Spawns event d₀ ∧ d₀.id = d.id)
    fun base => d.Paced base r₀.client.config (r₀.after events).2.client.now

/-- **Every batch under way** keeps to the time for its attempts, but for the time that it has been
connecting. -/
theorem attempting_of_mem (workable : config.backoff.Workable) {events : List Event}
    (punctual : (fresh config horizon).Punctual events) {d : Dispatch}
    (member : d ∈ ((fresh config horizon).after events).2.client.dispatches) :
    (fresh config horizon).Attempting events d := by
  induction events using List.reverseRecOn generalizing d with
  | nil => cases member
  | append_singleton events event ih =>
    obtain ⟨before, last⟩ := ((fresh config horizon).punctual_append events [event]).1 punctual
    have sound := sound_after (fresh_sound config horizon) events
    have settings := config_after (fresh config horizon) events
    have inTime := inTime_after (r := fresh config horizon) nofun (fresh_sound config horizon) before
    unfold Attempting
    rw [after_snoc] at member ⊢
    rw [step_now]
    rcases step_arises sound member with earlier | spawns | ⟨d₀, earlier, moves⟩
    · refine (ih before earlier).snoc fun base paced => ?_
      exact paced.pass (inTime.lets last earlier) fun phase => sound.connects_of_mem earlier phase
    · apply since_now _ ⟨d, spawns, rfl⟩
      rw [spawns.span, Dispatch.Paced, spawns.new.1]
      exact ⟨spawns.new.2, Nat.le_refl _⟩
    · rw [moves.id, moves.span, Duration.add_zero]
      refine (ih before earlier).snoc fun base paced => ?_
      rw [← settings] at paced ⊢
      rw [moves.span, Duration.zero, ite_self]
      exact paced.of_moves (settings ▸ workable) (inTime d₀ earlier) moves

/-- **Attempts are bounded by the timeout, but for connecting.**  In every run in which dispatches act
in time, an attempt under way began no longer ago than the timeout and the time that it has been
connecting since; and a check that waits in a batch under way is in one that has departed no longer
ago than all its attempts take, with the delays in between, and the time that it has been connecting.
Batches that broke off are excepted. -/
theorem attempts_bounded {r₀ : Run} (started : start config horizon = .ok r₀) {events : List Event}
    (punctual : r₀.Punctual events) :
    (∀ d ∈ (r₀.after events).2.client.dispatches, d.phase = .connecting ∨ d.IsReading →
      r₀.Since events d.id
        (fun r event => (∃ healthy, event = .due d.id healthy) ∧ r.client.now = d.started)
        fun base => (r₀.after events).2.client.now.nanos ≤ base + config.requestTimeout.nanos) ∧
    ∀ t w, (r₀.after events).2.client.correlator.waiters.get? t = some w →
      w.batch ∉ (r₀.after events).2.client.broken → w.batch ≠ (r₀.after events).2.client.openBatch.id →
      r₀.Since events w.batch (fun r event => ∃ d, r.Spawns event d ∧ d.id = w.batch)
        fun base => (r₀.after events).2.client.now.nanos ≤
          base + (config.retryBudget + 1) * config.requestTimeout.nanos +
            config.backoff.delays config.retryBudget := by
  obtain ⟨valid, rfl⟩ := (start_eq_ok_iff config horizon r₀).1 started
  have workable := (config.validate_eq_ok_iff.1 valid).backoff
  have sound := sound_after (fresh_sound config horizon) events
  have inTime := inTime_after (r := fresh config horizon) nofun (fresh_sound config horizon) punctual
  refine ⟨?_, ?_⟩
  · intro d member underway
    exact (attempted_of_mem member underway).imp fun base timed => timed.le (inTime d member) underway
  · intro t w found whole left
    rcases (Client.mem_holdings_iff _ t w.batch).1 ((sound.held t w found).resolve_left whole) with
      ⟨-, same⟩ | ⟨d, member, -, same⟩
    · exact absurd same.symm left
    · have within := (fresh_within config horizon).after (fresh_sound config horizon) events d member
      rw [config_after] at within
      rw [← same]
      refine (attempting_of_mem workable punctual member).imp fun base paced => ?_
      have late := paced.le (inTime d member) within
      change _ ≤ base + config.allowance config.retryBudget + config.requestTimeout.nanos at late
      rw [Config.allowance] at late
      rw [Nat.succ_mul]
      omega

/-- The connection takes 300 ms to be made, and the timeout another second to pass. -/
def slowConnection : List Event :=
  [.submit mayAliceView, .due ⟨1⟩ true, .elapse (.ofMilliseconds 300), .connected ⟨1⟩ (.ok ()),
    .elapse (.ofSeconds 1)]

/-- The check has waited for as long as it can, if it is not sent again. -/
theorem slow_connection_allowed :
    start { maxBatchSize := 1, retryBudget := 0 } .horizon = .ok (fresh { maxBatchSize := 1, retryBudget := 0 } .horizon) ∧
      (fresh { maxBatchSize := 1, retryBudget := 0 } .horizon).Punctual slowConnection ∧
      ((fresh { maxBatchSize := 1, retryBudget := 0 } .horizon).after slowConnection).2.client.now =
        .ofMilliseconds 1300 ∧
      (fresh { maxBatchSize := 1, retryBudget := 0 } .horizon).Since slowConnection ⟨1⟩
        (fun r event => ∃ d, r.Spawns event d ∧ d.id = ⟨1⟩) fun base => 1300000000 ≤ base + 1000000000 := by
  have started : start { maxBatchSize := 1, retryBudget := 0 } .horizon =
      .ok (fresh { maxBatchSize := 1, retryBudget := 0 } .horizon) := by rfl
  have punctual : (fresh { maxBatchSize := 1, retryBudget := 0 } .horizon).Punctual slowConnection := by decide +kernel
  have since := (attempts_bounded started punctual).2 ⟨1⟩ ⟨⟨1⟩, 0, {}⟩ (by rfl) (by decide +kernel)
    (by decide +kernel)
  exact ⟨started, punctual, by decide +kernel, since⟩

/-- Settings that leave a batch 100 ms in all. -/
def hasty : Config := { maxBatchSize := 1, requestTimeout := .ofMilliseconds 100, retryBudget := 0 }

/-- The connection has not been made when the timeout has passed twice. -/
def hangingConnection : List Event :=
  [.submit mayAliceView, .due ⟨1⟩ true, .elapse (.ofMilliseconds 200)]

/-- With the time spent on connecting, neither an attempt nor a check is bounded by the timeouts. -/
theorem slow_connection_unbounded :
    (¬ ∀ config r₀ events, start config .horizon = .ok r₀ → r₀.Punctual events →
      ∀ d ∈ (r₀.after events).2.client.dispatches, d.phase = .connecting ∨ d.IsReading →
        (r₀.after events).2.client.now ≤ d.started + config.requestTimeout) ∧
    ¬ ∀ config r₀ events, start config .horizon = .ok r₀ → r₀.Punctual events →
      ∀ t w, (r₀.after events).2.client.correlator.waiters.get? t = some w →
        ∀ before event since d, events = before ++ event :: since → (r₀.after before).2.Spawns event d →
          d.id = w.batch → (r₀.after events).2.client.now.nanos ≤ (r₀.after before).2.client.now.nanos +
            (config.retryBudget + 1) * config.requestTimeout.nanos +
              config.backoff.delays config.retryBudget := by
  have started : start hasty .horizon = .ok (fresh hasty .horizon) := by rfl
  have punctual : (fresh hasty .horizon).Punctual hangingConnection := by decide +kernel
  have now : ((fresh hasty .horizon).after hangingConnection).2.client.now = .ofMilliseconds 200 := by decide +kernel
  refine ⟨fun bounded => ?_, fun bounded => ?_⟩
  · have late := bounded hasty _ _ started punctual
      { id := ⟨1⟩, items := [⟨⟨1⟩, mayAliceView⟩], attempts := 1, phase := .connecting }
      (List.mem_singleton.2 (by rfl)) (.inl rfl)
    rw [now] at late
    exact absurd late (by decide)
  · have shown : ((fresh hasty .horizon).step (.submit mayAliceView)).1 = [.issued ⟨1⟩, .effect (.spawned ⟨1⟩)] := by rfl
    have spawns : (fresh hasty .horizon).Spawns (.submit mayAliceView) { id := ⟨1⟩, items := [⟨⟨1⟩, mayAliceView⟩] } :=
      ⟨⟨rfl, rfl⟩, by simp [shown], Nat.le_refl _⟩
    have late := bounded hasty _ _ started punctual ⟨1⟩ ⟨⟨1⟩, 0, {}⟩ (by rfl) [] _ _ _ rfl spawns rfl
    rw [now] at late
    exact absurd late (by decide)

end Run

end PolicyClient
