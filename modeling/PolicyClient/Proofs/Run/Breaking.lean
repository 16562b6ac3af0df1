/-
# PolicyClient.Proofs.Run.Breaking -- which dispatches break off

A dispatch computes two things that may be out of range: the deadline of an attempt, when it sends
its items, and the delay before the next attempt.  Where one of them is, it breaks off, and nobody
sees its batch through any more.  Nothing else takes a batch there (`Run.step_breaks`): each batch in
`Client.broken` has come to its deadline or to its delay out of range (`Client.OutOfRange`).

The tests of the settings do not keep this from happening.  What would is a greatest delay short of
2^64 seconds, and a timeout short of what the clock has left (`Run.broken_only_out_of_range`);
neither is enough without the other (`Run.either_duration_breaks_off`).
-/
import PolicyClient.Proofs.Backoff.Range
import PolicyClient.Proofs.Run.Clock

namespace PolicyClient

set_option autoImplicit false

open Duration (secondsLimit)

namespace Client

variable {c c' : Client}

/-! ## What breaks a dispatch off -/

/-- What a dispatch has to compute at this time is out of range: a deadline, or the delay after an
attempt when there may be another. -/
inductive OutOfRange (config : Config) (horizon now : Instant) (chance : Binary64) (d : Dispatch) : Prop
  | deadline (beyond : horizon < now + config.requestTimeout)
  | delay (affordable : d.attempts ≤ config.retryBudget)
    (none : config.backoff.wait? (d.attempts - 1) chance = none)

/-- `d` does not break off, or does for what is out of range. -/
inductive Breaks (c : Client) (d : Dispatch) (c' : Client) : Prop
  | whole (same : c'.broken = c.broken)
  | off (out : OutOfRange c.config c.horizon c.now c.chance d) (last : c'.broken = c.broken ++ [d.id])

/-- No dispatch of the client breaks off, or one does for what is out of range. -/
def BreaksOne (c c' : Client) : Prop := c'.broken = c.broken ∨ ∃ d ∈ c.dispatches, Breaks c d c'

/-- A dispatch that is to send its items breaks off exactly if the clock does not reach to the
deadline. -/
theorem broken_send (c : Client) (d : Dispatch) :
    (c.send d).2.broken =
      if c.horizon < c.now + c.config.requestTimeout then c.broken ++ [d.id] else c.broken := by
  simp only [send]
  split <;> rfl

/-- The attempt that sends may have begun just now, and the lifecycle have changed with it. -/
theorem send_breaks (c : Client) (l : Lifecycle) {d d' : Dispatch} (id : d'.id = d.id) :
    Breaks c d ({ c with lifecycle := l }.send d').2 := by
  have sent := broken_send { c with lifecycle := l } d'
  split at sent
  · rename_i beyond
    exact .off (.deadline beyond) (id ▸ sent)
  · exact .whole sent

theorem beginAttempt_breaks (c : Client) (d : Dispatch) (healthy : Bool) :
    Breaks c d (c.beginAttempt d healthy).2 := by
  simp only [beginAttempt]
  split
  · exact .whole rfl
  · split
    · exact .whole rfl
    · split
      · exact c.send_breaks _ rfl
      · exact .whole rfl

theorem onTransientFailure_breaks (c : Client) (d : Dispatch) (rest : List Item) (e : Error) :
    Breaks c d (c.onTransientFailure d rest e) := by
  unfold onTransientFailure
  split
  · exact .whole rfl
  · exact .whole rfl
  · dsimp only
    split
    · exact .whole rfl
    · rename_i affordable
      split
      · rename_i none
        exact .off (.delay (Nat.not_lt.1 affordable) none) rfl
      · exact .whole rfl

theorem broken_closeWith (c : Client) (reason : String) (e : Error) :
    (c.closeWith reason e).broken = c.broken := by
  unfold closeWith
  split <;> rfl

theorem onEnding_breaks (c : Client) (d : Dispatch) (ending : AttemptEnding) :
    Breaks c d (c.onEnding d ending) := by
  cases ending with
  | settled => exact .whole rfl
  | fatal e => exact .whole (c.broken_closeWith e.message e)
  | retry rest e => exact c.onTransientFailure_breaks d rest e

/-- The accounts of the attempt do not matter. -/
theorem settle_onEnding_breaks (c : Client) (x : Exchange) (d : Dispatch) (ending : AttemptEnding) :
    Breaks c d ((c.settle x).onEnding d ending) := by
  cases (c.settle x).onEnding_breaks d ending with
  | whole same => exact .whole same
  | off out last => exact .off out last

/-! ## Events of a dispatch -/

theorem onDue_breaks (c : Client) (b : BatchId) (healthy : Bool) : BreaksOne c (c.onDue b healthy).2 := by
  unfold onDue
  split
  · rename_i d found
    have member := (Sound.mem_of_dispatch? found).1
    split
    · exact .inr ⟨d, member, c.beginAttempt_breaks d healthy⟩
    · split
      · exact .inr ⟨d, member, c.beginAttempt_breaks d healthy⟩
      · exact .inl rfl
    · exact .inl rfl
  · exact .inl rfl

theorem onConnect_breaks (c : Client) (b : BatchId) (result : Except Error Unit) :
    BreaksOne c (c.onConnect b result).2 := by
  unfold onConnect
  split
  · rename_i d found
    have member := (Sound.mem_of_dispatch? found).1
    split
    · split
      · exact .inr ⟨d, member, c.send_breaks _ rfl⟩
      · exact .inr ⟨d, member, c.onEnding_breaks d _⟩
    · exact .inl rfl
  · exact .inl rfl

theorem onReply_breaks (c : Client) (b : BatchId) (reply : Reply) : BreaksOne c (c.onReply b reply) := by
  unfold onReply
  split
  · rename_i d found
    have member := (Sound.mem_of_dispatch? found).1
    split
    · split
      · exact .inl rfl
      · exact .inr ⟨d, member, c.onEnding_breaks d _⟩
    · exact .inl rfl
  · exact .inl rfl

theorem onStreamEnd_breaks (c : Client) (b : BatchId) : BreaksOne c (c.onStreamEnd b) := by
  unfold onStreamEnd
  split
  · rename_i d found
    have member := (Sound.mem_of_dispatch? found).1
    split
    · exact .inr ⟨d, member, c.settle_onEnding_breaks _ d _⟩
    · exact .inl rfl
  · exact .inl rfl

theorem onDeadline_breaks (c : Client) (b : BatchId) : BreaksOne c (c.onDeadline b) := by
  unfold onDeadline
  split
  · rename_i d found
    have member := (Sound.mem_of_dispatch? found).1
    split
    · split
      · exact .inr ⟨d, member, c.settle_onEnding_breaks _ d _⟩
      · exact .inl rfl
    · exact .inl rfl
  · exact .inl rfl

/-! ## Other events -/

theorem broken_flush (c : Client) : c.flush.2.broken = c.broken := by
  unfold flush
  split <;> rfl

theorem broken_onFlushTimer (c : Client) (b : BatchId) : (c.onFlushTimer b).2.broken = c.broken := by
  simp only [onFlushTimer]
  split
  · exact broken_flush _
  · rfl

theorem broken_enqueue (c : Client) (t : Token) (request : Request) (prefill : Prefill) :
    (c.enqueue t request prefill).2.2.broken = c.broken := by
  obtain ⟨before, c₁, after, c₂, room, entry, result⟩ := c.enqueue_cases t request prefill
  rw [result]
  cases room <;> cases entry <;> rfl

theorem broken_submit (c : Client) (request : Request) : (c.submit request).2.2.broken = c.broken := by
  cases c.submission request with
  | refused reason closed result => rw [result]
  | decided running store cache all result =>
    rw [result]
    rfl
  | enters running result =>
    rw [result]
    exact (c.consulted request).broken_enqueue _ _ _

theorem broken_abandon (c : Client) : c.abandon.broken = c.broken := by
  unfold abandon
  split <;> rfl

theorem broken_close (c : Client) : c.close.2.broken = c.broken :=
  (broken_flush _).trans (c.broken_closeWith _ _)

end Client

namespace Run

variable {r r₀ : Run} {config : Config} {horizon : Instant}

/-- **One event breaks off one dispatch at most**, for what is out of range at that time. -/
theorem step_breaks (r : Run) (event : Event) : r.client.BreaksOne (r.step event).2.client := by
  have handle := r.step_ofHandle event
  cases event with
  | poll t | cancel t | drop t | expire t =>
    obtain ⟨k, same⟩ := handle trivial
    exact .inl (same ▸ rfl)
  | submit request => exact .inl (r.client.broken_submit request)
  | flush => exact .inl r.client.broken_flush
  | abandon => exact .inl r.client.broken_abandon
  | close => exact .inl r.client.broken_close
  | link up => exact .inl rfl
  | flushTimer b =>
    simp only [step]
    split
    · exact .inl (r.client.broken_onFlushTimer b)
    · exact .inl rfl
  | due b healthy => exact r.client.onDue_breaks b healthy
  | connected b result => exact r.client.onConnect_breaks b result
  | reply b reply => exact r.client.onReply_breaks b reply
  | streamEnd b => exact r.client.onStreamEnd_breaks b
  | deadline b => exact r.client.onDeadline_breaks b
  | startTimer b => exact .inl rfl
  | draw share => exact .inl rfl
  | elapse d => exact .inl rfl
  | age d => exact .inl rfl

/-- At some event of the history the dispatch of `b` has broken off for what was out of range then. -/
def BrokeOff (r : Run) (events : List Event) (b : BatchId) : Prop :=
  ∃ before event since, events = before ++ event :: since ∧
    ((r.after before).2.step event).2.client.broken = (r.after before).2.client.broken ++ [b] ∧
    ∃ d ∈ (r.after before).2.client.dispatches, d.id = b ∧
      Client.OutOfRange r.client.config r.client.horizon (r.after before).2.client.now
        (r.after before).2.client.chance d

theorem brokeOff_of_mem {b : BatchId} (whole : r.client.broken = []) {events : List Event}
    (broken : b ∈ (r.after events).2.client.broken) : r.BrokeOff events b := by
  induction events using List.reverseRecOn with
  | nil =>
    rw [after_nil, whole] at broken
    cases broken
  | append_singleton events event ih =>
    have earlier : b ∈ (r.after events).2.client.broken → r.BrokeOff (events ++ [event]) b := by
      intro before
      obtain ⟨first, event', since, split, off⟩ := ih before
      exact ⟨first, event', since ++ [event], by rw [split]; simp, off⟩
    rw [after_snoc] at broken
    rcases (r.after events).2.step_breaks event with same | ⟨d, member, same | ⟨out, last⟩⟩
    · exact earlier (same ▸ broken)
    · exact earlier (same ▸ broken)
    · rw [last, List.mem_append, List.mem_singleton] at broken
      rcases broken with before | rfl
      · exact earlier before
      · rw [config_after, horizon_after] at out
        exact ⟨events, event, [], rfl, last, d, member, rfl, out⟩

/-- A dispatch that has its connection breaks off exactly if the clock does not reach to the deadline
of its attempt. -/
theorem broken_connected_iff {b : BatchId} (connects : r.client.connects b = true) :
    (r.step (.connected b (.ok ()))).2.client.broken = r.client.broken ++ [b] ↔
      r.client.horizon < r.client.now + r.client.config.requestTimeout := by
  unfold Client.connects at connects
  split at connects
  · rename_i d found
    obtain ⟨-, rfl⟩ := Client.Sound.mem_of_dispatch? found
    split at connects
    · rename_i phase
      have sent := Client.broken_send { r.client with lifecycle := r.client.lifecycle.onConnected } d
      simp only [step, act, Client.onConnect, found, phase, sent]
      split
      · rename_i beyond
        exact iff_of_true rfl beyond
      · rename_i reaches
        exact iff_of_false (by simp) reaches
    · cases connects
  · cases connects

/-- **A dispatch breaks off only for what is out of range.**  A whole delay cannot be computed exactly if
the greatest delay reaches 2^64 seconds as a double, and the delay that has grown does; short of that a
delay stays in range whatever share of it is taken off, and where no shares are taken off delays are
waited whole.  In every run, a dispatch that has its connection breaks off exactly if the deadline of its
attempt is beyond the clock, whatever has broken off did so for its deadline or its delay, and no dispatch
makes more attempts than there are re-sends and one.  So none breaks off while the timeout is within what
the clock has left and the greatest delay is short of 2^64 seconds. -/
theorem broken_only_out_of_range (started : start config horizon = .ok r₀) :
    (∀ retry, config.backoff.delay? retry = none ↔ secondsLimit ≤ config.backoff.max.seconds ∧
      ((config.backoff.grown retry).isNaN = true ∨
        Duration.unreached.le (config.backoff.grown retry) = true)) ∧
    (config.backoff.max.seconds < secondsLimit → ∀ retry share, config.backoff.Draw share →
      ∃ wait, Duration.ofSecondsNearest? (config.backoff.shaved retry share) = some wait) ∧
    (config.backoff.isJittered = false → ∀ retry chance,
      config.backoff.wait? retry chance = config.backoff.delay? retry) ∧
    ∀ events,
      (∀ b, (r₀.after events).2.client.connects b = true →
        (((r₀.after events).2.step (.connected b (.ok ()))).2.client.broken =
            (r₀.after events).2.client.broken ++ [b] ↔
          horizon < (r₀.after events).2.client.now + config.requestTimeout)) ∧
      (∀ b ∈ (r₀.after events).2.client.broken, r₀.BrokeOff events b) ∧
      (∀ d ∈ (r₀.after events).2.client.dispatches, d.attempts ≤ config.retryBudget + 1) ∧
      ((r₀.after events).2.client.now + config.requestTimeout ≤ horizon →
        config.backoff.max.seconds < secondsLimit → (r₀.after events).2.client.broken = []) := by
  obtain ⟨valid, rfl⟩ := (start_eq_ok_iff config horizon r₀).1 started
  have backoff := (config.validate_eq_ok_iff.1 valid).backoff
  refine ⟨config.backoff.delay?_eq_none_iff, fun short retry share draw =>
    BackoffConfig.shaved_in_range backoff short retry draw,
    fun whole retry chance => BackoffConfig.wait?_eq_delay? backoff whole retry chance,
    fun events => ⟨?_, ?_, ?_, ?_⟩⟩
  · intro b connects
    rw [broken_connected_iff connects, config_after, horizon_after]
    rfl
  · exact fun b broken => brokeOff_of_mem rfl broken
  · intro d member
    have within := (fresh_within config horizon).after (fresh_sound config horizon) events d member
    rw [config_after] at within
    exact within.le
  · intro reaches short
    refine List.eq_nil_iff_forall_not_mem.2 fun b broken => ?_
    obtain ⟨before, event, since, split, -, d, -, -, out⟩ := brokeOff_of_mem (r := fresh config horizon) rfl broken
    cases out with
    | deadline beyond =>
      have earlier := now_le_after ((fresh config horizon).after before).2 (event :: since)
      rw [split, after_append] at reaches
      exact absurd beyond (Nat.not_lt.2 (Nat.le_trans (Nat.add_le_add_right earlier _) reaches))
    | delay affordable none =>
      exact absurd none (BackoffConfig.wait?_ne_none backoff short _ _)

/-- A connection fails; the check is sent again later, and answered. -/
def sentLate : List Event :=
  [.submit mayAliceView, .due ⟨1⟩ false, .connected ⟨1⟩ (.error (.transport "refused")),
    .elapse (.ofMilliseconds 50), .due ⟨1⟩ false, .connected ⟨1⟩ (.ok ()),
    .reply ⟨1⟩ (.result ⟨1⟩ (.ofDecisions [(view, .allow)])), .streamEnd ⟨1⟩]

/-- With ordinary durations nothing breaks off, and there is a delay before every attempt. -/
theorem sent_late_whole :
    start { maxBatchSize := 1 } .horizon = .ok (fresh { maxBatchSize := 1 } .horizon) ∧
      ((fresh { maxBatchSize := 1 } .horizon).after sentLate).2.client.now = .ofMilliseconds 50 ∧
      ((fresh { maxBatchSize := 1 } .horizon).after sentLate).2.client.broken = [] ∧
      ∃ wait, Duration.ofSecondsNearest?
        (({ maxBatchSize := 1 } : Config).backoff.shaved 3 (.ofDecimal false 1 (-1))) = some wait := by
  have started : start { maxBatchSize := 1 } .horizon = .ok (fresh { maxBatchSize := 1 } .horizon) := by rfl
  have now : ((fresh { maxBatchSize := 1 } .horizon).after sentLate).2.client.now = .ofMilliseconds 50 := by
    decide +kernel
  have short : ({ maxBatchSize := 1 } : Config).backoff.max.seconds < secondsLimit := by decide
  obtain ⟨-, shaved, -, runs⟩ := broken_only_out_of_range started
  have whole := (runs sentLate).2.2.2 (by rw [now]; decide) short
  exact ⟨started, now, whole, shaved short 3 (.ofDecimal false 1 (-1)) ⟨by decide, by decide⟩⟩

/-- Settings that are accepted, with delays of the longest duration there is. -/
def slowest : Config where
  maxBatchSize := 1
  backoff := {
    initial := .ofSeconds 18446744073709551615
    max := .ofSeconds 18446744073709551615
    jitter := .zero }

/-- Settings that are accepted, with the longest timeout there is. -/
def unending : Config := { maxBatchSize := 1, requestTimeout := .ofSeconds 18446744073709551615 }

/-- A connection is made, and the check is to be sent. -/
def connectedOnce : List Event := [.submit mayAliceView, .due ⟨1⟩ false, .connected ⟨1⟩ (.ok ())]

/-- A timeout within what the clock has left does not keep dispatches from breaking off, nor does a
greatest delay short of 2^64 seconds. -/
theorem either_duration_breaks_off :
    (¬ ∀ config r₀ events, start config .horizon = .ok r₀ →
      (r₀.after events).2.client.now + config.requestTimeout ≤ .horizon →
        (r₀.after events).2.client.broken = []) ∧
    ¬ ∀ config r₀ events, start config .horizon = .ok r₀ → config.backoff.max.seconds < secondsLimit →
      (r₀.after events).2.client.broken = [] := by
  constructor
  · intro whole
    have broken : ((fresh slowest .horizon).after (sentLate.take 3)).2.client.broken = [⟨1⟩] := by decide +kernel
    have none := whole slowest (fresh slowest .horizon) (sentLate.take 3) (by rfl) (by decide +kernel)
    rw [broken] at none
    cases none
  · intro whole
    have broken : ((fresh unending .horizon).after connectedOnce).2.client.broken = [⟨1⟩] := by decide +kernel
    have none := whole unending (fresh unending .horizon) connectedOnce (by rfl) (by decide +kernel)
    rw [broken] at none
    cases none

end Run

end PolicyClient
