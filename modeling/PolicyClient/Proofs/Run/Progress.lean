/-
# PolicyClient.Proofs.Run.Progress -- how a batch under way goes on

A dispatch goes from one attempt to the next: it begins an attempt with the items that
still wait, sends them as soon as it is connected, reads replies, and backs off when the
attempt fails for the moment (`Client.FailsAttempt`) and may be made again.
`Client.Moves` lists these moves with the events that bring them about, and every dispatch
that is under way after an event stays as it was, is new, or has made one of them
(`Run.mem_step_dispatches`).

Two invariants follow.  The attempts never exceed the retry budget by more than one
(`Run.Within`), and the error that an attempt keeps as its last one is that of the last
retryable failure it has read (`Run.Heard`).
-/
import PolicyClient.Proofs.Client.Closing
import PolicyClient.Proofs.Run.Outcomes

namespace PolicyClient

set_option autoImplicit false

/-- An attempt is to be begun at `now`: the dispatch is new, or has backed off long enough. -/
def Dispatch.IsDue (d : Dispatch) (now : Instant) : Prop :=
  d.phase = .queued ∨ ∃ wake, d.phase = .backingOff wake ∧ wake ≤ now

/-- The dispatch is new: it has not begun an attempt. -/
def Dispatch.IsNew (d : Dispatch) : Prop := d.phase = .queued ∧ d.attempts = 0

/-- An attempt that is to be made again has met an error, and something is left of it. -/
theorem Exchange.retry_of_ending {x : Exchange} {items rest : List Item} {e : Error}
    (ending : x.ending items = .retry rest e) : x.attempt.lastError = some e ∧ x.attempt.retry ≠ [] ∧
      rest = items.filter fun i => x.attempt.retry.contains i.token := by
  unfold Exchange.ending at ending
  split at ending
  · rename_i last met
    split at ending
    · cases ending
    · rename_i left
      cases ending
      exact ⟨met, fun none => left (List.isEmpty_iff.2 none), rfl⟩
  · cases ending

namespace Client

/-- The dispatch as it begins an attempt, with the items that still wait. -/
def begun (c : Client) (d : Dispatch) : Dispatch :=
  { d with
    items := d.items.filter fun i => c.correlator.isLive i.token
    attempts := d.attempts + 1
    started := c.now }

/-- The dispatch once its items are handed to the transport. -/
def sent (c : Client) (d : Dispatch) : Dispatch :=
  { d with phase := .reading (c.now + c.config.requestTimeout) { unanswered := d.items.map Item.token } }

/-- The items that are to be sent again. -/
def again (d : Dispatch) (retry : List Token) : List Item := d.items.filter fun i => retry.contains i.token

/-- The ways in which an event makes the present attempt of a dispatch fail for the moment:
the items that are left and the error. -/
inductive FailsAttempt (c : Client) (d : Dispatch) : Event → List Item → Error → Prop
  /-- No connection is made. -/
  | unconnected (e : Error) (passing : e.isFatal = false) (phase : d.phase = .connecting) :
    FailsAttempt c d (.connected d.id (.error e)) d.items e
  /-- The replies end, and something that was read is to be sent again. -/
  | streamEnd (deadline : Instant) (a : Attempt) (phase : d.phase = .reading deadline a)
      (left : a.retry ≠ []) (e : Error) (last : a.lastError = some e) :
    FailsAttempt c d (.streamEnd d.id) (again d a.retry) e
  /-- The deadline passes before everything is answered. -/
  | overdue (deadline : Instant) (a : Attempt) (phase : d.phase = .reading deadline a)
      (passed : deadline ≤ c.now) (left : a.retry ++ a.unanswered ≠ []) :
    FailsAttempt c d (.deadline d.id) (again d (a.retry ++ a.unanswered))
      (.deadlineExceeded c.config.requestTimeout)

/-- The moves of a dispatch, each with the event that brings it about. -/
inductive Moves (c : Client) : Event → Dispatch → Dispatch → Prop
  | connects (d : Dispatch) (due : d.IsDue c.now) (healthy : Bool) :
    Moves c (.due d.id healthy) d { c.begun d with phase := .connecting }
  | begins (d : Dispatch) (due : d.IsDue c.now) :
    Moves c (.due d.id true) d (c.sent (c.begun d))
  | sends (d : Dispatch) (phase : d.phase = .connecting) :
    Moves c (.connected d.id (.ok ())) d (c.sent d)
  | reads (d : Dispatch) (deadline : Instant) (a : Attempt) (phase : d.phase = .reading deadline a)
      (reply : Reply) (x : Exchange) (read : Exchange.read ⟨a, c.correlator, c.stats⟩ reply = .ok x) :
    Moves c (.reply d.id reply) d { d with phase := .reading deadline x.attempt }
  | backsOff (d : Dispatch) (event : Event) (rest : List Item) (e : Error)
      (fails : FailsAttempt c d event rest e) (affordable : d.attempts ≤ c.config.retryBudget)
      (wait : Duration) (delay : c.config.backoff.wait? (d.attempts - 1) c.chance = some wait) :
    Moves c event d { d with items := rest, phase := .backingOff (c.now + wait) }

variable {c : Client}

/-! ## The ways in which an attempt fails -/

/-- The replies to `d` end and leave something to be sent again. -/
theorem Sound.failsAttempt_of_streamEnd (h : c.Sound) {d : Dispatch} (member : d ∈ c.dispatches)
    {deadline : Instant} {a : Attempt} (phase : d.phase = .reading deadline a) {rest : List Item} {e : Error}
    (ending : (Exchange.endOfStream ⟨a, c.correlator, c.stats⟩).ending d.items = .retry rest e) :
    FailsAttempt c d (.streamEnd d.id) rest e := by
  have coherent := (h.accounts d member deadline a phase c.stats).coherent
  obtain ⟨-, retry, last⟩ := Exchange.foldl_leaveUnanswered a.unanswered coherent
  rw [← Exchange.endOfStream_eq] at retry last
  obtain ⟨met, left, rfl⟩ := Exchange.retry_of_ending ending
  rw [retry] at left ⊢
  rw [last] at met
  exact .streamEnd deadline a phase left e met

/-- The deadline of `d` passes before everything is answered. -/
theorem failsAttempt_of_deadline {d : Dispatch} {deadline : Instant} {a : Attempt}
    (phase : d.phase = .reading deadline a) (passed : deadline ≤ c.now) {rest : List Item} {e : Error}
    (ending : (Exchange.passDeadline ⟨a, c.correlator, c.stats⟩ c.config.requestTimeout).ending d.items =
      .retry rest e) :
    FailsAttempt c d (.deadline d.id) rest e := by
  obtain ⟨met, left, rfl⟩ := Exchange.retry_of_ending ending
  cases met
  exact .overdue deadline a phase passed left

/-! ## Who is under way after a function -/

theorem mem_finish {b : BatchId} {e : Dispatch} (member : e ∈ (c.finish b).dispatches) :
    e ∈ c.dispatches ∧ e.id ≠ b := by
  obtain ⟨before, other⟩ := List.mem_filter.1 member
  exact ⟨before, by simpa using other⟩

theorem mem_send {d e : Dispatch} (member : e ∈ (c.send d).2.dispatches) :
    e = c.sent d ∨ (e ∈ c.dispatches ∧ e.id ≠ d.id) := by
  simp only [send] at member
  split at member
  · exact .inr (mem_finish member)
  · exact mem_keep _ member

theorem mem_beginAttempt {d e : Dispatch} {healthy : Bool}
    (member : e ∈ (c.beginAttempt d healthy).2.dispatches) :
    e = { c.begun d with phase := .connecting } ∨ (healthy = true ∧ e = c.sent (c.begun d)) ∨
      (e ∈ c.dispatches ∧ e.id ≠ d.id) := by
  simp only [beginAttempt] at member
  split at member
  · exact .inr (.inr (mem_finish member))
  · split at member
    · exact .inr (.inr (mem_finish member))
    · split at member
      · rename_i ready
        have healthy : healthy = true := (Bool.and_eq_true_iff.1 ready).2
        exact .inr ((mem_send member).imp_left fun new => ⟨healthy, new⟩)
      · exact (mem_keep _ member).imp_right .inr

theorem mem_onTransientFailure {d e' : Dispatch} {rest : List Item} {e : Error}
    (member : e' ∈ (c.onTransientFailure d rest e).dispatches) :
    (d.attempts ≤ c.config.retryBudget ∧ ∃ wait, c.config.backoff.wait? (d.attempts - 1) c.chance = some wait ∧
        e' = { d with items := rest, phase := .backingOff (c.now + wait) }) ∨
      (e' ∈ c.dispatches ∧ e'.id ≠ d.id) := by
  unfold onTransientFailure at member
  split at member
  · exact .inr (mem_finish member)
  · exact .inr (mem_finish member)
  · dsimp only at member
    split at member
    · exact .inr (mem_finish member)
    · rename_i affordable
      split at member
      · exact .inr (mem_finish member)
      · rename_i wait delay
        exact (mem_keep _ member).imp_left fun new => ⟨Nat.le_of_not_lt affordable, wait, delay, new⟩

/-- Of the endings of an attempt only a failure for the moment lets the dispatch go on. -/
theorem mem_onEnding {d e' : Dispatch} {ending : AttemptEnding}
    (member : e' ∈ (c.onEnding d ending).dispatches) :
    (∃ rest e, ending = .retry rest e ∧ d.attempts ≤ c.config.retryBudget ∧
        ∃ wait, c.config.backoff.wait? (d.attempts - 1) c.chance = some wait ∧
          e' = { d with items := rest, phase := .backingOff (c.now + wait) }) ∨
      (e' ∈ c.dispatches ∧ e'.id ≠ d.id) := by
  cases ending with
  | settled => exact .inr (mem_finish member)
  | fatal e =>
    obtain ⟨before, other⟩ := mem_finish member
    refine .inr ⟨?_, other⟩
    unfold closeWith at before
    split at before <;> exact before
  | retry rest e =>
    refine (mem_onTransientFailure member).imp_left ?_
    rintro ⟨affordable, next⟩
    exact ⟨rest, e, rfl, affordable, next⟩

theorem mem_departure {e : Dispatch} (member : e ∈ c.departure.2.dispatches) :
    e ∈ c.dispatches ∨ e.IsNew := by
  refine (List.mem_append.1 member).imp_right fun new => ?_
  rw [List.mem_singleton.1 new]
  exact ⟨rfl, rfl⟩

theorem mem_flush {e : Dispatch} (member : e ∈ c.flush.2.dispatches) : e ∈ c.dispatches ∨ e.IsNew := by
  unfold flush at member
  split at member
  · exact .inl member
  · exact mem_departure member

theorem mem_onFlushTimer {b : BatchId} {e : Dispatch} (member : e ∈ (c.onFlushTimer b).2.dispatches) :
    e ∈ c.dispatches ∨ e.IsNew := by
  simp only [onFlushTimer] at member
  split at member
  · exact mem_flush (c := { c with timers := c.timers.filter fun t => t.batch ≠ b }) member
  · exact .inl member

theorem mem_enqueue {t : Token} {request : Request} {prefill : Prefill} {e : Dispatch}
    (member : e ∈ (c.enqueue t request prefill).2.2.dispatches) : e ∈ c.dispatches ∨ e.IsNew := by
  obtain ⟨before, c₁, after, c₂, room, entry, result⟩ := c.enqueue_cases t request prefill
  have origin : e ∈ c₁.dispatches → e ∈ c.dispatches ∨ e.IsNew := fun member => by
    cases room with
    | stays => exact .inl member
    | leaves => exact mem_departure member
  rw [result] at member
  cases entry with
  | fills => exact (mem_departure member).elim origin .inr
  | opens => exact origin member
  | joins => exact origin member

theorem mem_submit {request : Request} {e : Dispatch}
    (member : e ∈ (c.submit request).2.2.dispatches) : e ∈ c.dispatches ∨ e.IsNew := by
  cases c.submission request with
  | refused reason closed result =>
    rw [result] at member
    exact .inl member
  | decided running store cache all result =>
    rw [result] at member
    exact .inl member
  | enters running result =>
    rw [result] at member
    exact mem_enqueue (c := c.consulted request) member

theorem mem_close {e : Dispatch} (member : e ∈ c.close.2.dispatches) : e ∈ c.dispatches ∨ e.IsNew := by
  refine (mem_flush member).imp_left fun before => ?_
  unfold closeWith at before
  split at before <;> exact before

/-! ## Events of a dispatch -/

/-- A dispatch under way is found under its own id. -/
theorem Sound.dispatch?_of_mem (h : c.Sound) {d : Dispatch} (member : d ∈ c.dispatches) :
    c.dispatch? d.id = some d := by
  cases found : c.dispatch? d.id with
  | none => exact absurd (List.find?_eq_none.1 found d member) (by simp)
  | some d' =>
    obtain ⟨member', same⟩ := mem_of_dispatch? found
    rw [h.unique member' member same]

theorem mem_onDue {b : BatchId} {healthy : Bool} {e : Dispatch}
    (member : e ∈ (c.onDue b healthy).2.dispatches) :
    e ∈ c.dispatches ∨ ∃ d ∈ c.dispatches, Moves c (.due b healthy) d e := by
  unfold onDue at member
  split at member
  · rename_i d under
    obtain ⟨held, rfl⟩ := Sound.mem_of_dispatch? under
    have goes : d.IsDue c.now → e ∈ (c.beginAttempt d healthy).2.dispatches →
        e ∈ c.dispatches ∨ ∃ d' ∈ c.dispatches, Moves c (.due d.id healthy) d' e := by
      intro due member
      rcases mem_beginAttempt member with rfl | ⟨rfl, rfl⟩ | ⟨before, -⟩
      · exact .inr ⟨d, held, .connects d due healthy⟩
      · exact .inr ⟨d, held, .begins d due⟩
      · exact .inl before
    split at member
    · rename_i phase
      exact goes (.inl phase) member
    · rename_i wake phase
      split at member
      · rename_i passed
        exact goes (.inr ⟨wake, phase, passed⟩) member
      · exact .inl member
    · exact .inl member
  · exact .inl member

theorem mem_onConnect {b : BatchId} {result : Except Error Unit} {e' : Dispatch}
    (member : e' ∈ (c.onConnect b result).2.dispatches) :
    e' ∈ c.dispatches ∨ ∃ d ∈ c.dispatches, Moves c (.connected b result) d e' := by
  unfold onConnect at member
  split at member
  · rename_i d under
    obtain ⟨held, rfl⟩ := Sound.mem_of_dispatch? under
    split at member
    · rename_i phase
      split at member
      · rcases mem_send member with rfl | ⟨before, -⟩
        · exact .inr ⟨d, held, .sends d phase⟩
        · exact .inl before
      · rename_i e
        rcases mem_onEnding member with ⟨rest, e', ending, affordable, wait, delay, rfl⟩ | ⟨before, -⟩
        · split at ending
          · cases ending
          · rename_i passing
            cases ending
            exact .inr ⟨d, held, .backsOff d _ _ _
              (.unconnected e (Bool.eq_false_iff.2 passing) phase) affordable wait delay⟩
        · exact .inl before
    · exact .inl member
  · exact .inl member

theorem mem_onReply (sound : c.Sound) {b : BatchId} {reply : Reply} {e' : Dispatch}
    (member : e' ∈ (c.onReply b reply).dispatches) :
    (e' ∈ c.dispatches ∧ (e'.id = b → ∀ deadline a, e'.phase ≠ .reading deadline a)) ∨
      ∃ d ∈ c.dispatches, Moves c (.reply b reply) d e' := by
  unfold onReply at member
  split at member
  · rename_i d under
    obtain ⟨held, rfl⟩ := Sound.mem_of_dispatch? under
    split at member
    · rename_i deadline a phase
      split at member
      · rename_i x read
        rcases mem_keep _ member with rfl | ⟨before, other⟩
        · exact .inr ⟨d, held, .reads d deadline a phase reply x read⟩
        · exact .inl ⟨before, fun same => absurd same other⟩
      · rcases mem_onEnding member with ⟨rest, e', ending, -⟩ | ⟨before, other⟩
        · cases ending
        · exact .inl ⟨before, fun same => absurd same other⟩
    · rename_i idle
      refine .inl ⟨member, fun same => ?_⟩
      rw [sound.unique member held same]
      exact idle
  · rename_i absent
    exact .inl ⟨member, fun same => by simpa [same] using List.find?_eq_none.1 absent e' member⟩

theorem mem_onStreamEnd (sound : c.Sound) {b : BatchId} {e' : Dispatch}
    (member : e' ∈ (c.onStreamEnd b).dispatches) :
    e' ∈ c.dispatches ∨ ∃ d ∈ c.dispatches, Moves c (.streamEnd b) d e' := by
  unfold onStreamEnd at member
  split at member
  · rename_i d under
    obtain ⟨held, rfl⟩ := Sound.mem_of_dispatch? under
    split at member
    · rename_i deadline a phase
      rcases mem_onEnding member with ⟨rest, e, ending, affordable, wait, delay, rfl⟩ | ⟨before, -⟩
      · have fails := sound.failsAttempt_of_streamEnd held phase ending
        exact .inr ⟨d, held, .backsOff d _ _ _ fails affordable wait delay⟩
      · exact .inl before
    · exact .inl member
  · exact .inl member

theorem mem_onDeadline {b : BatchId} {e' : Dispatch} (member : e' ∈ (c.onDeadline b).dispatches) :
    e' ∈ c.dispatches ∨ ∃ d ∈ c.dispatches, Moves c (.deadline b) d e' := by
  unfold onDeadline at member
  split at member
  · rename_i d under
    obtain ⟨held, rfl⟩ := Sound.mem_of_dispatch? under
    split at member
    · rename_i deadline a phase
      split at member
      · rename_i passed
        rcases mem_onEnding member with ⟨rest, e, ending, affordable, wait, delay, rfl⟩ | ⟨before, -⟩
        · have fails := failsAttempt_of_deadline phase passed ending
          exact .inr ⟨d, held, .backsOff d _ _ _ fails affordable wait delay⟩
        · exact .inl before
      · exact .inl member
    · exact .inl member
  · exact .inl member

end Client

namespace Run

/-- Where a dispatch comes from that is under way after an event. -/
inductive Comes (r : Run) (event : Event) (d' : Dispatch) : Prop
  | stays (before : d' ∈ r.client.dispatches)
      (unread : ∀ reply, event = .reply d'.id reply → ∀ deadline a, d'.phase ≠ .reading deadline a)
  | new (new : d'.IsNew)
  | moves (d : Dispatch) (before : d ∈ r.client.dispatches) (moves : r.client.Moves event d d')

/-- **Every dispatch under way** after an event stays as it was, is new or has made one of
the known moves. -/
theorem mem_step_dispatches {r : Run} (sound : r.client.Sound) {event : Event} {d' : Dispatch}
    (member : d' ∈ (r.step event).2.client.dispatches) : Comes r event d' := by
  -- But for replies a dispatch that is there before and after may have stayed as it was.
  have plain : (∀ b reply, event ≠ .reply b reply) → d' ∈ r.client.dispatches → Comes r event d' :=
    fun other before => .stays before fun reply same => absurd same (other _ reply)
  have goes : (∀ b reply, event ≠ .reply b reply) →
      (d' ∈ r.client.dispatches ∨ ∃ d ∈ r.client.dispatches, r.client.Moves event d d') → Comes r event d' := by
    rintro other (before | ⟨d, before, moves⟩)
    · exact plain other before
    · exact .moves d before moves
  have handle := r.step_ofHandle event
  cases event with
  | submit request => exact (Client.mem_submit member).elim (plain (by simp)) .new
  | flush => exact (Client.mem_flush member).elim (plain (by simp)) .new
  | close => exact (Client.mem_close member).elim (plain (by simp)) .new
  | flushTimer b =>
    simp only [step] at member
    split at member
    · exact (Client.mem_onFlushTimer member).elim (plain (by simp)) .new
    · exact plain (by simp) member
  | poll t | cancel t | drop t | expire t =>
    obtain ⟨k, same⟩ := handle trivial
    rw [same] at member
    exact plain (by simp) member
  | abandon =>
    refine plain (by simp) ?_
    simp only [step, update, Client.abandon] at member
    split at member <;> exact member
  | link up => exact plain (by simp) member
  | startTimer b => exact plain (by simp) member
  | draw share => exact plain (by simp) member
  | elapse d => exact plain (by simp) member
  | age d => exact plain (by simp) member
  | due b healthy => exact goes (by simp) (Client.mem_onDue member)
  | connected b result => exact goes (by simp) (Client.mem_onConnect member)
  | streamEnd b => exact goes (by simp) (Client.mem_onStreamEnd sound member)
  | deadline b => exact goes (by simp) (Client.mem_onDeadline member)
  | reply b reply =>
    rcases Client.mem_onReply sound member with ⟨before, unread⟩ | ⟨d, before, moves⟩
    · refine .stays before fun reply' same => unread ?_
      cases same
      rfl
    · exact .moves d before moves

/-! ## The retry budget -/

end Run

/-- Between attempts no more of them are made than the budget has re-sends; under way there
may be one more. -/
def Dispatch.Within (budget : Nat) (d : Dispatch) : Prop :=
  match d.phase with
  | .queued | .backingOff _ => d.attempts ≤ budget
  | .connecting | .reading _ _ => d.attempts ≤ budget + 1

theorem Dispatch.Within.of_due {budget : Nat} {d : Dispatch} (h : d.Within budget) {now : Instant}
    (due : d.IsDue now) : d.attempts ≤ budget := by
  unfold Within at h
  rcases due with phase | ⟨wake, phase, -⟩
  · rw [phase] at h
    exact h
  · rw [phase] at h
    exact h

theorem Dispatch.Within.le {budget : Nat} {d : Dispatch} (h : d.Within budget) : d.attempts ≤ budget + 1 := by
  unfold Within at h
  split at h <;> omega

theorem Client.Moves.within {c : Client} {event : Event} {d d' : Dispatch} (moves : c.Moves event d d')
    (h : d.Within c.config.retryBudget) : d'.Within c.config.retryBudget := by
  cases moves with
  | connects d due healthy => exact Nat.succ_le_succ (h.of_due due)
  | begins d due => exact Nat.succ_le_succ (h.of_due due)
  | sends d phase =>
    unfold Dispatch.Within at h
    rw [phase] at h
    exact h
  | reads d deadline a phase =>
    unfold Dispatch.Within at h
    rw [phase] at h
    exact h
  | backsOff d event rest e fails affordable wait delay => exact affordable

namespace Run

/-- Every dispatch under way keeps within the retry budget. -/
def Within (r : Run) : Prop := ∀ d ∈ r.client.dispatches, d.Within r.client.config.retryBudget

theorem Within.step {r : Run} (h : r.Within) (sound : r.client.Sound) (event : Event) :
    (r.step event).2.Within := by
  intro d' member
  rw [step_config]
  cases mem_step_dispatches sound member with
  | stays before unread => exact h d' before
  | new new =>
    obtain ⟨phase, attempts⟩ := new
    simp [Dispatch.Within, phase, attempts]
  | moves d before moves => exact moves.within (h d before)

theorem Within.after {r : Run} (h : r.Within) (sound : r.client.Sound) (events : List Event) :
    (r.after events).2.Within :=
  (after_keeps (P := fun r => r.client.Sound ∧ r.Within)
    (fun _ event ⟨sound, h⟩ => ⟨(step_sound sound event).1, h.step sound event⟩) ⟨sound, h⟩ events).2

theorem fresh_within (config : Config) (horizon : Instant) : (fresh config horizon).Within := nofun

/-! ## The last error of an attempt -/

end Run

/-- Whether replies are read to `b` in its attempt number `n`. -/
def Client.Reads (c : Client) (b : BatchId) (n : Nat) : Prop :=
  ∃ d deadline a, c.dispatch? b = some d ∧ d.phase = .reading deadline a ∧ d.attempts = n

/-- A retryable failure becomes the last error of the attempt that reads it; no other reply does. -/
theorem Exchange.lastError_read {items : List Item} {x x' : Exchange} (h : Tallied items x) {reply : Reply}
    (read : x.read reply = .ok x') :
    (∃ tokens e, reply = .failed tokens e ∧ e.isRetryable = true ∧ x'.attempt.lastError = some e) ∨
      ((∀ tokens e, reply = .failed tokens e → e.isRetryable = false) ∧
        x'.attempt.lastError = x.attempt.lastError) := by
  cases reply with
  | result t answer =>
    cases read
    refine .inr ⟨nofun, ?_⟩
    unfold Exchange.readResult
    split <;> rfl
  | unmatched detail =>
    cases read
    exact .inr ⟨nofun, rfl⟩
  | failed tokens e =>
    have same := (foldl_readFailure_suffers e tokens h).lastError
    simp only [Exchange.read] at read
    split at read
    · cases read
    · cases read
      by_cases again : e.isRetryable = true
      · rw [if_pos again]
        exact .inl ⟨tokens, e, rfl, again, rfl⟩
      · rw [if_neg again]
        refine .inr ⟨fun tokens' e' named => ?_, same⟩
        cases named
        exact Bool.eq_false_iff.2 again

namespace Run

/-- In its attempt number `n` the dispatch of `b` has read a retryable failure with `e`, and
none after it. -/
def Heard (r₀ : Run) (events : List Event) (b : BatchId) (n : Nat) (e : Error) : Prop :=
  ∃ early tokens late, events = early ++ .reply b (.failed tokens e) :: late ∧ e.isRetryable = true ∧
    (r₀.after early).2.client.Reads b n ∧
    ∀ tokens' e', .reply b (.failed tokens' e') ∈ late → e'.isRetryable = false

theorem Heard.append {r₀ : Run} {events : List Event} {b : BatchId} {n : Nat} {e : Error}
    (h : r₀.Heard events b n e) {event : Event}
    (other : ∀ tokens e', event = .reply b (.failed tokens e') → e'.isRetryable = false) :
    r₀.Heard (events ++ [event]) b n e := by
  obtain ⟨early, tokens, late, rfl, again, reads, last⟩ := h
  refine ⟨early, tokens, late ++ [event], by simp, again, reads, ?_⟩
  intro tokens' e' member
  rcases List.mem_append.1 member with before | new
  · exact last tokens' e' before
  · exact other tokens' e' (List.mem_singleton.1 new).symm

/-- **The last error of an attempt** is that of the last retryable failure it has read. -/
theorem lastError_heard {r₀ : Run} (sound₀ : r₀.Sound) (idle : r₀.client.dispatches = [])
    {events : List Event} {d : Dispatch} (member : d ∈ (r₀.after events).2.client.dispatches)
    {deadline : Instant} {a : Attempt} (phase : d.phase = .reading deadline a) {e : Error}
    (last : a.lastError = some e) : r₀.Heard events d.id d.attempts e := by
  induction events using List.reverseRecOn generalizing d deadline a e with
  | nil =>
    rw [after_nil, idle] at member
    cases member
  | append_singleton events event ih =>
    have sound := (sound₀.after events).client
    rw [after_snoc] at member
    cases mem_step_dispatches sound member with
    | stays before unread =>
      exact (ih before phase last).append fun tokens e' same => absurd phase (unread _ same _ _)
    | new new =>
      rw [new.1] at phase
      cases phase
    | moves d₀ before moves =>
      cases moves with
      | connects d₀ due healthy => cases phase
      | begins d₀ due =>
        cases phase
        cases last
      | sends d₀ phase₀ =>
        cases phase
        cases last
      | reads d₀ deadline₀ a₀ phase₀ reply x read =>
        cases phase
        have tallied := (sound.accounts d₀ before deadline a₀ phase₀ (r₀.after events).2.client.stats).toTallied
        rcases Exchange.lastError_read tallied read with ⟨tokens, e', rfl, again, met⟩ | ⟨other, same⟩
        · cases met.symm.trans last
          refine ⟨events, tokens, [], rfl, again, ⟨d₀, deadline, a₀, ?_, phase₀, rfl⟩, nofun⟩
          exact sound.dispatch?_of_mem before
        · have heard := ih before phase₀ (same.symm.trans last)
          refine heard.append fun tokens e' named => other tokens e' ?_
          cases named
          rfl
      | backsOff d₀ event rest e' fails affordable wait delay => cases phase

end Run

end PolicyClient
