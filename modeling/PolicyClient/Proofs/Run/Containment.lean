/-
# PolicyClient.Proofs.Run.Containment -- failures stay inside their batch

Checks fail together: with a batch whose last attempt fails, or with the session.
`Run.Cause` lists everything that can fail a check, and each cause lies with its own caller,
with its own batch or with the closing of the session.  So as long as the session is open no
reply to another batch, no failure of one and no withdrawal of another check can fail it.

The step is `Run.step_fate`: a check that waits goes on waiting, or an outcome is there for
it, and an outcome that is an error has a cause.  `Run.failures_contained` is the whole
history: the first outcome that a caller is told, if it is an error, goes back to its cause.
-/
import PolicyClient.Proofs.Client.Flow
import PolicyClient.Proofs.Run.Closing
import PolicyClient.Proofs.Run.Progress

namespace PolicyClient

set_option autoImplicit false

/-- Whether an event is about the check under `t` or about its batch `b`. -/
def Event.Concerns (t : Token) (b : BatchId) : Event → Prop
  | .cancel t' | .drop t' | .expire t' _ => t' = t
  | .connected b' _ | .reply b' _ | .streamEnd b' | .deadline b' => b' = b
  | _ => False

/-! ## What the end of an attempt leaves -/

namespace Client

/-- What is left for the checks when an attempt of `d` ends and the session stays open: the
failure of the whole batch, if the attempt is to be made again and there is none left. -/
def lastStraw (c : Client) (d : Dispatch) : AttemptEnding → Waiter → Option Mail
  | .retry _ e, w =>
    if w.batch = d.id ∧ c.config.retryBudget < d.attempts then
      some (.delivered (.error (.unavailable d.attempts e)))
    else none
  | _, _ => none

/-- The batch of a check that waits as `w` is given up: its present attempt fails for the
moment and is the last that the budget allows. -/
inductive GivesUp (c : Client) (event : Event) (w : Waiter) : Mail → Prop
  | exhausted (d : Dispatch) (member : d ∈ c.dispatches) (batch : w.batch = d.id) (rest : List Item)
      (e : Error) (fails : c.FailsAttempt d event rest e) (spent : c.config.retryBudget < d.attempts) :
    GivesUp c event w (.delivered (.error (.unavailable d.attempts e)))

variable {c : Client}

theorem onTransientFailure_settles (h : c.correlator.Coherent) (d : Dispatch) (rest : List Item) (e : Error)
    (running : (c.onTransientFailure d rest e).lifecycle.state ≠ .closed) :
    c.correlator.Settles (fun _ => c.lastStraw d (.retry rest e))
      (c.onTransientFailure d rest e).correlator := by
  have reckons := c.lifecycle.onFailure_reckons c.now d.started c.config.failureLimit e.message
  unfold onTransientFailure at running ⊢
  generalize c.lifecycle.onFailure c.now d.started c.config.failureLimit e.message = outcome at reckons running ⊢
  obtain ⟨outcome, l⟩ := outcome
  cases outcome with
  | closed reason =>
    cases reckons
    exact absurd (Lifecycle.moveTo_state ..) running
  | alreadyClosed =>
    cases reckons
    rename_i closed
    exact absurd closed running
  | degraded =>
    dsimp only
    by_cases spent : c.config.retryBudget < d.attempts
    · rw [if_pos spent]
      exact (Correlator.failBatch_settles h d.id _).congr fun t w _ => by simp [lastStraw, spent]
    · rw [if_neg spent]
      have none : c.correlator.Settles (fun _ => c.lastStraw d (.retry rest e)) c.correlator :=
        .of_none h fun t w _ => by simp [lastStraw, spent]
      split
      · exact none
      · exact none

theorem closeWith_closed (c : Client) (reason : String) (e : Error) :
    (c.closeWith reason e).lifecycle.state = .closed := by
  by_cases closed : c.lifecycle.state = .closed
  · rw [closeWith, Lifecycle.close_of_closed closed]
    exact closed
  · rw [closeWith, Lifecycle.close_of_open closed]
    exact Lifecycle.moveTo_state ..

theorem onEnding_settles (h : c.correlator.Coherent) (d : Dispatch) (ending : AttemptEnding)
    (running : (c.onEnding d ending).lifecycle.state ≠ .closed) :
    c.correlator.Settles (fun _ => c.lastStraw d ending) (c.onEnding d ending).correlator := by
  cases ending with
  | settled => exact .of_none h fun t w _ => rfl
  | fatal e => exact absurd (c.closeWith_closed e.message e) running
  | retry rest e => exact onTransientFailure_settles h d rest e running

/-- What is left for a check by an ending is that its batch is given up. -/
theorem givesUp_of_lastStraw {d : Dispatch} (member : d ∈ c.dispatches) {event : Event}
    {ending : AttemptEnding} (fails : ∀ rest e, ending = .retry rest e → c.FailsAttempt d event rest e)
    {w : Waiter} {m : Mail} (left : c.lastStraw d ending w = some m) : c.GivesUp event w m := by
  cases ending with
  | settled => cases left
  | fatal e => cases left
  | retry rest e =>
    unfold lastStraw at left
    dsimp only at left
    split at left
    · rename_i spent
      cases left
      exact .exhausted d member spent.1 rest e (fails rest e rfl) spent.2
    · cases left

variable {t : Token} {w : Waiter}

theorem onConnect_either (h : c.Sound) (found : c.correlator.waiters.get? t = some w) (b : BatchId)
    (result : Except Error Unit) (running : (c.onConnect b result).2.lifecycle.state ≠ .closed) :
    (c.onConnect b result).2.correlator.waiters.get? t = some w ∨
      ((c.onConnect b result).2.correlator.waiters.get? t = none ∧
        c.GivesUp (.connected b result) w ((c.onConnect b result).2.correlator.readMail w.slot)) := by
  cases result with
  | ok done =>
    left
    rw [(c.onConnect_flows b).correlator]
    exact found
  | error e =>
    unfold onConnect at running ⊢
    cases under : c.dispatch? b with
    | none => exact .inl found
    | some d =>
      obtain ⟨member, rfl⟩ := Sound.mem_of_dispatch? under
      cases phase : d.phase with
      | connecting =>
        simp only [under, phase] at running ⊢
        refine ((onEnding_settles h.coherent d _ running).either found).imp_right fun ⟨gone, left⟩ => ⟨gone, ?_⟩
        refine givesUp_of_lastStraw member (fun rest e' ending => ?_) left
        split at ending
        · cases ending
        · rename_i passing
          cases ending
          exact .unconnected e (Bool.eq_false_iff.2 passing) phase
      | _ =>
        simp only [phase]
        exact .inl found

theorem onDeadline_either (h : c.Sound) (found : c.correlator.waiters.get? t = some w) (b : BatchId)
    (running : (c.onDeadline b).lifecycle.state ≠ .closed) :
    (c.onDeadline b).correlator.waiters.get? t = some w ∨
      ((c.onDeadline b).correlator.waiters.get? t = none ∧
        c.GivesUp (.deadline b) w ((c.onDeadline b).correlator.readMail w.slot)) := by
  unfold onDeadline at running ⊢
  cases under : c.dispatch? b with
  | none => exact .inl found
  | some d =>
    obtain ⟨member, rfl⟩ := Sound.mem_of_dispatch? under
    cases phase : d.phase with
    | reading deadline a =>
      by_cases passed : deadline ≤ c.now
      · simp only [under, phase, if_pos passed] at running ⊢
        let x := Exchange.passDeadline ⟨a, c.correlator, c.stats⟩ c.config.requestTimeout
        have settles := onEnding_settles (c := c.settle x) h.coherent d (x.ending d.items) running
        refine (settles.either found).imp_right fun ⟨gone, left⟩ => ⟨gone, ?_⟩
        exact givesUp_of_lastStraw member
          (fun rest e ending => failsAttempt_of_deadline phase passed ending) left
      · simp only [phase, if_neg passed]
        exact .inl found
    | _ =>
      simp only [phase]
      exact .inl found

/-- What the end of a stream leaves for a check: its failure for having no answer, or that of its batch. -/
theorem onStreamEnd_either (h : c.Sound) (found : c.correlator.waiters.get? t = some w) (b : BatchId)
    (running : (c.onStreamEnd b).lifecycle.state ≠ .closed) :
    (c.onStreamEnd b).correlator.waiters.get? t = some w ∨
      ((c.onStreamEnd b).correlator.waiters.get? t = none ∧
        ((c.awaits b t = true ∧ (c.onStreamEnd b).correlator.readMail w.slot =
            .delivered (.error (.protocolViolation (.unanswered t)))) ∨
          c.GivesUp (.streamEnd b) w ((c.onStreamEnd b).correlator.readMail w.slot))) := by
  unfold onStreamEnd at running ⊢
  cases under : c.dispatch? b with
  | none => exact .inl found
  | some d =>
    obtain ⟨member, rfl⟩ := Sound.mem_of_dispatch? under
    cases phase : d.phase with
    | reading deadline a =>
      simp only [under, phase] at running ⊢
      let x := Exchange.endOfStream ⟨a, c.correlator, c.stats⟩
      have first := Exchange.endOfStream_settles (x := ⟨a, c.correlator, c.stats⟩) h.coherent
      have second := onEnding_settles (c := c.settle x) first.coherent d (x.ending d.items) running
      refine ((first.trans h.coherent second).either found).imp_right fun ⟨gone, left⟩ => ⟨gone, ?_⟩
      by_cases open_ : t ∈ a.unanswered
      · have awaits := (c.awaits_iff d.id t).2 ⟨d, deadline, a, under, phase, open_⟩
        rw [if_pos open_, Option.some_or, Option.some.injEq] at left
        exact .inl ⟨awaits, left.symm⟩
      · rw [if_neg open_, Option.none_or] at left
        exact .inr (givesUp_of_lastStraw member
          (fun rest e ending => h.failsAttempt_of_streamEnd member phase ending) left)
    | _ =>
      simp only [phase]
      exact .inl found

/-- What a reply that is no result leaves for a check: the failure that it names it with. -/
theorem onReply_either (h : c.Sound) (found : c.correlator.waiters.get? t = some w) (b : BatchId)
    {reply : Reply} (other : ∀ t r, reply ≠ .result t r)
    (running : (c.onReply b reply).lifecycle.state ≠ .closed) :
    (c.onReply b reply).correlator.waiters.get? t = some w ∨
      ((c.onReply b reply).correlator.waiters.get? t = none ∧ c.awaits b t = true ∧
        ∃ tokens e, reply = .failed tokens e ∧ t ∈ tokens ∧ e.isFatal = false ∧ e.isRetryable = false ∧
          (c.onReply b reply).correlator.readMail w.slot = .delivered (.error e)) := by
  unfold onReply at running ⊢
  cases under : c.dispatch? b with
  | none => exact .inl found
  | some d =>
    cases phase : d.phase with
    | reading deadline a =>
      cases read : Exchange.read ⟨a, c.correlator, c.stats⟩ reply with
      | error e =>
        simp only [under, phase, read] at running
        exact absurd (c.closeWith_closed e.message e) running
      | ok x =>
        simp only [phase, read]
        refine (Exchange.read_either h.coherent read other found).imp_right ?_
        rintro ⟨gone, tokens, e, same, named, open_, lasting, final, mail⟩
        have awaits := (c.awaits_iff b t).2 ⟨d, deadline, a, under, phase, open_⟩
        exact ⟨gone, awaits, tokens, e, same, named, lasting, final, mail⟩
    | _ =>
      simp only [phase]
      exact .inl found

end Client

namespace Run

/-! ## Causes -/

/-- Why a check fails with an error when an event happens: the check waits as `w` after the
history `before` of `r₀`. -/
inductive Cause (r₀ : Run) (before : List Event) (t : Token) (w : Waiter) : Event → Error → Prop
  /-- Its caller withdraws it. -/
  | withdrawn : Cause r₀ before t w (.cancel t) .cancelled
  /-- Its caller waits no longer. -/
  | expired (after : Duration) : Cause r₀ before t w (.expire t after) (.timeout after)
  /-- The session is closed, with this error. -/
  | shut (event : Event) (e : Error) (reason : String) (shut : (r₀.after before).2.ShutBy event e reason) :
    Cause r₀ before t w event e
  /-- An attempt of its own batch, in which it is unanswered, reads that it has failed for good. -/
  | rejected (tokens : List Token) (e : Error) (named : t ∈ tokens) (limited : e.isFatal = false)
      (final : e.isRetryable = false) (awaits : (r₀.after before).2.client.awaits w.batch t = true) :
    Cause r₀ before t w (.reply w.batch (.failed tokens e)) e
  /-- The replies to its own batch end, and it is unanswered. -/
  | unanswered (awaits : (r₀.after before).2.client.awaits w.batch t = true) :
    Cause r₀ before t w (.streamEnd w.batch) (.protocolViolation (.unanswered t))
  /-- The last attempt that the budget allows its own batch fails for the moment.  If the end of
  the replies is what ends it, the error is that of the last retryable failure it has read. -/
  | exhausted (event : Event) (d : Dispatch) (rest : List Item) (last : Error)
      (under : (r₀.after before).2.client.dispatch? w.batch = some d)
      (final : d.attempts = r₀.client.config.retryBudget + 1)
      (fails : (r₀.after before).2.client.FailsAttempt d event rest last)
      (heard : event = .streamEnd w.batch → r₀.Heard before w.batch d.attempts last) :
    Cause r₀ before t w event (.unavailable (r₀.client.config.retryBudget + 1) last)
  /-- The dispatch of its own batch has broken off, and nobody holds the client any more. -/
  | forsaken (broken : w.batch ∈ (r₀.after before).2.client.broken) : Cause r₀ before t w .abandon .cancelled

variable {config : Config} {horizon : Instant} {before : List Event} {t : Token} {w : Waiter}

/-- A session that is closed gives every check that waits its cause. -/
theorem Cause.of_shut {r₀ : Run} (sound : (r₀.after before).2.client.Sound)
    (found : (r₀.after before).2.client.correlator.waiters.get? t = some w) {event : Event} {e : Error}
    {reason : String} (shut : (r₀.after before).2.ShutBy event e reason) :
    r₀.Cause before t w event ((r₀.after before).2.partingError event e t) := by
  unfold partingError
  split
  · rename_i b
    split
    · rename_i awaits
      obtain rfl := sound.batch_of_awaits awaits found
      exact .unanswered awaits
    · exact .shut _ e reason shut
  · exact .shut event e reason shut

/-- A batch that is given up gives its checks their cause. -/
theorem Cause.of_givesUp {event : Event} {m : Mail}
    (up : ((fresh config horizon).after before).2.client.GivesUp event w m) :
    ∃ e, m = .delivered (.error e) ∧ (fresh config horizon).Cause before t w event e := by
  have sound₀ := fresh_sound_run config horizon
  have sound := (sound₀.after before).client
  have within := (fresh_within config horizon).after sound₀.client before
  have budget := config_after (fresh config horizon) before
  cases up with
  | exhausted d member batch rest last fails spent =>
    have most := within d member
    rw [budget] at most spent
    have final : d.attempts = (fresh config horizon).client.config.retryBudget + 1 := Nat.le_antisymm most.le spent
    refine ⟨_, rfl, ?_⟩
    rw [final]
    refine .exhausted event d rest last (batch ▸ sound.dispatch?_of_mem member) final fails ?_
    intro ends
    rw [batch] at ends ⊢
    subst ends
    cases fails with
    | streamEnd deadline a phase left e met => exact lastError_heard sound₀ rfl member phase met

/-! ## One event -/

/-- A handle that is held fits its call. -/
theorem Attended.fits {r : Run} (h : r.Attended) (sound : r.Sound) {call : Call}
    (held : r.calls.get? t = some call) : call.Fits r.client.correlator := by
  intro w found
  rw [sound.named t call held] at found
  cases held.symm.trans (h t w found)
  rfl

/-- A check is left alone by what a caller does with another handle. -/
theorem waits_of_only {k k' : Correlator} {t' : Token} {left : Waiter → Mail}
    (settles : k.Settles (Correlator.only t' left) k') (found : k.waiters.get? t = some w) (other : t' ≠ t) :
    k'.waiters.get? t = some w :=
  (settles.waits_iff t w).2 ⟨found, if_neg (Ne.symm other)⟩

theorem waits_of_held {r : Run} (sound : r.Sound) (found : r.client.correlator.waiters.get? t = some w)
    {t' : Token} (other : t' ≠ t) {call : Call} (held : r.calls.get? t' = some call) {left : Waiter → Mail}
    {k' : Correlator} (settles : r.client.correlator.Settles (Correlator.only call.token left) k') :
    k'.waiters.get? t = some w := by
  rw [sound.named t' call held] at settles
  exact waits_of_only settles found other

/-- A check goes on waiting whatever a caller does with the handle of another. -/
theorem Attended.waits_of_other {r : Run} (h : r.Attended) (sound : r.Sound)
    (found : r.client.correlator.waiters.get? t = some w) {event : Event} {t' : Token}
    (uses : event.Uses t') (other : t' ≠ t) :
    (r.step event).2.client.correlator.waiters.get? t = some w := by
  cases event with
  | poll t' =>
    simp only [Run.step]
    split
    · exact found
    · split <;> exact found
  | cancel t' =>
    obtain rfl : t' = _ := uses
    simp only [Run.step]
    split
    · exact found
    · rename_i call held
      exact waits_of_held sound found other held
        (Call.cancel_settles sound.client.coherent (h.fits sound held))
  | drop t' =>
    obtain rfl : t' = _ := uses
    simp only [Run.step]
    split
    · exact found
    · rename_i call held
      exact waits_of_held sound found other held
        (Call.drop_settles sound.client.coherent (h.fits sound held))
  | expire t' after =>
    obtain rfl : t' = _ := uses
    simp only [Run.step]
    split
    · exact found
    · rename_i call held
      exact waits_of_held sound found other held
        (Call.expire_settles sound.client.coherent (h.fits sound held) after)
  | _ => exact uses.elim

/-- A check goes on waiting whatever result is taken in for another. -/
theorem waits_of_result {r : Run} (found : r.client.correlator.waiters.get? t = some w)
    (coherent : r.client.correlator.Coherent) {b : BatchId} {t' : Token} {answer : Answer}
    (untaken : r.takesIn? t (.reply b (.result t' answer)) = none) :
    (r.client.onReply b (.result t' answer)).correlator.waiters.get? t = some w := by
  rw [Client.onReply_result]
  split
  · rename_i awaits
    refine waits_of_only (Correlator.resolve_settles coherent t' answer) found ?_
    rintro rfl
    simp [takesIn?, awaits] at untaken
  · exact found

/-- A client that is abandoned has nothing under way, so what waits is in a batch that broke off. -/
theorem broken_of_idle {c : Client} (sound : c.Sound)
    (idle : (c.openBatch.items.isEmpty && c.dispatches.isEmpty) = true)
    (found : c.correlator.waiters.get? t = some w) : w.batch ∈ c.broken := by
  rw [Bool.and_eq_true, List.isEmpty_iff, List.isEmpty_iff] at idle
  refine (sound.held t w found).resolve_right fun held => ?_
  rcases (c.mem_holdings_iff t w.batch).1 held with ⟨filling, -⟩ | ⟨d, member, -⟩
  · rw [idle.1] at filling
    cases filling
  · rw [idle.2] at member
    cases member

/-- What an event leaves for a check for which it takes in no result and whose handle it does
not use: the check goes on waiting, or it finds an error in its slot that has a cause. -/
theorem step_either (found : ((fresh config horizon).after before).2.client.correlator.waiters.get? t = some w)
    {event : Event} (untaken : ((fresh config horizon).after before).2.takesIn? t event = none)
    (other : ¬ event.Uses t) :
    let k := (((fresh config horizon).after before).2.step event).2.client.correlator
    k.waiters.get? t = some w ∨ (k.waiters.get? t = none ∧
      ∃ e, (k.readMail w.slot).outcome? = some (.error e) ∧ (fresh config horizon).Cause before t w event e) := by
  intro k
  have sound := (fresh_sound_run config horizon).after before
  have attended := (fresh_attended config horizon).after (fresh_sound_run config horizon) before
  have open_ : ((fresh config horizon).after before).2.client.lifecycle.state ≠ .closed := by
    intro closed
    rw [(sound.client.closed closed).2 t] at found
    cases found
  have stays : k = ((fresh config horizon).after before).2.client.correlator → k.waiters.get? t = some w :=
    fun same => same ▸ found
  have givenUp : k.waiters.get? t = none ∧
      ((fresh config horizon).after before).2.client.GivesUp event w (k.readMail w.slot) →
      k.waiters.get? t = none ∧ ∃ e, (k.readMail w.slot).outcome? = some (.error e) ∧
        (fresh config horizon).Cause before t w event e := by
    rintro ⟨gone, up⟩
    obtain ⟨e, mail, cause⟩ := Cause.of_givesUp up
    exact ⟨gone, e, by rw [mail]; rfl, cause⟩
  rcases step_leaves sound.client event with quiet | ⟨e, reason, shut⟩
  · -- The session stays open, so everything that fails a check is about its own batch.
    have running : (((fresh config horizon).after before).2.step event).2.client.lifecycle.state ≠ .closed :=
      fun closed => open_ (quiet.closed closed)
    cases event with
    | submit request =>
      left
      have issued := sound.client.known t w found
      refine ((sound.client.submit request).2.1.others t fun new => ?_).trans found
      rw [new] at issued
      exact Nat.not_succ_le_self _ issued
    | poll t' | cancel t' | drop t' | expire t' => exact .inl (attended.waits_of_other sound found rfl other)
    | flush => exact .inl (stays (Client.flush_correlator _))
    | close =>
      refine absurd ?_ running
      simp only [step, act, Client.close, (Client.flush_fills _).lifecycle]
      exact Client.closeWith_closed ..
    | abandon =>
      simp only [k, step, update, Client.abandon]
      split
      · rename_i idle
        have broken := broken_of_idle sound.client idle found
        refine ((Correlator.abandonAll_settles sound.client.coherent).either found).imp_right ?_
        rintro ⟨gone, left⟩
        exact ⟨gone, _, by rw [← Option.some.inj left]; rfl, .forsaken broken⟩
      · exact .inl found
    | link up => exact .inl found
    | startTimer b => exact .inl found
    | draw share => exact .inl found
    | elapse d => exact .inl found
    | age d => exact .inl found
    | flushTimer b =>
      refine .inl (stays ?_)
      simp only [k, step]
      split
      · exact (Client.onFlushTimer_flows _ b).correlator
      · rfl
    | due b healthy =>
      exact .inl (stays (Client.onDue_flows (closedReason_of_running open_) b healthy).correlator)
    | connected b result =>
      exact (Client.onConnect_either sound.client found b result running).imp_right givenUp
    | deadline b => exact (Client.onDeadline_either sound.client found b running).imp_right givenUp
    | streamEnd b =>
      refine (Client.onStreamEnd_either sound.client found b running).imp_right ?_
      rintro ⟨gone, ⟨awaits, mail⟩ | up⟩
      · obtain rfl := sound.client.batch_of_awaits awaits found
        exact ⟨gone, _, congrArg Mail.outcome? mail, .unanswered awaits⟩
      · exact givenUp ⟨gone, up⟩
    | reply b reply =>
      cases reply with
      | result t' answer => exact .inl (waits_of_result found sound.client.coherent untaken)
      | unmatched | failed =>
        refine (Client.onReply_either sound.client found b ?_ running).imp_right ?_
        · intro t r same
          cases same
        · rintro ⟨gone, awaits, tokens, e, failed, named, limited, final, mail⟩
          obtain rfl := sound.client.batch_of_awaits awaits found
          refine ⟨gone, e, congrArg Mail.outcome? mail, ?_⟩
          rw [failed]
          exact .rejected tokens e named limited final awaits
  · -- The session is closed, which settles every check that waits.
    have mail := shut.settles.posted t w _ found rfl
    refine .inr ⟨((sound.step event).client.closed shut.state).2 t, _, congrArg Mail.outcome? mail, ?_⟩
    exact Cause.of_shut sound.client found shut

/-- The outcome `o` is what the caller of `t` is told first from the event on. -/
def Gives (r : Run) (event : Event) (t : Token) (o : Outcome) : Prop :=
  told t (r.step event).1 = [o] ∨ (told t (r.step event).1 = [] ∧ (r.step event).2.Pledged t o)

theorem Gives.first {r : Run} {event : Event} {o o' : Outcome} (h : r.Gives event t o) (sound : r.Sound)
    {since : List Event} {rest : List Outcome} (shown : told t (r.after (event :: since)).1 = o' :: rest) :
    o' = o := by
  rw [told_after_cons] at shown
  rcases h with now | ⟨silent, pledged⟩
  · rw [now] at shown
    exact (List.cons.inj shown).1.symm
  · rw [silent, List.nil_append] at shown
    rcases pledged.after (sound.step event) since with ⟨rest', first⟩ | ⟨nothing, -⟩
    · exact (List.cons.inj (shown.symm.trans first)).1
    · cases shown.symm.trans nothing

theorem gives_of_submitted {r : Run} (sound : r.Sound) {request : Request} {o : Outcome}
    (state : (r.client.submit request).1.state = .ready o)
    (waiters : (r.client.submit request).2.2.correlator.waiters = r.client.correlator.waiters) :
    r.Gives (.submit request) r.client.ids.nextToken.1 o :=
  .inr ⟨told_submit r _ request, pledged_of_submitted sound state waiters⟩

namespace Attended

variable {r : Run} (h : r.Attended) (sound : r.Sound) (found : r.client.correlator.waiters.get? t = some w)

include h sound found

/-- A check that its caller withdraws is cancelled. -/
theorem gives_of_cancel : r.Gives (.cancel t) t (.error .cancelled) := by
  have held := h t w found
  have uses : (Event.cancel t).Uses t := rfl
  have gone := (h.step_uses sound found uses).resolve_left fun waits => absurd waits.1 (by simp)
  have issued := Nat.le_trans (sound.client.known t w found) (tokens_le_step sound.client (.cancel t))
  refine .inr ⟨by simp [Run.step, held], issued, gone, ?_⟩
  intro call held'
  simp only [Run.step, held, Call.cancel_of_waiting (fits_of_waiting found) found, hold, Table.get?_insert,
    if_true, Option.some.injEq] at held'
  exact .inl (by rw [← held'])

/-- A caller that gives up the handle is told nothing any more, so any outcome will do. -/
theorem gives_of_drop (o : Outcome) : r.Gives (.drop t) t o := by
  have held := h t w found
  have uses : (Event.drop t).Uses t := rfl
  have gone := (h.step_uses sound found uses).resolve_left fun waits => absurd waits.1 (by simp)
  have issued := Nat.le_trans (sound.client.known t w found) (tokens_le_step sound.client (.drop t))
  refine .inr ⟨by simp [Run.step, held], issued, gone, ?_⟩
  intro call held'
  simp [Run.step, held, Table.get?_erase] at held'

theorem gives_of_expire (after : Duration) : r.Gives (.expire t after) t (.error (.timeout after)) := by
  have held := h t w found
  left
  simp [Run.step, held, Call.expire_of_waiting sound.client.coherent (fits_of_waiting found) found]

end Attended

/-- **A check that waits** goes on waiting, or an outcome is there for its caller; and if that is
an error, it has a cause. -/
theorem step_fate (found : ((fresh config horizon).after before).2.client.correlator.waiters.get? t = some w)
    (event : Event) :
    let r := ((fresh config horizon).after before).2
    (told t (r.step event).1 = [] ∧ (r.step event).2.client.correlator.waiters.get? t = some w) ∨
      ∃ o, r.Gives event t o ∧ ∀ e, o = .error e → (fresh config horizon).Cause before t w event e := by
  intro r
  have sound : r.Sound := (fresh_sound_run config horizon).after before
  have attended : r.Attended := (fresh_attended config horizon).after (fresh_sound_run config horizon) before
  by_cases uses : event.Uses t
  · cases event with
    | poll t' =>
      obtain rfl : t' = t := uses
      left
      simp only [Run.step, attended t' w found,
        Call.poll_of_waiting sound.client.coherent (fits_of_waiting found) found]
      exact ⟨rfl, found⟩
    | cancel t' =>
      obtain rfl : t' = t := uses
      refine .inr ⟨_, attended.gives_of_cancel sound found, ?_⟩
      rintro e ⟨⟩
      exact .withdrawn
    | drop t' =>
      obtain rfl : t' = t := uses
      exact .inr ⟨_, attended.gives_of_drop sound found (.ok {}), by simp⟩
    | expire t' after =>
      obtain rfl : t' = t := uses
      refine .inr ⟨_, attended.gives_of_expire sound found after, ?_⟩
      rintro e ⟨⟩
      exact .expired after
    | _ => exact uses.elim
  · obtain ⟨silent, calls⟩ := step_of_not_uses sound (sound.client.known t w found) uses
    cases takes : r.takesIn? t event with
    | some taken => exact .inr ⟨_, .inr ⟨silent, attended.pledged_of_taken sound found takes⟩, by simp⟩
    | none =>
      rcases step_either found takes uses with waits | ⟨gone, e, left, cause⟩
      · exact .inl ⟨silent, waits⟩
      · refine .inr ⟨.error e, .inr ⟨silent, attended.pledged_of_left sound found gone calls left⟩, ?_⟩
        rintro e' ⟨⟩
        exact cause

/-! ## Every run -/

/-- An error that is told of a check that waits goes back to its cause. -/
theorem cause_of_told (found : ((fresh config horizon).after before).2.client.correlator.waiters.get? t = some w)
    {since : List Event} {e : Error} {rest : List Outcome}
    (failed : told t (((fresh config horizon).after before).2.after since).1 = .error e :: rest) :
    ∃ mid event later, since = mid ++ event :: later ∧
      ((fresh config horizon).after (before ++ mid)).2.client.correlator.waiters.get? t = some w ∧
      (fresh config horizon).Cause (before ++ mid) t w event e := by
  induction since generalizing before with
  | nil => cases failed
  | cons event since ih =>
    rcases step_fate found event with ⟨silent, found'⟩ | ⟨o, gives, cause⟩
    · rw [← after_snoc] at found'
      rw [told_after_cons, silent, List.nil_append, ← after_snoc] at failed
      obtain ⟨mid, next, later, split, waits, cause⟩ := ih found' failed
      rw [List.append_assoc, List.singleton_append] at waits cause
      exact ⟨event :: mid, next, later, by rw [split]; rfl, waits, cause⟩
    · have first := gives.first ((fresh_sound_run config horizon).after before) failed
      refine ⟨[], event, since, rfl, ?_, ?_⟩
      · rw [List.append_nil]
        exact found
      · rw [List.append_nil]
        exact cause e first.symm

/-- As long as the session stays open, every cause concerns the check or its batch. -/
theorem Cause.concerns {r₀ : Run} {event : Event} {e : Error} (cause : r₀.Cause before t w event e)
    (running : ((r₀.after before).2.step event).2.client.lifecycle.state ≠ .closed)
    (whole : w.batch ∉ (r₀.after before).2.client.broken) : event.Concerns t w.batch := by
  cases cause with
  | withdrawn => rfl
  | expired after => rfl
  | shut event e reason shut => exact absurd shut.state running
  | rejected tokens e named limited final awaits => rfl
  | unanswered awaits => rfl
  | exhausted event d rest last under final fails heard =>
    have id := (Client.Sound.mem_of_dispatch? under).2
    cases fails <;> exact id
  | forsaken broken => exact absurd broken whole

/-- A check goes on waiting over every event that concerns neither it nor its batch. -/
theorem waits_through (found : ((fresh config horizon).after before).2.client.correlator.waiters.get? t = some w)
    {event : Event} (apart : ¬ event.Concerns t w.batch)
    (running : (((fresh config horizon).after before).2.step event).2.client.lifecycle.state ≠ .closed)
    (whole : w.batch ∉ ((fresh config horizon).after before).2.client.broken) :
    (((fresh config horizon).after before).2.step event).2.client.correlator.waiters.get? t = some w := by
  have sound := (fresh_sound_run config horizon).after before
  have attended := (fresh_attended config horizon).after (fresh_sound_run config horizon) before
  by_cases uses : event.Uses t
  · cases event with
    | poll t' =>
      obtain rfl : t' = t := uses
      simp only [Run.step, attended t' w found,
        Call.poll_of_waiting sound.client.coherent (fits_of_waiting found) found]
      exact found
    | cancel t' | drop t' | expire t' => exact absurd uses apart
    | _ => exact uses.elim
  · cases takes : ((fresh config horizon).after before).2.takesIn? t event with
    | some taken =>
      obtain ⟨b, answer⟩ := taken
      obtain ⟨rfl, awaits⟩ := reply_of_takesIn? takes
      exact absurd (sound.client.batch_of_awaits awaits found).symm apart
    | none =>
      rcases step_either found takes uses with waits | ⟨gone, e, left, cause⟩
      · exact waits
      · exact absurd (cause.concerns running whole) apart

/-- The first outcome that a caller is told goes back to its cause, if it is an error. -/
theorem cause_of_failed {events : List Event} {e : Error} {rest : List Outcome}
    (failed : told t ((fresh config horizon).after events).1 = .error e :: rest) :
    ∃ before event since, events = before ++ event :: since ∧
      ((.issued t ∈ (((fresh config horizon).after before).2.step event).1 ∧
          ∃ reason, ((fresh config horizon).after before).2.client.ClosedFor reason ∧ e = .sessionClosed reason) ∨
        ∃ w, ((fresh config horizon).after before).2.client.correlator.waiters.get? t = some w ∧
          (fresh config horizon).Cause before t w event e) := by
  have sound₀ := fresh_sound_run config horizon
  have shown : .outcome t (.error e) ∈ ((fresh config horizon).after events).1 := by
    rw [← mem_told_iff, failed]
    exact List.mem_cons_self ..
  obtain ⟨before, request, since, rfl, rfl, -, -⟩ :=
    submission_of_shown sound₀ (pos_of_shown sound₀ shown) shown
  have sound := sound₀.after before
  have unissued : told _ ((fresh config horizon).after before).1 = [] :=
    told_of_unissued (t := ((fresh config horizon).after before).2.client.ids.nextToken.1) sound₀ (Nat.lt_succ_self _)
  rw [told_after_append, unissued, List.nil_append] at failed
  obtain ⟨token, -, standing⟩ := sound.client.submit request
  cases standing with
  | refused reason closed state correlator =>
    cases (gives_of_submitted sound state (congrArg Correlator.waiters correlator)).first sound failed
    have shut : ((fresh config horizon).after before).2.client.lifecycle.state = .closed := by
      refine Decidable.byContradiction fun running => ?_
      rw [closedReason_of_running running] at closed
      cases closed
    refine ⟨before, .submit request, since, rfl, .inl ⟨?_, reason, sound.client.closedFor shut closed, rfl⟩⟩
    simp only [step]
    rw [token]
    exact List.mem_cons_self ..
  | decided running store cache all state waiters =>
    cases (gives_of_submitted sound state waiters).first sound failed
  | waits running b state waiter =>
    rw [told_after_cons, told_submit, List.nil_append, ← after_snoc] at failed
    change (((fresh config horizon).after before).2.step (.submit request)).2.client.correlator.waiters.get? _ = _
      at waiter
    rw [← after_snoc] at waiter
    obtain ⟨mid, event, later, rfl, waits, cause⟩ := cause_of_told waiter failed
    exact ⟨before ++ [.submit request] ++ mid, event, later, by simp, .inr ⟨_, waits, cause⟩⟩

/-- **Failures stay inside their batch.**  If a caller is told an error first, then either the
session was closed when the check was submitted, or the check waited and failed for a cause of
its own: its caller withdrew or waited no longer, the session was closed, its own batch read
that it had failed, left it unanswered or ran out of attempts, or its batch had broken off.
So a check that waits goes on waiting over every event that concerns neither it nor its batch,
as long as the session stays open. -/
theorem failures_contained {r₀ : Run} (started : start config horizon = .ok r₀) :
    (∀ events t e rest, told t (r₀.after events).1 = .error e :: rest →
      ∃ before event since, events = before ++ event :: since ∧
        ((.issued t ∈ ((r₀.after before).2.step event).1 ∧
            ∃ reason, (r₀.after before).2.client.ClosedFor reason ∧ e = .sessionClosed reason) ∨
          ∃ w, (r₀.after before).2.client.correlator.waiters.get? t = some w ∧
            r₀.Cause before t w event e)) ∧
    ∀ before event t w, (r₀.after before).2.client.correlator.waiters.get? t = some w →
      ¬ event.Concerns t w.batch → ((r₀.after before).2.step event).2.client.state ≠ .closed →
      w.batch ∉ (r₀.after before).2.client.broken →
      ((r₀.after before).2.step event).2.client.correlator.waiters.get? t = some w := by
  obtain ⟨-, rfl⟩ := (start_eq_ok_iff config horizon r₀).1 started
  exact ⟨fun events t e rest failed => cause_of_failed failed, fun before event t w found => waits_through found⟩

/-- Two checks are in flight in two batches.  The first batch reads that both have failed, the
second one that its check is allowed. -/
def foreignFailure : List Event :=
  [.submit mayAliceView, .submit mayAliceView,
    .due ⟨1⟩ true, .connected ⟨1⟩ (.ok ()), .due ⟨2⟩ true, .connected ⟨2⟩ (.ok ()),
    .reply ⟨1⟩ (.failed [⟨1⟩, ⟨2⟩] (.status .internal "broken")),
    .reply ⟨2⟩ (.result ⟨2⟩ (.ofDecisions [(view, .allow)])), .poll ⟨1⟩, .poll ⟨2⟩]

/-- Only the check of the first batch fails. -/
theorem foreign_failure_contained :
    start { maxBatchSize := 1 } .horizon = .ok (fresh { maxBatchSize := 1 } .horizon) ∧
      told ⟨1⟩ ((fresh { maxBatchSize := 1 } .horizon).after foreignFailure).1 =
        [.error (.status .internal "broken")] ∧
      told ⟨2⟩ ((fresh { maxBatchSize := 1 } .horizon).after foreignFailure).1 =
        [.ok (.ofDecisions [(view, .allow)])] ∧
      ∃ before event since, foreignFailure = before ++ event :: since ∧
        ((.issued ⟨1⟩ ∈ (((fresh { maxBatchSize := 1 } .horizon).after before).2.step event).1 ∧
            ∃ reason, ((fresh { maxBatchSize := 1 } .horizon).after before).2.client.ClosedFor reason ∧
              Error.status .internal "broken" = .sessionClosed reason) ∨
          ∃ w, ((fresh { maxBatchSize := 1 } .horizon).after before).2.client.correlator.waiters.get? ⟨1⟩ = some w ∧
            (fresh { maxBatchSize := 1 } .horizon).Cause before ⟨1⟩ w event (.status .internal "broken")) := by
  have started : start { maxBatchSize := 1 } .horizon = .ok (fresh { maxBatchSize := 1 } .horizon) := by rfl
  have failed : told ⟨1⟩ ((fresh { maxBatchSize := 1 } .horizon).after foreignFailure).1 =
      [.error (.status .internal "broken")] := by rfl
  exact ⟨started, failed, by rfl, (failures_contained started).1 _ _ _ _ failed⟩

/-- Settings that are accepted, with a timeout that takes every deadline beyond the clock. -/
def endless : Config := { maxBatchSize := 1, requestTimeout := .ofSeconds 18446744073709551615 }

/-- The dispatch of a check breaks off when it is connected, and the client is given up. -/
def brokenOff : List Event :=
  [.submit mayAliceView, .due ⟨1⟩ false, .connected ⟨1⟩ (.ok ()), .abandon, .poll ⟨1⟩]

/-- The check is cancelled in the end, although its caller has not withdrawn it, the session is
open and its batch has read nothing: but for `abandon` no event is a cause. -/
theorem broken_off_unexplained :
    ¬ ∀ config r₀ events t e rest, start config .horizon = .ok r₀ → told t (r₀.after events).1 = .error e :: rest →
      ∃ before event since, events = before ++ event :: since ∧ event ≠ .abandon ∧
        ((∃ reason, (r₀.after before).2.client.ClosedFor reason ∧ e = .sessionClosed reason) ∨
          ∃ w, r₀.Cause before t w event e) := by
  intro explained
  obtain ⟨before, event, since, split, other, ⟨reason, -, same⟩ | ⟨w, cause⟩⟩ :=
    explained endless (fresh endless .horizon) brokenOff ⟨1⟩ .cancelled [] (by rfl) (by rfl)
  · cases same
  · have member : event ∈ brokenOff := by
      rw [split]
      exact List.mem_append_right _ (List.mem_cons_self ..)
    cases cause with
    | withdrawn => simp [brokenOff] at member
    | shut event e reason shut =>
      cases shut.closes with
      | fatalReply b tokens e fatal => cases fatal
      | fatalConnect b e fatal => cases fatal
    | rejected tokens e named limited final awaits => simp [brokenOff] at member
    | forsaken broken => exact other rfl

end Run

end PolicyClient
