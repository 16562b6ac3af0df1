/-
# PolicyClient.Proofs.Run.Handles -- the handles that callers hold

The handle of a check starts where its submission leaves it, and from there it can only be
finished or withdrawn (`Run.Starts`).  So an answer that a caller is given either was there
at submission, or it comes out of the slot that the check was registered with.

`Run.Sound` is the invariant of a run: the client's, and handles that are filed under their
own tokens, all of them issued.
-/
import PolicyClient.Proofs.Run.Custody

namespace PolicyClient

set_option autoImplicit false

namespace Run

/-- The invariant of a run. -/
structure Sound (r : Run) : Prop where
  client : r.client.Sound
  named : ∀ t call, r.calls.get? t = some call → call.token = t
  issued : ∀ t call, r.calls.get? t = some call → 0 < t.number ∧ t.number ≤ r.client.ids.tokens

/-- The handle under `t` is as it was at first, or finished, or withdrawn. -/
def Starts (r : Run) (t : Token) (first : CallState) : Prop :=
  ∀ call, r.calls.get? t = some call →
    call.state = first ∨ call.state = .done ∨ ∃ e, call.state = .ready (.error e)

/-! ## What an event does to the handles -/

/-- What becomes of a handle that its caller uses. -/
inductive Spent (before after : Call) : Prop
  | same (state : after.state = before.state)
  | done (state : after.state = .done)
  | withdrawn (e : Error) (state : after.state = .ready (.error e))

theorem spent_poll {call call' : Call} {k : Correlator} {o : Option Outcome}
    (polled : call.poll k = (o, call')) : Spent call call' := by
  unfold Call.poll at polled
  split at polled
  · cases polled
    exact .done rfl
  · cases polled
    exact .done rfl
  · split at polled <;> cases polled
    · exact .same rfl
    · exact .done rfl
    · exact .done rfl

theorem spent_cancel (call : Call) (k : Correlator) : Spent call (call.cancel k).2.1 := by
  unfold Call.cancel
  split
  · split
    · exact .withdrawn .cancelled rfl
    · exact .same rfl
  · exact .same rfl

theorem spent_expire (call : Call) (after : Duration) (k : Correlator) :
    Spent call (call.expire after k).2.1 := by
  unfold Call.expire
  split
  · rename_i polled
    exact spent_poll polled
  · exact .done rfl

/-- Where a handle comes from that is filed under `t` after an event. -/
inductive Origin (r : Run) (event : Event) (t : Token) (call : Call) : Prop
  | used (before : Call) (held : r.calls.get? t = some before) (spent : Spent before call)
  | made (request : Request) (submits : event = .submit request)
      (new : t = r.client.ids.nextToken.1) (given : call = (r.client.submit request).1)

theorem get?_calls_step {r : Run} (h : r.Sound) (event : Event) (t : Token) (call : Call)
    (found : (r.step event).2.calls.get? t = some call) :
    call.token = t ∧ Origin r event t call := by
  have stays : r.calls.get? t = some call →
      call.token = t ∧ Origin r event t call :=
    fun same => ⟨h.named t call same, .used call same (.same rfl)⟩
  have used : ∀ t' before call' k, r.calls.get? t' = some before → call'.token = t' →
      Spent before call' → (r.hold call' k).calls.get? t = some call →
      call.token = t ∧ Origin r event t call := by
    intro t' before call' k held token spent found
    simp only [hold, token, Table.get?_insert] at found
    by_cases same : t = t'
    · subst same
      simp only [if_true, Option.some.injEq] at found
      subst found
      exact ⟨token, .used before held spent⟩
    · rw [if_neg same] at found
      exact stays found
  cases event with
  | submit request =>
    simp only [step, Table.get?_insert] at found
    have token := (h.client.submit request).1
    rw [token] at found
    by_cases same : t = r.client.ids.nextToken.1
    · rw [if_pos same, Option.some.injEq] at found
      exact ⟨by rw [← found, token, same], .made request rfl same found.symm⟩
    · rw [if_neg same] at found
      exact stays found
  | poll t' =>
    simp only [step] at found
    split at found
    · exact stays found
    · rename_i before held
      split at found
      · rename_i o call' polled
        exact used t' before call' _ held ((Call.token_poll polled).trans (h.named t' before held))
          (spent_poll polled) found
      · exact stays found
  | cancel t' =>
    simp only [step] at found
    split at found
    · exact stays found
    · rename_i before held
      exact used t' before _ _ held ((Call.token_cancel _ _).trans (h.named t' before held))
        (spent_cancel before _) found
  | drop t' =>
    simp only [step] at found
    split at found
    · exact stays found
    · simp only [Table.get?_erase] at found
      by_cases same : t = t'
      · rw [if_pos same] at found
        cases found
      · rw [if_neg same] at found
        exact stays found
  | expire t' after =>
    simp only [step] at found
    split at found
    · exact stays found
    · rename_i before held
      exact used t' before _ _ held ((Call.token_expire _ _ _).trans (h.named t' before held))
        (spent_expire before after _) found
  | flushTimer b =>
    simp only [step] at found
    split at found
    · exact stays found
    · exact stays found
  | _ => exact stays found

/-- Tokens are never taken back. -/
theorem tokens_step {r : Run} (h : r.client.Sound) (event : Event) :
    (r.step event).2.client.ids.tokens =
      r.client.ids.tokens + match event with | .submit _ => 1 | _ => 0 := by
  by_cases plain : event.Plain
  · rw [(step_lapses h plain).tokens]
    cases event with
    | submit request => exact plain.elim
    | _ => rfl
  · cases event with
    | submit request => exact (h.submit request).2.1.tokens
    | age d => rfl
    | reply b reply => exact (h.onReply b reply).tokens
    | _ => exact absurd trivial plain

theorem tokens_le_step {r : Run} (h : r.client.Sound) (event : Event) :
    r.client.ids.tokens ≤ (r.step event).2.client.ids.tokens := by
  rw [tokens_step h event]
  exact Nat.le_add_right _ _

/-- The token of a new check has been issued. -/
theorem issued_of_submit {r : Run} (h : r.client.Sound) (request : Request) :
    r.client.ids.nextToken.1.number ≤ (r.step (.submit request)).2.client.ids.tokens := by
  rw [tokens_step h]
  exact Nat.le_refl _

/-- A submission shows the token of the new check. -/
theorem shown_submit {r : Run} (sound : r.client.Sound) (request : Request) :
    (r.step (.submit request)).1 =
      .issued r.client.ids.nextToken.1 :: (r.client.submit request).2.1.map .effect := by
  simp only [step, (sound.submit request).1]

/-- **Every event keeps the invariant of a run.** -/
theorem Sound.step {r : Run} (h : r.Sound) (event : Event) : (r.step event).2.Sound where
  client := (step_sound h.client event).1
  named t call found := (get?_calls_step h event t call found).1
  issued t call found := by
    have le := tokens_le_step h.client event
    cases (get?_calls_step h event t call found).2 with
    | used before held spent =>
      obtain ⟨pos, issued⟩ := h.issued t before held
      exact ⟨pos, Nat.le_trans issued le⟩
    | made request submits new given =>
      rw [new, submits, tokens_step h.client]
      exact ⟨Nat.succ_pos _, Nat.le_refl _⟩

theorem fresh_sound_run (config : Config) (horizon : Instant) : (fresh config horizon).Sound where
  client := fresh_sound config horizon
  named t call found := by simp [fresh] at found
  issued t call found := by simp [fresh] at found

theorem start_sound_run {config : Config} {horizon : Instant} {r : Run} (started : start config horizon = .ok r) : r.Sound := by
  rw [((start_eq_ok_iff config horizon r).1 started).2]
  exact fresh_sound_run config horizon

theorem Sound.after {r : Run} (h : r.Sound) (events : List Event) : (r.after events).2.Sound :=
  after_keeps (P := Sound) (fun _ event h => Sound.step h event) h events

theorem Starts.step {r : Run} (h : r.Sound) {t : Token} {first : CallState}
    (issued : t.number ≤ r.client.ids.tokens) (starts : r.Starts t first) (event : Event) :
    (r.step event).2.Starts t first := by
  intro call found
  cases (get?_calls_step h event t call found).2 with
  | used before held spent =>
    cases spent with
    | same state =>
      rw [state]
      exact starts before held
    | done state => exact .inr (.inl state)
    | withdrawn e state => exact .inr (.inr ⟨e, state⟩)
  | made request submits new given =>
    rw [new] at issued
    exact absurd issued (Nat.not_succ_le_self _)

/-! ## What callers are told -/

/-- An outcome is told by the handle under its token. -/
theorem outcome_of_shown {r : Run} {event : Event} {t : Token} {o : Outcome}
    (shown : .outcome t o ∈ (r.step event).1) : ∃ call, r.calls.get? t = some call ∧
      ((∃ call', call.poll r.client.correlator = (some o, call')) ∨
        ∃ after, o = .error (.timeout after)) := by
  cases event with
  | submit request => simp [step] at shown
  | poll t' =>
    simp only [step] at shown
    split at shown
    · cases shown
    · rename_i call held
      split at shown
      · rename_i o' call' polled
        simp only [List.mem_singleton, Observation.outcome.injEq] at shown
        obtain ⟨rfl, rfl⟩ := shown
        exact ⟨call, held, .inl ⟨call', polled⟩⟩
      · cases shown
  | expire t' after =>
    simp only [step] at shown
    split at shown
    · cases shown
    · rename_i call held
      simp only [List.mem_singleton, Observation.outcome.injEq] at shown
      obtain ⟨rfl, rfl⟩ := shown
      refine ⟨call, held, ?_⟩
      unfold Call.expire
      split
      · rename_i o' call' polled
        exact .inl ⟨call', polled⟩
      · exact .inr ⟨after, rfl⟩
  | cancel t' =>
    simp only [step] at shown
    split at shown <;> simp at shown
  | drop t' =>
    simp only [step] at shown
    split at shown <;> cases shown
  | flushTimer b =>
    simp only [step] at shown
    split at shown <;> simp [act] at shown
  | _ => simp [step, act, update] at shown

theorem pos_of_shown {r : Run} (h : r.Sound) {events : List Event} {t : Token} {o : Outcome}
    (shown : .outcome t o ∈ (r.after events).1) : 0 < t.number := by
  induction events generalizing r with
  | nil => cases shown
  | cons event events ih =>
    rw [after_cons] at shown
    rcases List.mem_append.1 shown with now | later
    · obtain ⟨call, held, -⟩ := outcome_of_shown now
      exact (h.issued t call held).1
    · exact ih (h.step event) later

/-- An answer was there at first, or it lies in the slot the handle waits at. -/
theorem Starts.answer {r : Run} {t : Token} {first : CallState} (starts : r.Starts t first)
    {event : Event} {a : Answer} (shown : .outcome t (.ok a) ∈ (r.step event).1) :
    first = .ready (.ok a) ∨
      ∃ slot, first = .waiting slot ∧ r.client.correlator.readMail slot = .delivered (.ok a) := by
  obtain ⟨call, held, ⟨call', polled⟩ | ⟨after, timeout⟩⟩ := outcome_of_shown shown
  · unfold Call.poll at polled
    rcases starts call held with state | state | ⟨e, state⟩
    · rw [state] at polled
      cases first with
      | ready o =>
        simp only [Prod.mk.injEq, Option.some.injEq] at polled
        exact .inl (by rw [polled.1])
      | done => simp at polled
      | waiting slot =>
        refine .inr ⟨slot, rfl, ?_⟩
        cases mail : r.client.correlator.readMail slot with
        | awaited => simp [mail] at polled
        | abandoned => simp [mail] at polled
        | delivered o =>
          simp only [mail, Prod.mk.injEq, Option.some.injEq] at polled
          rw [polled.1]
    · simp [state] at polled
    · simp [state] at polled
  · cases timeout

end Run

end PolicyClient
