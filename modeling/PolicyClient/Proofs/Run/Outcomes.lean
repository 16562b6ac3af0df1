/-
# PolicyClient.Proofs.Run.Outcomes -- what a caller is told first

The outcome of a check is told when its caller asks for it: `Run.told` lists the outcomes
told under one token, in order.

Once an outcome is there for the caller of a check (`Run.Pledged`) it stays there until it
is told, and it is the first that is told (`Run.Pledged.delivers`).  As long as a check
waits, its handle is held and waits for it (`Run.Attended`), and nothing has been told
under its token (`Run.told_of_waiting`).
-/
import Mathlib.Data.List.Induction
import PolicyClient.Proofs.Run.Provenance

namespace PolicyClient

set_option autoImplicit false

/-- Whether a caller uses the handle under `t`. -/
def Event.Uses (t : Token) : Event → Prop
  | .poll t' | .cancel t' | .drop t' | .expire t' _ => t' = t
  | _ => False

namespace Run

/-! ## Telling -/

/-- The outcomes that are told under `t`, in order. -/
def told (t : Token) (shown : List Observation) : List Outcome :=
  shown.filterMap fun
    | .outcome t' o => if t' = t then some o else none
    | _ => none

@[simp] theorem told_nil (t : Token) : told t [] = [] := rfl

@[simp] theorem told_append (t : Token) (first later : List Observation) :
    told t (first ++ later) = told t first ++ told t later := List.filterMap_append

@[simp] theorem told_outcome (t t' : Token) (o : Outcome) :
    told t [.outcome t' o] = if t' = t then [o] else [] := by
  by_cases same : t' = t <;> simp [told, same]

@[simp] theorem told_issued (t t' : Token) (shown : List Observation) :
    told t (.issued t' :: shown) = told t shown := rfl

@[simp] theorem told_withdrawn (t t' : Token) (outstanding : Bool) :
    told t [.withdrawn t' outstanding] = [] := rfl

@[simp] theorem told_effects (t : Token) (effects : List Effect) : told t (effects.map .effect) = [] := by
  simp [told, List.filterMap_map]

/-- A submission tells nobody an outcome. -/
theorem told_submit (r : Run) (t : Token) (request : Request) :
    told t (r.step (.submit request)).1 = [] := by
  simp [step]

theorem mem_told_iff (t : Token) (o : Outcome) (shown : List Observation) :
    o ∈ told t shown ↔ .outcome t o ∈ shown := by
  simp only [told, List.mem_filterMap]
  constructor
  · rintro ⟨observed, member, outcome⟩
    split at outcome
    · split at outcome
      · rename_i same
        cases outcome
        rw [← same]
        exact member
      · cases outcome
    · cases outcome
  · intro member
    exact ⟨_, member, if_pos rfl⟩

theorem told_after_cons (r : Run) (t : Token) (event : Event) (events : List Event) :
    told t (r.after (event :: events)).1 =
      told t (r.step event).1 ++ told t ((r.step event).2.after events).1 := by
  rw [after_cons, told_append]

theorem told_after_append (r : Run) (t : Token) (first later : List Event) :
    told t (r.after (first ++ later)).1 =
      told t (r.after first).1 ++ told t ((r.after first).2.after later).1 := by
  rw [after_append, told_append]

theorem told_after_snoc (r : Run) (t : Token) (events : List Event) (event : Event) :
    told t (r.after (events ++ [event])).1 =
      told t (r.after events).1 ++ told t ((r.after events).2.step event).1 := by
  rw [shown_snoc, told_append]

theorem tokens_le_after {r : Run} (h : r.Sound) (events : List Event) :
    r.client.ids.tokens ≤ (r.after events).2.client.ids.tokens := by
  induction events generalizing r with
  | nil => exact Nat.le_refl _
  | cons event events ih =>
    rw [after_cons]
    exact Nat.le_trans (tokens_le_step h.client event) (ih (h.step event))

/-- Nothing is told under a token that has not been issued. -/
theorem told_of_unissued {r : Run} (h : r.Sound) {t : Token} {events : List Event}
    (new : (r.after events).2.client.ids.tokens < t.number) : told t (r.after events).1 = [] := by
  induction events generalizing r with
  | nil => rfl
  | cons event events ih =>
    rw [after_cons] at new
    have new : ((r.step event).2.after events).2.client.ids.tokens < t.number := new
    rw [told_after_cons, ih (h.step event) new, List.append_nil, List.eq_nil_iff_forall_not_mem]
    intro o member
    obtain ⟨call, held, -⟩ := outcome_of_shown ((mem_told_iff t o _).1 member)
    have issued := (h.issued t call held).2
    have le := tokens_le_step h.client event
    have le' := tokens_le_after (h.step event) events
    omega

/-! ## The handles of others -/

/-- An event of another kind, or about another handle, leaves a handle alone. -/
theorem step_of_not_uses {r : Run} (h : r.Sound) {t : Token} (issued : t.number ≤ r.client.ids.tokens)
    {event : Event} (other : ¬ event.Uses t) :
    told t (r.step event).1 = [] ∧ (r.step event).2.calls.get? t = r.calls.get? t := by
  have held : ∀ t' before call' k, t' ≠ t → r.calls.get? t' = some before → call'.token = before.token →
      (r.hold call' k).calls.get? t = r.calls.get? t := by
    intro t' before call' k ne found token
    rw [hold, token, h.named t' before found, Table.get?_insert, if_neg (Ne.symm ne)]
  cases event with
  | submit request =>
    have token := (h.client.submit request).1
    refine ⟨by simp [step], ?_⟩
    simp only [step, token, Table.get?_insert]
    apply if_neg
    intro new
    rw [new] at issued
    exact Nat.not_succ_le_self _ issued
  | poll t' =>
    have ne : t' ≠ t := other
    simp only [step]
    split
    · exact ⟨rfl, rfl⟩
    · rename_i before found
      split
      · rename_i o call' polled
        exact ⟨by simp [ne], held t' before call' _ ne found (Call.token_poll polled)⟩
      · exact ⟨rfl, rfl⟩
  | cancel t' =>
    have ne : t' ≠ t := other
    simp only [step]
    split
    · exact ⟨rfl, rfl⟩
    · rename_i before found
      exact ⟨rfl, held t' before _ _ ne found (Call.token_cancel before _)⟩
  | drop t' =>
    have ne : t' ≠ t := other
    simp only [step]
    split
    · exact ⟨rfl, rfl⟩
    · exact ⟨rfl, by rw [Table.get?_erase, if_neg (Ne.symm ne)]⟩
  | expire t' after =>
    have ne : t' ≠ t := other
    simp only [step]
    split
    · exact ⟨rfl, rfl⟩
    · rename_i before found
      exact ⟨by simp [ne], held t' before _ _ ne found (Call.token_expire before _ _)⟩
  | flushTimer b =>
    simp only [step]
    split
    · exact ⟨told_effects t _, rfl⟩
    · exact ⟨rfl, rfl⟩
  | flush => exact ⟨told_effects t _, rfl⟩
  | close => exact ⟨told_effects t _, rfl⟩
  | due b healthy => exact ⟨told_effects t _, rfl⟩
  | connected b result => exact ⟨told_effects t _, rfl⟩
  | _ => exact ⟨rfl, rfl⟩

/-- A handle is held until it is given up. -/
theorem held_step {r : Run} (h : r.Sound) {t : Token} (issued : t.number ≤ r.client.ids.tokens)
    (held : r.calls.get? t ≠ none) {event : Event} (kept : event ≠ .drop t) :
    (r.step event).2.calls.get? t ≠ none := by
  by_cases uses : event.Uses t
  · obtain ⟨call, found⟩ := Option.ne_none_iff_exists'.1 held
    have name := h.named t call found
    cases event with
    | poll t' =>
      obtain rfl : t' = t := uses
      simp only [step, found]
      split
      · rename_i o call' polled
        simp [hold, Call.token_poll polled, name, Table.get?_insert]
      · exact held
    | cancel t' =>
      obtain rfl : t' = t := uses
      simp [step, found, hold, Call.token_cancel, name, Table.get?_insert]
    | expire t' after =>
      obtain rfl : t' = t := uses
      simp [step, found, hold, Call.token_expire, name, Table.get?_insert]
    | drop t' =>
      obtain rfl : t' = t := uses
      exact absurd rfl kept
    | _ => exact uses.elim
  · rw [(step_of_not_uses h issued uses).2]
    exact held

/-! ## Outcomes that are there -/

/-- The outcome `o` is there for the caller of `t`, if the handle is still held. -/
structure Pledged (r : Run) (t : Token) (o : Outcome) : Prop where
  issued : t.number ≤ r.client.ids.tokens
  gone : r.client.correlator.waiters.get? t = none
  handle : ∀ call, r.calls.get? t = some call → call.state = .ready o ∨
    ∃ slot, call.state = .waiting slot ∧ slot < r.client.correlator.mail.length ∧
      (r.client.correlator.readMail slot).outcome? = some o

namespace Pledged

variable {r : Run} {t : Token} {o : Outcome}

theorem poll (h : r.Pledged t o) {call : Call} (held : r.calls.get? t = some call) :
    call.poll r.client.correlator = (some o, { call with state := .done }) := by
  rcases h.handle call held with ready | ⟨slot, waiting, -, left⟩
  · simp [Call.poll, ready]
  · exact Call.poll_of_left waiting left

/-- A slot from which an outcome can be read stays as it is. -/
theorem readMail_step (sound : r.Sound) {slot : Nat} (lt : slot < r.client.correlator.mail.length)
    (left : (r.client.correlator.readMail slot).outcome? = some o) (event : Event) :
    (r.step event).2.client.correlator.readMail slot = r.client.correlator.readMail slot := by
  refine (step_advances sound event).kept slot lt fun t' w found same => ?_
  rw [← same, sound.client.coherent.awaited t' w found] at left
  cases left

/-- **What is there for a caller** is told next, or nothing is and it stays there. -/
theorem step (h : r.Pledged t o) (sound : r.Sound) (event : Event) :
    told t (r.step event).1 = [o] ∨
      (told t (r.step event).1 = [] ∧ (r.step event).2.Pledged t o) := by
  have issued := Nat.le_trans h.issued (tokens_le_step sound.client event)
  have gone := gone_step sound h.issued h.gone event
  -- A handle in the state of one that was held before is as good.
  have stays : (∀ call, (r.step event).2.calls.get? t = some call →
      ∃ before, r.calls.get? t = some before ∧ before.state = call.state) →
      (r.step event).2.Pledged t o := by
    intro origin
    refine ⟨issued, gone, ?_⟩
    intro call held
    obtain ⟨before, held', same⟩ := origin call held
    rw [← same]
    refine (h.handle before held').imp_right fun ⟨slot, waiting, lt, left⟩ => ⟨slot, waiting, ?_, ?_⟩
    · exact Nat.lt_of_lt_of_le lt (step_advances sound event).slots
    · rw [readMail_step sound lt left event]
      exact left
  by_cases uses : event.Uses t
  · cases held : r.calls.get? t with
    | none =>
      have still : ∃ shown, told t shown = [] ∧ r.step event = (shown, r) := by
        cases event with
        | poll t' | cancel t' | drop t' | expire t' =>
          obtain rfl : t' = t := uses
          exact ⟨[], rfl, by simp [Run.step, held]⟩
        | _ => exact uses.elim
      obtain ⟨shown, silent, same⟩ := still
      rw [same]
      exact .inr ⟨silent, h⟩
    | some call =>
      have name := sound.named t call held
      have polled := h.poll held
      cases event with
      | poll t' =>
        obtain rfl : t' = t := uses
        left
        simp [Run.step, held, polled]
      | expire t' after =>
        obtain rfl : t' = t := uses
        left
        simp [Run.step, held, Call.expire_of_poll polled]
      | cancel t' =>
        obtain rfl : t' = t := uses
        have late := Call.cancel_of_absent (c := call) (name.symm ▸ h.gone)
        refine .inr ⟨by simp [Run.step, held], stays fun call' held' => ⟨call, held, ?_⟩⟩
        simp only [Run.step, held, late, hold, name, Table.get?_insert, if_true,
          Option.some.injEq] at held'
        rw [held']
      | drop t' =>
        obtain rfl : t' = t := uses
        refine .inr ⟨by simp [Run.step, held], stays fun call' held' => ?_⟩
        simp [Run.step, held, Table.get?_erase] at held'
      | _ => exact uses.elim
  · obtain ⟨silent, same⟩ := step_of_not_uses sound h.issued uses
    refine .inr ⟨silent, stays fun call held => ⟨call, ?_, rfl⟩⟩
    rw [← same]
    exact held

theorem after (h : r.Pledged t o) (sound : r.Sound) (events : List Event) :
    (∃ rest, told t (r.after events).1 = o :: rest) ∨
      (told t (r.after events).1 = [] ∧ (r.after events).2.Pledged t o) := by
  induction events generalizing r with
  | nil => exact .inr ⟨rfl, h⟩
  | cons event events ih =>
    rw [told_after_cons, after_cons]
    rcases h.step sound event with now | ⟨silent, later⟩
    · rw [now]
      exact .inl ⟨_, rfl⟩
    · rw [silent, List.nil_append]
      exact ih later (sound.step event)

end Pledged

/-- From now on the caller of `t` is told `o` first: whatever happens, nothing else is told
before it, and until then, unless the caller gives the handle up, it is there to be asked for. -/
structure Delivers (r : Run) (t : Token) (o : Outcome) : Prop where
  first : ∀ events, told t (r.after events).1 = [] ∨ ∃ rest, told t (r.after events).1 = o :: rest
  ready : ∀ events, told t (r.after events).1 = [] → .drop t ∉ events →
    told t ((r.after events).2.step (.poll t)).1 = [o]

theorem held_after {r : Run} (h : r.Sound) {t : Token} (issued : t.number ≤ r.client.ids.tokens)
    (held : r.calls.get? t ≠ none) {events : List Event} (kept : .drop t ∉ events) :
    (r.after events).2.calls.get? t ≠ none := by
  induction events generalizing r with
  | nil => exact held
  | cons event events ih =>
    rw [after_cons]
    apply ih (h.step event) (Nat.le_trans issued (tokens_le_step h.client event))
    · apply held_step h issued held
      rintro rfl
      exact kept (List.mem_cons_self ..)
    · exact fun later => kept (List.mem_cons_of_mem _ later)

/-- **An outcome that is there is told first.** -/
theorem Pledged.delivers {r : Run} {t : Token} {o : Outcome} (h : r.Pledged t o) (sound : r.Sound)
    (held : r.calls.get? t ≠ none) : r.Delivers t o where
  first events := (h.after sound events).symm.imp_left And.left
  ready events silent kept := by
    rcases h.after sound events with ⟨rest, shown⟩ | ⟨-, later⟩
    · rw [silent] at shown
      cases shown
    · obtain ⟨call, found⟩ := Option.ne_none_iff_exists'.1 (held_after sound h.issued held kept)
      simp [Run.step, found, later.poll found]

/-! ## Handles of checks that wait -/

/-- Every check that waits has its handle, and the handle waits for it. -/
def Attended (r : Run) : Prop :=
  ∀ t w, r.client.correlator.waiters.get? t = some w → r.calls.get? t = some ⟨t, .waiting w.slot⟩

/-- A handle that waits for its call fits it. -/
theorem fits_of_waiting {k : Correlator} {t : Token} {w : Waiter} (found : k.waiters.get? t = some w) :
    Call.Fits ⟨t, .waiting w.slot⟩ k := by
  intro w' found'
  have same : some w = some w' := found.symm.trans found'
  cases same
  rfl

/-- What is left of a check that waits when its caller uses the handle. -/
theorem Attended.step_uses {r : Run} (h : r.Attended) (sound : r.Sound) {t : Token} {w : Waiter}
    (found : r.client.correlator.waiters.get? t = some w) {event : Event} (uses : event.Uses t) :
    (event = .poll t ∧ r.step event = ([], r)) ∨
      (r.step event).2.client.correlator.waiters.get? t = none := by
  have held := h t w found
  have fits := fits_of_waiting found
  have coherent := sound.client.coherent
  have gone : ∀ {k : Correlator}, r.client.correlator.Settles (Correlator.only t fun _ => .abandoned) k →
      k.waiters.get? t = none := by
    intro k settles
    cases waits : k.waiters.get? t with
    | none => rfl
    | some w' =>
      have left := ((settles.waits_iff t w').1 waits).2
      simp [Correlator.only] at left
  cases event with
  | poll t' =>
    obtain rfl : t' = t := uses
    exact .inl ⟨rfl, by simp [Run.step, held, Call.poll_of_waiting coherent fits found]⟩
  | cancel t' =>
    obtain rfl : t' = t := uses
    right
    simp only [Run.step, held]
    exact gone (Call.cancel_settles coherent fits)
  | drop t' =>
    obtain rfl : t' = t := uses
    right
    simp only [Run.step, held]
    exact gone (Call.drop_settles coherent fits)
  | expire t' after =>
    obtain rfl : t' = t := uses
    right
    simp only [Run.step, held]
    exact gone (Call.expire_settles coherent fits after)
  | _ => exact uses.elim

/-- As long as a check waits nothing is told under its token. -/
theorem Attended.told_step {r : Run} (h : r.Attended) (sound : r.Sound) {t : Token} {w : Waiter}
    (found : r.client.correlator.waiters.get? t = some w) {event : Event}
    (found' : (r.step event).2.client.correlator.waiters.get? t = some w) : told t (r.step event).1 = [] := by
  by_cases uses : event.Uses t
  · rcases h.step_uses sound found uses with ⟨-, same⟩ | gone
    · rw [same]
      rfl
    · rw [gone] at found'
      cases found'
  · exact (step_of_not_uses sound (sound.client.known t w found) uses).1

/-- What is left in the slot of a check when it ends is there to be asked for. -/
theorem Attended.pledged_of_left {r : Run} (h : r.Attended) (sound : r.Sound) {t : Token} {w : Waiter}
    (found : r.client.correlator.waiters.get? t = some w) {event : Event}
    (gone : (r.step event).2.client.correlator.waiters.get? t = none)
    (calls : (r.step event).2.calls.get? t = r.calls.get? t) {o : Outcome}
    (left : ((r.step event).2.client.correlator.readMail w.slot).outcome? = some o) :
    (r.step event).2.Pledged t o := by
  refine ⟨Nat.le_trans (sound.client.known t w found) (tokens_le_step sound.client event), gone, ?_⟩
  intro call held
  rw [calls, h t w found, Option.some.injEq] at held
  rw [← held]
  have lt := sound.client.coherent.slot_lt t w found
  exact .inr ⟨w.slot, rfl, Nat.lt_of_lt_of_le lt (step_advances sound event).slots, left⟩

/-- A result that is taken in is there to be asked for, merged with what was known. -/
theorem Attended.pledged_of_taken {r : Run} (h : r.Attended) (sound : r.Sound) {t : Token} {w : Waiter}
    (found : r.client.correlator.waiters.get? t = some w) {event : Event} {b : BatchId} {answer : Answer}
    (takes : r.takesIn? t event = some (b, answer)) :
    (r.step event).2.Pledged t (.ok (answer.merge w.prefill.decisions)) := by
  obtain ⟨rfl, -⟩ := reply_of_takesIn? takes
  cases turns sound found (.reply b (.result t answer)) with
  | waits _ nothing =>
    rw [nothing] at takes
    cases takes
  | ends _ _ nothing =>
    rw [nothing] at takes
    cases takes
  | answered answer' takes' gone mail =>
    cases takes.symm.trans takes'
    exact h.pledged_of_left sound found gone rfl (by rw [mail]; rfl)

/-- A new check that waits is handed its handle. -/
theorem handle_of_submitted {r : Run} (h : r.Sound) {request : Request} {w : Waiter}
    (found : (r.step (.submit request)).2.client.correlator.waiters.get? r.client.ids.nextToken.1 = some w) :
    (r.client.submit request).1 = ⟨r.client.ids.nextToken.1, .waiting w.slot⟩ := by
  have free := h.client.unseen.1
  have found' : (r.client.submit request).2.2.correlator.waiters.get? r.client.ids.nextToken.1 = some w :=
    found
  obtain ⟨token, submits, standing⟩ := h.client.submit request
  have slot := submits.fresh w found'
  cases standing with
  | refused reason closed state correlator =>
    rw [correlator, free] at found'
    cases found'
  | decided running store cache all state waiters =>
    rw [waiters, free] at found'
    cases found'
  | waits running b state waiter =>
    rw [← slot] at state
    generalize (r.client.submit request).1 = call at token state
    cases call
    cases token
    cases state
    rfl

/-- An outcome that is known at submission is there to be asked for. -/
theorem pledged_of_submitted {r : Run} (h : r.Sound) {request : Request} {o : Outcome}
    (state : (r.client.submit request).1.state = .ready o)
    (waiters : (r.client.submit request).2.2.correlator.waiters = r.client.correlator.waiters) :
    (r.step (.submit request)).2.Pledged r.client.ids.nextToken.1 o := by
  have gone : (r.client.submit request).2.2.correlator.waiters.get? r.client.ids.nextToken.1 = none := by
    rw [waiters]
    exact h.client.unseen.1
  refine ⟨issued_of_submit h.client request, gone, ?_⟩
  intro call held
  simp only [Run.step, (h.client.submit request).1, Table.get?_insert, if_true, Option.some.injEq] at held
  rw [← held]
  exact .inl state

theorem Attended.step {r : Run} (h : r.Attended) (sound : r.Sound) (event : Event) :
    (r.step event).2.Attended := by
  intro t w found
  rcases (step_advances sound event).waited t w found with before | ⟨new, -⟩
  · by_cases uses : event.Uses t
    · rcases h.step_uses sound before uses with ⟨-, same⟩ | gone
      · rw [same]
        exact h t w before
      · rw [gone] at found
        cases found
    · rw [(step_of_not_uses sound (sound.client.known t w before) uses).2]
      exact h t w before
  · have issued := (sound.step event).client.known t w found
    rw [tokens_step sound.client event] at issued
    cases event with
    | submit request =>
      obtain rfl : r.client.ids.nextToken.1 = t := congrArg Token.mk (Nat.le_antisymm new issued)
      rw [← handle_of_submitted sound found]
      simp only [Run.step, Table.get?_insert]
      rw [(sound.client.submit request).1, if_pos rfl]
    | _ => exact absurd issued (Nat.not_le_of_lt new)

theorem fresh_attended (config : Config) (horizon : Instant) : (fresh config horizon).Attended := by
  intro t w found
  simp [fresh] at found

theorem Attended.after {r : Run} (h : r.Attended) (sound : r.Sound) (events : List Event) :
    (r.after events).2.Attended :=
  (after_keeps (P := fun r => r.Sound ∧ r.Attended)
    (fun _ event ⟨sound, h⟩ => ⟨sound.step event, h.step sound event⟩) ⟨sound, h⟩ events).2

/-- Nothing has been told under a token that waits. -/
theorem told_of_waiting {config : Config} {horizon : Instant} {events : List Event} {t : Token} {w : Waiter}
    (found : ((fresh config horizon).after events).2.client.correlator.waiters.get? t = some w) :
    told t ((fresh config horizon).after events).1 = [] := by
  have sound₀ := fresh_sound_run config horizon
  induction events using List.reverseRecOn with
  | nil => rfl
  | append_singleton events event ih =>
    have sound := sound₀.after events
    have attended := (fresh_attended config horizon).after sound₀ events
    rw [after_snoc] at found
    rw [told_after_append, told_after_cons, after_nil, told_nil, List.append_nil]
    rcases (step_advances sound event).waited t w found with before | ⟨new, -⟩
    · rw [ih before, List.nil_append]
      exact attended.told_step sound before found
    · rw [told_of_unissued sound₀ new, List.nil_append, List.eq_nil_iff_forall_not_mem]
      intro o member
      obtain ⟨call, held, -⟩ := outcome_of_shown ((mem_told_iff t o _).1 member)
      have issued := (sound.issued t call held).2
      omega

end Run

end PolicyClient
