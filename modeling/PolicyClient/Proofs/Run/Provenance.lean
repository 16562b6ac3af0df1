/-
# PolicyClient.Proofs.Run.Provenance -- where an answer comes from

A result that is read counts for the check whose token it carries, and only if that check
is still unanswered in the attempt it is read in: then the attempt takes it in
(`Run.takesIn?`).  `Run.takings` lists the results that are taken in for one token over a
history, each with the batch whose attempt took it in.

`Run.answer_provenance` says what a caller can be answered.  Either the cache decided every
action at submission, and the answer is these decisions; or exactly one result was ever
taken in for its token, by an attempt of the batch the check was registered under, and the
answer is that result with the decisions that the cache gave at submission.  Replies that
name other tokens, or come from the attempt of another batch, have no part in it.

The proof follows one token from its submission on (`Run.Follows`).
-/
import PolicyClient.Proofs.Cache.Lookup
import PolicyClient.Proofs.Run.Handles

namespace PolicyClient

set_option autoImplicit false

open Exchange (named)

/-! ## Reading a result -/

namespace Client

/-- Whether an attempt of `b` is under way in which `t` is unanswered. -/
def awaits (c : Client) (b : BatchId) (t : Token) : Bool :=
  match c.dispatch? b with
  | some d =>
    match d.phase with
    | .reading _ a => decide (t ∈ a.unanswered)
    | _ => false
  | none => false

theorem awaits_iff (c : Client) (b : BatchId) (t : Token) :
    c.awaits b t = true ↔
      ∃ d deadline a, c.dispatch? b = some d ∧ d.phase = .reading deadline a ∧ t ∈ a.unanswered := by
  unfold awaits
  constructor
  · intro waits
    split at waits
    · rename_i d found
      split at waits
      · rename_i deadline a phase
        exact ⟨d, deadline, a, found, phase, of_decide_eq_true waits⟩
      · cases waits
    · cases waits
  · rintro ⟨d, deadline, a, found, phase, member⟩
    simp [found, phase, member]

/-- A result reaches the correlator if the attempt awaits it. -/
theorem onReply_result (c : Client) (b : BatchId) (t : Token) (answer : Answer) :
    (c.onReply b (.result t answer)).correlator =
      if c.awaits b t = true then (c.correlator.resolve t answer).2 else c.correlator := by
  unfold onReply awaits
  cases c.dispatch? b with
  | none => rfl
  | some d =>
    cases phase : d.phase with
    | reading deadline a =>
      by_cases member : t ∈ a.unanswered
      · simp [phase, Exchange.read, Exchange.readResult, member, settle, keep, Exchange.strike]
      · simp [phase, Exchange.read, Exchange.readResult, member, settle, keep, Exchange.countViolation]
    | _ => simp [phase]

namespace Sound

variable {c : Client}

theorem owes_of_awaits {b : BatchId} {t : Token} (awaits : c.awaits b t = true) : c.owes t := by
  obtain ⟨d, deadline, a, found, phase, member⟩ := (c.awaits_iff b t).1 awaits
  refine .inr ⟨d, (mem_of_dispatch? found).1, ?_⟩
  rw [Dispatch.owes, phase]
  exact .inl member

/-- What an attempt awaits is registered under its batch, if it waits at all. -/
theorem batch_of_awaits (h : c.Sound) {b : BatchId} {t : Token} (awaits : c.awaits b t = true)
    {w : Waiter} (found : c.correlator.waiters.get? t = some w) : w.batch = b := by
  obtain ⟨d, deadline, a, under, phase, member⟩ := (c.awaits_iff b t).1 awaits
  obtain ⟨held, id⟩ := mem_of_dispatch? under
  have item := (h.accounts d held deadline a phase c.stats).unanswered t member
  exact (h.batch_eq held item found).trans id

theorem holder_unique (h : c.Sound) {t : Token} {b b' : BatchId} (held : (t, b) ∈ c.holdings)
    (held' : (t, b') ∈ c.holdings) : b = b' :=
  congrArg Prod.snd (List.inj_on_of_nodup_map h.distinct held held' rfl)

/-- Once its result is taken in, nobody owes a token an answer any more. -/
theorem settled_of_awaits (h : c.Sound) {b : BatchId} {t : Token} (awaits : c.awaits b t = true)
    (answer : Answer) : ¬ (c.onReply b (.result t answer)).owes t := by
  obtain ⟨d, deadline, a, under, phase, member⟩ := (c.awaits_iff b t).1 awaits
  obtain ⟨held, -⟩ := mem_of_dispatch? under
  have balanced := h.accounts d held deadline a phase c.stats
  have item : (t, d.id) ∈ c.holdings :=
    (c.mem_holdings_iff t d.id).2 (.inr ⟨d, held, balanced.unanswered t member, rfl⟩)
  simp only [Client.onReply, under, phase, Exchange.read]
  rintro (filling | ⟨e, under', owed⟩)
  · have other := h.holder_unique item ((c.mem_holdings_iff t _).2 (.inl ⟨filling, rfl⟩))
    exact h.not_open held other.symm
  · rcases mem_keep _ under' with rfl | ⟨before, other⟩
    · simp only [Dispatch.owes, Exchange.readResult, member, if_true, Exchange.strike,
        List.mem_filter, ne_eq, not_true_eq_false, decide_false, Bool.false_eq_true, and_false,
        false_or] at owed
      exact balanced.apart t member owed
    · have item' : (t, e.id) ∈ c.holdings :=
        (c.mem_holdings_iff t e.id).2 (.inr ⟨e, before, h.item_of_owes before owed, rfl⟩)
      exact other (h.holder_unique item' item)

end Sound

end Client

namespace Run

/-! ## The results that are taken in -/

/-- The result that an event has an attempt take in for `t`, with the batch of the attempt. -/
def takesIn? (r : Run) (t : Token) : Event → Option (BatchId × Answer)
  | .reply b (.result t' answer) =>
    if t' = t ∧ r.client.awaits b t = true then some (b, answer) else none
  | _ => none

/-- All results that are taken in for `t` over a history. -/
def takings (r : Run) (t : Token) : List Event → List (BatchId × Answer)
  | [] => []
  | event :: events => (r.takesIn? t event).toList ++ (r.step event).2.takings t events

theorem takings_append (r : Run) (t : Token) (first later : List Event) :
    r.takings t (first ++ later) = r.takings t first ++ (r.after first).2.takings t later := by
  induction first generalizing r with
  | nil => rfl
  | cons event first ih =>
    rw [List.cons_append, takings, takings, ih, after_cons, List.append_assoc]

theorem takesIn?_of_plain {r : Run} {t : Token} {event : Event} (plain : event.Plain) :
    r.takesIn? t event = none := by
  cases event with
  | reply b reply =>
    cases reply with
    | result t' answer => exact plain.elim
    | _ => rfl
  | _ => rfl

theorem takesIn?_submit (r : Run) (t : Token) (request : Request) :
    r.takesIn? t (.submit request) = none := rfl

/-- Only a result that is awaited is taken in. -/
theorem reply_of_takesIn? {r : Run} {t : Token} {event : Event} {b : BatchId} {answer : Answer}
    (takes : r.takesIn? t event = some (b, answer)) :
    event = .reply b (.result t answer) ∧ r.client.awaits b t = true := by
  cases event with
  | reply b' reply =>
    cases reply with
    | result t' answer' =>
      by_cases taken : t' = t ∧ r.client.awaits b' t = true
      · rw [takesIn?, if_pos taken] at takes
        cases takes
        exact ⟨by rw [taken.1], taken.2⟩
      · rw [takesIn?, if_neg taken] at takes
        cases takes
    | _ => cases takes
  | _ => cases takes

theorem takesIn?_of_not_awaits {r : Run} {t t' : Token} {b : BatchId} {answer : Answer}
    (other : t' = t → r.client.awaits b t ≠ true) : r.takesIn? t (.reply b (.result t' answer)) = none := by
  simp only [takesIn?]
  exact if_neg fun ⟨same, awaits⟩ => other same awaits

/-! ## What no event changes -/

/-- Whatever happens, tokens and slots are only added, new checks get new ones, nobody
comes to owe an old token an answer, and a slot at which nobody waits stays as it is. -/
structure Advances (r r' : Run) : Prop where
  tokens : r.client.ids.tokens ≤ r'.client.ids.tokens
  slots : r.client.correlator.mail.length ≤ r'.client.correlator.mail.length
  waited : ∀ t w, r'.client.correlator.waiters.get? t = some w →
    r.client.correlator.waiters.get? t = some w ∨
      (r.client.ids.tokens < t.number ∧ w.slot = r.client.correlator.mail.length)
  owes : ∀ t, t.number ≤ r.client.ids.tokens → r'.client.owes t → r.client.owes t
  kept : ∀ s, s < r.client.correlator.mail.length →
    (∀ t w, r.client.correlator.waiters.get? t = some w → w.slot ≠ s) →
    r'.client.correlator.readMail s = r.client.correlator.readMail s

theorem step_advances {r : Run} (h : r.Sound) (event : Event) : Advances r (r.step event).2 := by
  have tokens := tokens_le_step h.client event
  by_cases plain : event.Plain
  · have lapses := step_lapses h.client plain
    exact ⟨tokens, Nat.le_of_eq lapses.fails.slots.symm, fun t w found => .inl (lapses.ends.waited t w found),
      fun t _ owed => lapses.owes t owed, fun s _ free => lapses.fails.kept s free⟩
  · cases event with
    | submit request =>
      obtain ⟨-, submits, -⟩ := h.client.submit request
      refine ⟨tokens, submits.slots, ?_, ?_, fun s lt _ => submits.kept s lt⟩
      · intro t w found
        by_cases new : t = r.client.ids.nextToken.1
        · rw [new] at found ⊢
          exact .inr ⟨Nat.lt_succ_self _, submits.fresh w found⟩
        · exact .inl ((submits.others t new).symm.trans found)
      · intro t issued owed
        refine (submits.owes t owed).resolve_left fun new => ?_
        rw [new] at issued
        exact Nat.not_succ_le_self _ issued
    | age d => exact ⟨tokens, Nat.le_refl _, fun t w found => .inl found, fun t _ owed => owed, fun s _ _ => rfl⟩
    | reply b reply =>
      cases reply with
      | result t' answer =>
        have carries := h.client.onReply b (.result t' answer)
        have correlator : (r.step (.reply b (.result t' answer))).2.client.correlator = _ :=
          r.client.onReply_result b t' answer
        have settles := Correlator.resolve_settles h.client.coherent t' answer
        refine ⟨tokens, ?_, fun t w found => .inl (carries.ends.waited t w found),
          fun t _ owed => carries.owes t owed, ?_⟩
        · rw [correlator]
          split
          · exact Nat.le_of_eq settles.slots.symm
          · exact Nat.le_refl _
        · intro s _ free
          rw [correlator]
          split
          · exact settles.kept s fun t w found slot => absurd slot (free t w found)
          · rfl
      | _ => exact absurd trivial plain
    | _ => exact absurd trivial plain

theorem gone_step {r : Run} (h : r.Sound) {t : Token} (issued : t.number ≤ r.client.ids.tokens)
    (gone : r.client.correlator.waiters.get? t = none) (event : Event) :
    (r.step event).2.client.correlator.waiters.get? t = none := by
  cases found : (r.step event).2.client.correlator.waiters.get? t with
  | none => rfl
  | some w =>
    rcases (step_advances h event).waited t w found with before | ⟨new, -⟩
    · rw [gone] at before
      cases before
    · omega

/-! ## What becomes of a check that waits -/

/-- A check that waits under `t` as `w` goes on waiting, ends without an answer, or is
answered by the result that the event has its own batch take in. -/
inductive Turns (r : Run) (t : Token) (w : Waiter) (event : Event) : Prop
  | waits (found : (r.step event).2.client.correlator.waiters.get? t = some w)
      (nothing : r.takesIn? t event = none)
  | ends (gone : (r.step event).2.client.correlator.waiters.get? t = none)
      (silent : ∀ a, (r.step event).2.client.correlator.readMail w.slot ≠ .delivered (.ok a))
      (nothing : r.takesIn? t event = none)
  | answered (answer : Answer) (takes : r.takesIn? t event = some (w.batch, answer))
      (gone : (r.step event).2.client.correlator.waiters.get? t = none)
      (mail : (r.step event).2.client.correlator.readMail w.slot =
        .delivered (.ok (answer.merge w.prefill.decisions)))
      (released : ¬ (r.step event).2.client.owes t)

theorem turns_of_plain {r : Run} (h : r.Sound) {t : Token} {w : Waiter}
    (found : r.client.correlator.waiters.get? t = some w) {event : Event} (plain : event.Plain) :
    Turns r t w event := by
  have lapses := step_lapses h.client plain
  have nothing := takesIn?_of_plain (r := r) (t := t) plain
  cases left : (r.step event).2.client.correlator.waiters.get? t with
  | none => exact .ends left (lapses.fails.ended t w found left) nothing
  | some w' =>
    have before := lapses.ends.waited t w' left
    rw [found, Option.some.injEq] at before
    exact .waits (before ▸ left) nothing

theorem turns_of_result {r : Run} (h : r.Sound) {t : Token} {w : Waiter}
    (found : r.client.correlator.waiters.get? t = some w) (b : BatchId) (t' : Token) (answer : Answer) :
    Turns r t w (.reply b (.result t' answer)) := by
  have correlator : (r.step (.reply b (.result t' answer))).2.client.correlator = _ :=
    r.client.onReply_result b t' answer
  by_cases awaits : r.client.awaits b t' = true
  · rw [if_pos awaits] at correlator
    have settles := Correlator.resolve_settles h.client.coherent t' answer
    by_cases same : t' = t
    · subst same
      refine .answered answer ?_ ?_ ?_ (h.client.settled_of_awaits awaits answer)
      · rw [h.client.batch_of_awaits awaits found]
        simp [takesIn?, awaits]
      · rw [correlator]
        exact Correlator.resolve_gone h.client.coherent t' answer
      · rw [correlator]
        exact settles.posted t' w _ found (by rw [Correlator.only, if_pos rfl])
    · refine .waits ?_ (takesIn?_of_not_awaits fun eq => absurd eq same)
      rw [correlator]
      exact (settles.waits_iff t w).2 ⟨found, by rw [Correlator.only, if_neg (Ne.symm same)]⟩
  · rw [if_neg awaits] at correlator
    refine .waits ?_ (takesIn?_of_not_awaits fun eq => eq ▸ awaits)
    rw [correlator]
    exact found

theorem turns {r : Run} (h : r.Sound) {t : Token} {w : Waiter}
    (found : r.client.correlator.waiters.get? t = some w) (event : Event) : Turns r t w event := by
  by_cases plain : event.Plain
  · exact turns_of_plain h found plain
  · cases event with
    | submit request =>
      obtain ⟨-, submits, -⟩ := h.client.submit request
      have issued := h.client.known t w found
      refine .waits ((submits.others t fun new => ?_).trans found) rfl
      rw [new] at issued
      exact Nat.not_succ_le_self _ issued
    | age d => exact .waits found rfl
    | reply b reply =>
      cases reply with
      | result t' answer => exact turns_of_result h found b t' answer
      | _ => exact absurd trivial plain
    | _ => exact absurd trivial plain

/-! ## One token -/

/-- What is true of a check that was registered under `t` as `w`, with the results taken in
for it so far: it waits and has none; or it has ended, and with an answer only if exactly
one was taken in, and then nobody owes it another. -/
structure Follows (r : Run) (t : Token) (w : Waiter) (taken : List (BatchId × Answer)) : Prop where
  issued : t.number ≤ r.client.ids.tokens
  slot_lt : w.slot < r.client.correlator.mail.length
  apart : ∀ t' w', r.client.correlator.waiters.get? t' = some w' → w'.slot = w.slot → t' = t
  standing : (r.client.correlator.waiters.get? t = some w ∧ taken = []) ∨
    (r.client.correlator.waiters.get? t = none ∧
      ∀ a, r.client.correlator.readMail w.slot = .delivered (.ok a) →
        ¬ r.client.owes t ∧ ∃ answer, taken = [(w.batch, answer)] ∧
          a = answer.merge w.prefill.decisions)

namespace Follows

variable {r : Run} {t : Token} {w : Waiter} {taken : List (BatchId × Answer)}

/-- A check with an answer in its slot has ended. -/
theorem gone (h : r.Follows t w taken) (sound : r.Sound) {a : Answer}
    (mail : r.client.correlator.readMail w.slot = .delivered (.ok a)) :
    r.client.correlator.waiters.get? t = none := by
  rcases h.standing with ⟨found, -⟩ | ⟨gone, -⟩
  · rw [sound.client.coherent.awaited t w found] at mail
    cases mail
  · exact gone

/-- The slot of a check that has ended stays as it is. -/
theorem mail_step (h : r.Follows t w taken) (sound : r.Sound)
    (gone : r.client.correlator.waiters.get? t = none) (event : Event) :
    (r.step event).2.client.correlator.readMail w.slot = r.client.correlator.readMail w.slot := by
  refine (step_advances sound event).kept w.slot h.slot_lt fun t' w' found slot => ?_
  rw [h.apart t' w' found slot, gone] at found
  cases found

/-- **Every event** leaves a check as it is told by the results taken in for it. -/
theorem step (h : r.Follows t w taken) (sound : r.Sound) (event : Event) :
    (r.step event).2.Follows t w (taken ++ (r.takesIn? t event).toList) := by
  have advances := step_advances sound event
  refine ⟨Nat.le_trans h.issued advances.tokens, Nat.lt_of_lt_of_le h.slot_lt advances.slots, ?_,
    ?_⟩
  · intro t' w' found slot
    rcases advances.waited t' w' found with before | ⟨-, last⟩
    · exact h.apart t' w' before slot
    · have lt := h.slot_lt
      omega
  · rcases h.standing with ⟨found, nothing⟩ | ⟨gone, told⟩
    · cases turns sound found event with
      | waits found' untaken => exact .inl ⟨found', by rw [nothing, untaken]; rfl⟩
      | ends gone silent untaken => exact .inr ⟨gone, fun a mail => absurd mail (silent a)⟩
      | answered answer takes gone mail released =>
        refine .inr ⟨gone, fun a mail' => ⟨released, answer, by rw [nothing, takes]; rfl, ?_⟩⟩
        rw [mail] at mail'
        cases mail'
        rfl
    · refine .inr ⟨gone_step sound h.issued gone event, ?_⟩
      intro a mail
      rw [h.mail_step sound gone event] at mail
      obtain ⟨released, only⟩ := told a mail
      -- Nobody owes the check an answer, so no attempt awaits one.
      have untaken : r.takesIn? t event = none := by
        unfold takesIn?
        split
        · exact if_neg fun ⟨same, awaits⟩ => released (Client.Sound.owes_of_awaits awaits)
        · rfl
      rw [untaken, Option.toList_none, List.append_nil]
      exact ⟨fun owed => released (advances.owes t h.issued owed), only⟩

theorem after (h : r.Follows t w taken) (sound : r.Sound) (events : List Event) :
    (r.after events).2.Follows t w (taken ++ r.takings t events) := by
  induction events generalizing r taken with
  | nil => simpa [takings] using h
  | cons event events ih =>
    rw [after_cons, takings, ← List.append_assoc]
    exact ih (h.step sound event) (sound.step event)

/-- An answer stays in its slot. -/
theorem mail_after (h : r.Follows t w taken) (sound : r.Sound) {a : Answer}
    (mail : r.client.correlator.readMail w.slot = .delivered (.ok a)) (events : List Event) :
    (r.after events).2.client.correlator.readMail w.slot = .delivered (.ok a) := by
  induction events generalizing r taken with
  | nil => exact mail
  | cons event events ih =>
    rw [after_cons]
    refine ih (h.step sound event) (sound.step event) ?_
    rw [h.mail_step sound (h.gone sound mail) event]
    exact mail

/-- An answer that is told in the end lies in the slot of its check. -/
theorem mail_of_shown (h : r.Follows t w taken) (sound : r.Sound)
    (starts : r.Starts t (.waiting w.slot)) {events : List Event} {a : Answer}
    (shown : .outcome t (.ok a) ∈ (r.after events).1) :
    (r.after events).2.client.correlator.readMail w.slot = .delivered (.ok a) := by
  induction events generalizing r taken with
  | nil => cases shown
  | cons event events ih =>
    rw [after_cons] at shown
    rcases List.mem_append.1 shown with now | later
    · rcases starts.answer now with ready | ⟨slot, waiting, mail⟩
      · cases ready
      · cases waiting
        exact h.mail_after sound mail (event :: events)
    · rw [after_cons]
      exact ih (h.step sound event) (sound.step event) (starts.step sound h.issued event) later

end Follows

/-- An answer told for a check that waits is the one result that is taken in for it. -/
theorem taken_of_shown {r : Run} (sound : r.Sound) {t : Token} {w : Waiter}
    (found : r.client.correlator.waiters.get? t = some w) (starts : r.Starts t (.waiting w.slot))
    {events : List Event} {a : Answer} (shown : .outcome t (.ok a) ∈ (r.after events).1) :
    ∃ answer, r.takings t events = [(w.batch, answer)] ∧ a = answer.merge w.prefill.decisions := by
  have coherent := sound.client.coherent
  have follows : r.Follows t w [] :=
    ⟨sound.client.known t w found, coherent.slot_lt t w found,
      fun t' w' found' slot => coherent.slot_inj t' w' _ _ found' found slot, .inl ⟨found, rfl⟩⟩
  have mail := follows.mail_of_shown sound starts shown
  have followed := follows.after sound events
  rcases followed.standing with ⟨waits, -⟩ | ⟨-, only⟩
  · rw [followed.gone (sound.after events) mail] at waits
    cases waits
  · exact (only a mail).2

/-- An answer that was there at submission is the only one that is ever told. -/
theorem Starts.ready_of_shown {r : Run} (sound : r.Sound) {t : Token} {o : Outcome}
    (issued : t.number ≤ r.client.ids.tokens) (starts : r.Starts t (.ready o)) {events : List Event}
    {a : Answer} (shown : .outcome t (.ok a) ∈ (r.after events).1) : o = .ok a := by
  induction events generalizing r with
  | nil => cases shown
  | cons event events ih =>
    rw [after_cons] at shown
    rcases List.mem_append.1 shown with now | later
    · rcases starts.answer now with ready | ⟨slot, waiting, -⟩
      · cases ready
        rfl
      · cases waiting
    · exact ih (sound.step event) (Nat.le_trans issued (tokens_le_step sound.client event))
        (starts.step sound issued event) later

/-! ## Every run -/

/-- A token that has not been issued is not told of, and no result is taken in for it. -/
theorem submission_of_shown {r : Run} (sound : r.Sound) {t : Token} (new : r.client.ids.tokens < t.number)
    {events : List Event} {o : Outcome} (shown : .outcome t o ∈ (r.after events).1) :
    ∃ before request since, events = before ++ .submit request :: since ∧
      (r.after before).2.client.ids.nextToken.1 = t ∧ r.takings t before = [] ∧
      .outcome t o ∈ (((r.after before).2.step (.submit request)).2.after since).1 := by
  induction events generalizing r with
  | nil => cases shown
  | cons event events ih =>
    rw [after_cons] at shown
    rcases List.mem_append.1 shown with now | later
    · obtain ⟨call, held, -⟩ := outcome_of_shown now
      have issued := (sound.issued t call held).2
      omega
    · by_cases here : ∃ request, event = .submit request ∧ r.client.ids.nextToken.1 = t
      · obtain ⟨request, rfl, token⟩ := here
        exact ⟨[], request, events, rfl, token, rfl, later⟩
      · have untaken : r.takesIn? t event = none := by
          unfold takesIn?
          split
          · refine if_neg fun ⟨same, awaits⟩ => ?_
            have issued := sound.client.issued_of_owes (Client.Sound.owes_of_awaits awaits)
            omega
          · rfl
        have new' : (r.step event).2.client.ids.tokens < t.number := by
          rw [tokens_step sound.client event]
          cases event with
          | submit request =>
            have other : r.client.ids.tokens + 1 ≠ t.number := fun same =>
              here ⟨request, rfl, congrArg Token.mk same⟩
            simp only
            omega
          | _ => exact new
        obtain ⟨before, request, since, split, token, none, told⟩ := ih (sound.step event) new' later
        refine ⟨event :: before, request, since, by rw [split]; rfl, ?_, ?_, ?_⟩
        · rw [after_cons]
          exact token
        · rw [takings, untaken, none]
          rfl
        · rw [after_cons]
          exact told

end Run

namespace Client

/-- The cache of `c` decides every action of a request, and `a` holds these decisions and
nothing else. -/
structure Decides (c : Client) (request : Request) (a : Answer) : Prop where
  all : ∃ store, c.correlator.cache = some store ∧
    (∀ action ∈ request.actions, store.find? (.of request action) ≠ none) ∧
    ∀ action, a.decisions.get? action =
      if action ∈ request.actions then store.find? (.of request action) else none
  validationErrors : a.validationErrors = []
  outputs : a.outputs = .empty

theorem decides_of_asked_nil {c : Client} {store : DecisionStore Fingerprint} {request : Request}
    (cache : c.correlator.cache = some store) (all : (c.prefill request).asked = []) :
    Decides c request { decisions := (c.prefill request).decisions } := by
  obtain ⟨-, decided, -, covered⟩ := consult_consults store request
  have recalled : c.prefill request = (consult store request).1 := by rw [Client.prefill, cache]
  rw [← recalled] at decided covered
  have found : ∀ action ∈ request.actions, ∃ d, (c.prefill request).decisions.get? action = some d ∧
      store.find? (.of request action) = some d := by
    intro action member
    rcases covered action member with ⟨d, known⟩ | asked
    · exact ⟨d, known, (decided action d known).2⟩
    · rw [all] at asked
      cases asked
  refine ⟨⟨store, cache, fun action member => ?_, fun action => ?_⟩, rfl, rfl⟩
  · obtain ⟨d, -, held⟩ := found action member
    rw [held]
    exact Option.some_ne_none d
  · by_cases member : action ∈ request.actions
    · obtain ⟨d, known, held⟩ := found action member
      rw [if_pos member, held]
      exact known
    · rw [if_neg member]
      cases known : (c.prefill request).decisions.get? action with
      | none => rfl
      | some d => exact absurd (decided action d known).1 member

end Client

namespace Run

/-- An answer told under a token, from the submission on that the token is issued at. -/
theorem provenance_since_submission {r : Run} (sound : r.Sound) {request : Request} {since : List Event}
    {a : Answer} (told : .outcome r.client.ids.nextToken.1 (.ok a) ∈
      ((r.step (.submit request)).2.after since).1) :
    r.client.Decides request a ∨
      ∃ w answer,
        (r.step (.submit request)).2.client.correlator.waiters.get? r.client.ids.nextToken.1 = some w ∧
        w.prefill = r.client.prefill request ∧
        (r.step (.submit request)).2.takings r.client.ids.nextToken.1 since = [(w.batch, answer)] ∧
        a = answer.merge w.prefill.decisions := by
  obtain ⟨given, submits, standing⟩ := sound.client.submit request
  have sound' := sound.step (.submit request)
  have issued := issued_of_submit sound.client request
  have starts : (r.step (.submit request)).2.Starts r.client.ids.nextToken.1
      (r.client.submit request).1.state := fun call held => by
    simp only [step] at held
    rw [Table.get?_insert, given, if_pos rfl, Option.some.injEq] at held
    exact .inl (by rw [held])
  cases standing with
  | refused reason closed state correlator =>
    rw [state] at starts
    cases starts.ready_of_shown sound' issued told
  | decided running store cache all state waiters =>
    rw [state] at starts
    cases starts.ready_of_shown sound' issued told
    exact .inl (Client.decides_of_asked_nil cache all)
  | waits running b state waiter =>
    rw [state] at starts
    obtain ⟨answer, taken, merged⟩ := taken_of_shown sound' waiter starts told
    exact .inr ⟨_, answer, waiter, rfl, taken, merged⟩

/-- **No answer reaches the wrong caller.**  An answer told under a token goes back to the
submission that the token was issued at.  Either the cache decided every action then, and
these decisions are the answer; or over the whole history exactly one result was taken in
for the token, by an attempt of the batch it was registered under, and the answer is that
result with the decisions that the cache gave at submission. -/
theorem answer_provenance {config : Config} {horizon : Instant} {r₀ : Run} (started : start config horizon = .ok r₀)
    {events : List Event} {t : Token} {a : Answer} (shown : .outcome t (.ok a) ∈ (r₀.after events).1) :
    ∃ before request since, events = before ++ .submit request :: since ∧
      .issued t ∈ ((r₀.after before).2.step (.submit request)).1 ∧
      ((r₀.after before).2.client.Decides request a ∨
        ∃ w answer,
          ((r₀.after before).2.step (.submit request)).2.client.correlator.waiters.get? t = some w ∧
          w.prefill = (r₀.after before).2.client.prefill request ∧
          r₀.takings t events = [(w.batch, answer)] ∧ a = answer.merge w.prefill.decisions) := by
  have sound₀ := start_sound_run started
  have new : r₀.client.ids.tokens < t.number := by
    have pos := pos_of_shown sound₀ shown
    rw [((start_eq_ok_iff config horizon r₀).1 started).2]
    exact pos
  obtain ⟨before, request, since, split, rfl, none, told⟩ := submission_of_shown sound₀ new shown
  have sound := sound₀.after before
  refine ⟨before, request, since, split, ?_, ?_⟩
  · simp only [step]
    rw [(sound.client.submit request).1]
    exact List.mem_cons_self ..
  · rw [split, takings_append, none, takings, takesIn?_submit]
    exact provenance_since_submission sound told

/-- Two checks are in flight in two batches.  The attempt of the first reads a result for
the second and one for a token that nobody has, before each reads its own. -/
def crossedResults : List Event :=
  [.submit mayAliceView, .submit mayAliceView,
    .due ⟨1⟩ true, .connected ⟨1⟩ (.ok ()), .due ⟨2⟩ true, .connected ⟨2⟩ (.ok ()),
    .reply ⟨1⟩ (.result ⟨2⟩ (.ofDecisions [(view, .allow)])),
    .reply ⟨1⟩ (.result ⟨9⟩ (.ofDecisions [(view, .allow)])),
    .reply ⟨2⟩ (.result ⟨2⟩ (.ofDecisions [(view, .deny)])),
    .reply ⟨1⟩ (.result ⟨1⟩ (.ofDecisions [(view, .allow)])), .poll ⟨2⟩]

/-- The second check is answered by the one result that its own attempt reads for it. -/
theorem crossed_results_answer_their_own :
    start { maxBatchSize := 1 } .horizon = .ok (fresh { maxBatchSize := 1 } .horizon) ∧
      .outcome ⟨2⟩ (.ok (.ofDecisions [(view, .deny)])) ∈
        ((fresh { maxBatchSize := 1 } .horizon).after crossedResults).1 ∧
      (fresh { maxBatchSize := 1 } .horizon).takings ⟨2⟩ crossedResults =
        [(⟨2⟩, .ofDecisions [(view, .deny)])] ∧
      ∃ before request since, crossedResults = before ++ .submit request :: since ∧
        .issued ⟨2⟩ ∈ (((fresh { maxBatchSize := 1 } .horizon).after before).2.step (.submit request)).1 := by
  have started : start { maxBatchSize := 1 } .horizon = .ok (fresh { maxBatchSize := 1 } .horizon) := by rfl
  have shown : .outcome ⟨2⟩ (.ok (.ofDecisions [(view, .deny)])) ∈
      ((fresh { maxBatchSize := 1 } .horizon).after crossedResults).1 :=
    List.mem_of_getLast? (by rfl)
  obtain ⟨before, request, since, split, issued, -⟩ := answer_provenance started shown
  exact ⟨started, shown, by rfl, before, request, since, split, issued⟩

end Run

end PolicyClient
