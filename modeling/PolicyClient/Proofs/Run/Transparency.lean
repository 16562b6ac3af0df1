/-
# PolicyClient.Proofs.Run.Transparency -- batching and caching do not show

A transport serves a policy if it connects and answers all it is sent, in whatever order,
as the policy does (`Run.Serves`).  Then a caller who waits is told the answer of the policy
to the request, as if it had been evaluated alone, whatever batch it travelled in and
whatever the cache knew of it (`Run.batching_transparent`).

What an event does to a client that is served well is said once (`Run.GoesOn`): the session
stays open, no item appears but what a submission leaves to ask, and who waits goes on
waiting until the answer comes.  So every item asks what is left of a request, and every
decision in the cache is that of the policy (`Run.Faithful`).
-/
import PolicyClient.Proofs.Check.Policy
import PolicyClient.Proofs.Client.Flow
import PolicyClient.Proofs.Run.Outcomes
import PolicyClient.Proofs.Run.Remembering

namespace PolicyClient

set_option autoImplicit false

open Client (Flows consult_consults)

/-- Whether a caller gives up the check under `t`, if it still waits. -/
def Event.Withdraws (t : Token) : Event → Prop
  | .cancel t' | .drop t' | .expire t' _ => t' = t
  | _ => False

namespace Run

/-! ## A transport that serves a policy -/

/-- The event may come from a transport that serves `f`, or from callers who leave the
session open.  Connections are made, no reply is a failure, a result that is awaited is the
answer of `f` to the item it is for, and everything is answered when the replies end or the
deadline passes.  The client is not given up while a dispatch that broke off may have left
checks behind. -/
def Serves (r : Run) (f : Policy) : Event → Prop
  | .close | .reply _ (.failed _ _) => False
  | .abandon => r.client.broken = []
  | .connected _ result => result = .ok ()
  | .reply b (.result t answer) => r.client.awaits b t = true →
      ∀ d ∈ r.client.dispatches, d.id = b → ∀ i ∈ d.items, i.token = t →
        answer = f.answer i.request
  | .streamEnd b => ∀ t, r.client.awaits b t = false
  | .deadline b => r.client.Overdue b → ∀ t, r.client.awaits b t = false
  | _ => True

/-- Every event of the history may come from such a transport. -/
def Served (r : Run) (f : Policy) : List Event → Prop
  | [] => True
  | event :: events => r.Serves f event ∧ (r.step event).2.Served f events

/-- The caller of `t` does not give up the check as long as it waits. -/
def WaitsOut (r : Run) (t : Token) : List Event → Prop
  | [] => True
  | event :: events =>
    (event.Withdraws t → r.client.correlator.isLive t = false) ∧ (r.step event).2.WaitsOut t events

/-! ## One event -/

/-- What an event leaves as it is when a policy is served. -/
structure GoesOn (r : Run) (event : Event) : Prop where
  running : (r.step event).2.client.lifecycle.closedReason = none
  untroubled : (r.step event).2.client.Untroubled
  holds : ∀ i, (r.step event).2.client.Holds i → r.client.Holds i ∨
    ∃ q, event = .submit q ∧ i = ⟨r.client.ids.nextToken.1, (r.client.prefill q).remaining q⟩
  waits : ∀ t w, r.client.correlator.waiters.get? t = some w → ¬ event.Withdraws t →
    r.takesIn? t event = none → (r.step event).2.client.correlator.waiters.get? t = some w

section

variable {r : Run} (running : r.client.lifecycle.closedReason = none) (untroubled : r.client.Untroubled)

include running untroubled

theorem goesOn_of_flows {event : Event} (flows : Flows r.client (r.step event).2.client) :
    GoesOn r event where
  running := flows.reason.trans running
  untroubled := flows.untroubled untroubled
  holds i held := .inl (flows.holds i held)
  waits t w found _ _ := by
    rw [flows.correlator]
    exact found

/-- A caller uses a handle: at most the calls that wait change, and at most by one. -/
theorem goesOn_of_settles {event : Event} {t : Token} {k : Correlator} (withdraws : event.Withdraws t)
    (settles : r.client.correlator.Settles (Correlator.only t fun _ => .abandoned) k)
    (client : (r.step event).2.client = { r.client with correlator := k }) : GoesOn r event := by
  refine ⟨by rw [client]; exact running, by rw [client]; exact untroubled,
    fun i held => .inl (by rw [client] at held; exact held), ?_⟩
  intro t' w found kept _
  rw [client]
  refine (settles.waits_iff t' w).2 ⟨found, if_neg ?_⟩
  rintro rfl
  exact kept withdraws

/-- The client is given up with every dispatch seen through: nobody waits. -/
theorem goesOn_of_abandon (sound : r.client.Sound) (whole : r.client.broken = []) : GoesOn r .abandon := by
  by_cases idle : (r.client.openBatch.items.isEmpty && r.client.dispatches.isEmpty) = true
  · have client : (r.step .abandon).2.client =
        { r.client with correlator := r.client.correlator.abandonAll } := if_pos idle
    refine ⟨by rw [client]; exact running, by rw [client]; exact untroubled,
      fun i held => .inl (by rw [client] at held; exact held), ?_⟩
    intro t w found _ _
    obtain ⟨filling, dispatches⟩ : r.client.openBatch.items = [] ∧ r.client.dispatches = [] := by
      simpa using idle
    rcases sound.held t w found with broken | held
    · rw [whole] at broken
      cases broken
    · rcases (r.client.mem_holdings_iff t w.batch).1 held with ⟨item, -⟩ | ⟨d, under, -⟩
      · rw [filling] at item
        cases item
      · rw [dispatches] at under
        cases under
  · have client : (r.step .abandon).2.client = r.client := if_neg idle
    exact goesOn_of_flows running untroubled (by rw [client]; exact .refl _)

theorem goesOn_of_reply (sound : r.client.Sound) (b : BatchId) {reply : Reply}
    (fine : ∀ tokens e, reply ≠ .failed tokens e) : GoesOn r (.reply b reply) := by
  have flows := r.client.onReply_flows b fine
  refine ⟨flows.reason.trans running, flows.untroubled untroubled,
    fun i held => .inl (flows.holds i held), ?_⟩
  intro t w found _ nothing
  show (r.client.onReply b reply).correlator.waiters.get? t = some w
  cases reply with
  | failed tokens e => exact absurd rfl (fine tokens e)
  | unmatched detail =>
    have same : (r.client.onReply b (.unmatched detail)).correlator = r.client.correlator := by
      unfold Client.onReply
      split
      · split <;> rfl
      · rfl
    rw [same]
    exact found
  | result t' answer =>
    rw [Client.onReply_result]
    split
    · rename_i awaits
      refine ((Correlator.resolve_settles sound.coherent t' answer).waits_iff t w).2 ⟨found, if_neg ?_⟩
      rintro rfl
      simp [takesIn?, awaits] at nothing
    · exact found

end

/-- **Every event** leaves work to go on, if the transport serves a policy. -/
theorem goesOn {r : Run} (sound : r.Sound) (attended : r.Attended)
    (running : r.client.lifecycle.closedReason = none) (untroubled : r.client.Untroubled) {f : Policy}
    {event : Event} (serves : r.Serves f event) : GoesOn r event := by
  have coherent := sound.client.coherent
  have fits : ∀ t call, r.calls.get? t = some call → call.Fits r.client.correlator := by
    intro t call held w found
    rw [sound.named t call held] at found
    rw [attended t w found, Option.some.injEq] at held
    rw [← held]
  have still : ∀ {event : Event}, (r.step event).2.client = r.client → GoesOn r event :=
    fun same => goesOn_of_flows running untroubled (by rw [same]; exact .refl _)
  cases event with
  | close => exact serves.elim
  | abandon => exact goesOn_of_abandon running untroubled sound.client serves
  | submit q =>
    have admits := r.client.submit_admits q
    obtain ⟨-, submits, -⟩ := sound.client.submit q
    refine ⟨admits.reason.trans running, admits.untroubled untroubled, ?_, ?_⟩
    · intro i held
      exact (admits.holds i held).symm.imp_right fun new => ⟨q, rfl, new⟩
    · intro t w found _ _
      refine (submits.others t ?_).trans found
      rintro rfl
      rw [sound.client.unseen.1] at found
      cases found
  | poll t =>
    apply still
    simp only [step]
    split
    · rfl
    · split <;> rfl
  | cancel t =>
    cases held : r.calls.get? t with
    | none => exact still (by simp [step, held])
    | some call =>
      have settles := Call.cancel_settles coherent (fits t call held)
      rw [sound.named t call held] at settles
      exact goesOn_of_settles running untroubled (t := t) rfl settles (by simp [step, held, hold])
  | drop t =>
    cases held : r.calls.get? t with
    | none => exact still (by simp [step, held])
    | some call =>
      have settles := Call.drop_settles coherent (fits t call held)
      rw [sound.named t call held] at settles
      exact goesOn_of_settles running untroubled (t := t) rfl settles (by simp [step, held])
  | expire t after =>
    cases held : r.calls.get? t with
    | none => exact still (by simp [step, held])
    | some call =>
      have settles := Call.expire_settles coherent (fits t call held) after
      rw [sound.named t call held] at settles
      exact goesOn_of_settles running untroubled (t := t) rfl settles (by simp [step, held, hold])
  | flush => exact goesOn_of_flows running untroubled r.client.flush_flows
  | link up => exact goesOn_of_flows running untroubled (r.client.onLink_flows up)
  | flushTimer b =>
    by_cases due : r.timerDue b = true
    · apply goesOn_of_flows running untroubled
      simp only [step, due, if_true]
      exact r.client.onFlushTimer_flows b
    · exact still (by simp [step, due])
  | due b healthy => exact goesOn_of_flows running untroubled (Client.onDue_flows running b healthy)
  | connected b result =>
    obtain rfl : result = .ok () := serves
    exact goesOn_of_flows running untroubled (r.client.onConnect_flows b)
  | reply b reply =>
    apply goesOn_of_reply running untroubled sound.client
    rintro tokens e rfl
    exact serves
  | streamEnd b => exact goesOn_of_flows running untroubled (Client.onStreamEnd_flows untroubled serves)
  | deadline b => exact goesOn_of_flows running untroubled (Client.onDeadline_flows untroubled serves)
  | startTimer b => exact goesOn_of_flows running untroubled (.aside rfl (.refl _) rfl rfl)
  | draw share => exact goesOn_of_flows running untroubled (.aside rfl (.refl _) rfl rfl)
  | elapse d => exact goesOn_of_flows running untroubled (.aside rfl (.refl _) rfl rfl)
  | age d => exact ⟨running, untroubled, fun i held => .inl held, fun t w found _ _ => found⟩

/-! ## What is held and what is remembered -/

/-- The questions of some requests can be told apart: their lengths can be written, and the
digest confuses no two of them. -/
structure TellApart (asked : Request → Prop) : Prop where
  fits : ∀ q, asked q → q.Fits
  apart : ∀ q q', asked q → asked q' → ∀ a ∈ q.actions, ∀ b ∈ q'.actions,
    Digest.of (q.encodeQuestion a) = Digest.of (q'.encodeQuestion b) →
      q.encodeQuestion a = q'.encodeQuestion b

/-- Whatever the store holds, it is what the policy decides about a question that was asked. -/
def HoldsDecisions (f : Policy) (asked : Request → Prop) (s : DecisionStore Fingerprint) : Prop :=
  ∀ k e, s.lookup k = some e →
    ∃ q a, asked q ∧ a ∈ q.actions ∧ k = .of q a ∧ e.value.decision = f.on q a

/-- What is found for a question is what the policy decides about it. -/
theorem HoldsDecisions.find {f : Policy} {asked : Request → Prop} {s : DecisionStore Fingerprint}
    (h : HoldsDecisions f asked s) (canonical : f.Canonical) (apart : TellApart asked) {q : Request}
    (mine : asked q) {a : Action} (member : a ∈ q.actions) {d : Decision}
    (found : s.find? (.of q a) = some d) : d = f.on q a := by
  obtain ⟨e, held, -, rfl⟩ := (DecisionCache.find?_eq_some_iff s _ d).1 found
  obtain ⟨q', b, theirs, member', same, decision⟩ := h _ e held
  have question := apart.apart q q' mine theirs a member b member' (congrArg Fingerprint.digest same)
  obtain ⟨rfl, subject⟩ :=
    Request.encodeQuestion_inj (apart.fits q mine) (apart.fits q' theirs) member member' question
  rw [decision, canonical q q' subject]

/-- What is true of a run whose transport serves `f`, with the requests `asked` so far. -/
structure Faithful (r : Run) (f : Policy) (asked : Request → Prop) : Prop where
  sound : r.Sound
  attended : r.Attended
  running : r.client.lifecycle.closedReason = none
  untroubled : r.client.Untroubled
  carried : ∀ i, r.client.Holds i → ∀ w, r.client.correlator.waiters.get? i.token = some w →
    ∃ q, asked q ∧ w.prefill.Agrees f q ∧ i.request = w.prefill.remaining q
  room : ∀ s, r.client.correlator.cache = some s → s.cache.capacity ≠ 0
  remembered : ∀ s, r.client.correlator.cache = some s → HoldsDecisions f asked s

/-- What is awaited is held by the batch that awaits it. -/
theorem item_of_awaits {r : Run} (sound : r.client.Sound) {b : BatchId} {t : Token}
    (awaits : r.client.awaits b t = true) :
    ∃ d ∈ r.client.dispatches, d.id = b ∧ ∃ i ∈ d.items, i.token = t := by
  obtain ⟨d, deadline, a, under, phase, member⟩ := (r.client.awaits_iff b t).1 awaits
  obtain ⟨held, id⟩ := Client.Sound.mem_of_dispatch? under
  have item := (sound.accounts d held deadline a phase r.client.stats).unanswered t member
  exact ⟨d, held, id, List.mem_map.1 item⟩

/-- An item that is held carries a token that was issued. -/
theorem issued_of_holds {r : Run} (sound : r.client.Sound) {i : Item} (held : r.client.Holds i) :
    i.token.number ≤ r.client.ids.tokens := by
  rcases held with filling | ⟨d, member, item⟩
  · exact sound.issued i.token _
      ((r.client.mem_holdings_iff _ _).2 (.inl ⟨List.mem_map_of_mem filling, rfl⟩))
  · exact sound.issued i.token _
      ((r.client.mem_holdings_iff _ _).2 (.inr ⟨d, member, List.mem_map_of_mem item, rfl⟩))

namespace Faithful

variable {r : Run} {f : Policy} {asked : Request → Prop}

theorem goesOn (h : r.Faithful f asked) {event : Event} (serves : r.Serves f event) : GoesOn r event :=
  Run.goesOn h.sound h.attended h.running h.untroubled serves

/-- What the cache knows of a request is what the policy decides. -/
theorem prefill_agrees (h : r.Faithful f asked) (canonical : f.Canonical) (apart : TellApart asked)
    {q : Request} (mine : asked q) : (r.client.prefill q).Agrees f q := by
  unfold Client.prefill
  split
  · exact ⟨fun a d known => by simp at known, nofun⟩
  · rename_i s cache
    have consults := consult_consults s q
    refine ⟨fun a d known => ?_, consults.asked⟩
    obtain ⟨member, found⟩ := consults.decided a d known
    exact ⟨member, (h.remembered s cache).find canonical apart mine member found⟩

/-- If the cache knows all of a request, it knows the answer of the policy. -/
theorem answer_of_known (h : r.Faithful f asked) (canonical : f.Canonical) (apart : TellApart asked)
    {q : Request} (mine : asked q) {store : DecisionStore Fingerprint}
    (cache : r.client.correlator.cache = some store) (all : (r.client.prefill q).asked = []) :
    { decisions := (r.client.prefill q).decisions } = f.answer q := by
  have covered : ∀ a ∈ q.actions, (∃ d, (r.client.prefill q).decisions.get? a = some d) ∨
      (a, .of q a) ∈ (r.client.prefill q).asked := by
    rw [Client.prefill, cache]
    exact (consult_consults store q).covered
  apply Policy.answer_of_decided (h.prefill_agrees canonical apart mine)
  intro a member
  apply (covered a member).resolve_right
  rw [all]
  exact List.not_mem_nil

/-- A result that is taken in is the answer of the policy to what is left of a request. -/
theorem answer_of_result (h : r.Faithful f asked) {b : BatchId} {t : Token} {answer : Answer}
    (serves : r.Serves f (.reply b (.result t answer))) (awaits : r.client.awaits b t = true) :
    ∃ i, r.client.Holds i ∧ i.token = t ∧ answer = f.answer i.request := by
  obtain ⟨d, member, id, i, item, token⟩ := item_of_awaits h.sound.client awaits
  exact ⟨i, .inr ⟨d, member, item⟩, token, serves awaits d member id i item token⟩

/-- What an event has remembered, the policy decides. -/
theorem decision_of_stores (h : r.Faithful f asked) {event : Event} (serves : r.Serves f event)
    {k : Fingerprint} {d : Decision} (stores : r.Stores k d event) :
    ∃ q a, asked q ∧ a ∈ q.actions ∧ k = .of q a ∧ d = f.on q a := by
  cases event with
  | reply b reply =>
    cases reply with
    | result t answer =>
      obtain ⟨awaits, -, w, found, a, member, decided⟩ := stores
      obtain ⟨i, held, rfl, rfl⟩ := h.answer_of_result serves awaits
      obtain ⟨q, mine, agrees, rest⟩ := h.carried i held w found
      obtain ⟨inside, fingerprint⟩ := agrees.asked a k member
      refine ⟨q, a, mine, inside, fingerprint, ?_⟩
      rw [rest, Policy.decision?_answer] at decided
      split at decided
      · cases decided
        rfl
      · cases decided
    | _ => exact stores.elim
  | _ => exact stores.elim

/-- **Every event keeps faith.** -/
theorem step (h : r.Faithful f asked) (canonical : f.Canonical) (apart : TellApart asked) {event : Event}
    (submitted : ∀ q, event = .submit q → asked q) (serves : r.Serves f event) :
    (r.step event).2.Faithful f asked := by
  have goes := h.goesOn serves
  have sound := h.sound
  refine ⟨sound.step event, h.attended.step sound event, goes.running, goes.untroubled, ?_, ?_, ?_⟩
  · intro i held w found
    rcases goes.holds i held with before | ⟨q, rfl, rfl⟩
    · rcases (step_advances sound event).waited i.token w found with waited | ⟨new, -⟩
      · exact h.carried i before w waited
      · have issued := issued_of_holds sound.client before
        omega
    · have known := prefill_of_submitted sound found
      rw [known]
      exact ⟨q, submitted q rfl, h.prefill_agrees canonical apart (submitted q rfl), rfl⟩
  · intro s' cache'
    obtain ⟨s, cache, maintains⟩ := step_maintains sound event cache'
    rw [(maintains (h.room s cache)).capacity]
    exact h.room s cache
  · intro s' cache' k e held
    obtain ⟨s, cache, maintains⟩ := step_maintains sound event cache'
    rcases (maintains (h.room s cache)).held k e held with ⟨d, stores, rfl⟩ | ⟨before, -⟩
    · exact h.decision_of_stores serves stores
    · exact h.remembered s cache k e before

theorem after (h : r.Faithful f asked) (canonical : f.Canonical) (apart : TellApart asked)
    {events : List Event} (submitted : ∀ q, .submit q ∈ events → asked q) (served : r.Served f events) :
    (r.after events).2.Faithful f asked := by
  induction events generalizing r with
  | nil => exact h
  | cons event events ih =>
    obtain ⟨now, later⟩ := served
    rw [after_cons]
    apply ih _ (fun q member => submitted q (List.mem_cons_of_mem _ member)) later
    exact h.step canonical apart (fun q same => submitted q (same ▸ List.mem_cons_self ..)) now

end Faithful

theorem fresh_faithful {config : Config} {horizon : Instant} (valid : config.validate = .ok ()) (f : Policy)
    (asked : Request → Prop) : (fresh config horizon).Faithful f asked := by
  have cache : ∀ s, (fresh config horizon).client.correlator.cache = some s →
      ∃ c, config.cache = some c ∧ s = .ofConfig c := by
    intro s held
    obtain ⟨c, found, rfl⟩ := Option.map_eq_some_iff.1 held
    exact ⟨c, found, rfl⟩
  refine ⟨fresh_sound_run config horizon, fresh_attended config horizon, rfl, nofun, ?_, ?_, ?_⟩
  · rintro i (filling | ⟨d, member, -⟩)
    · cases filling
    · cases member
  · intro s held
    obtain ⟨c, found, rfl⟩ := cache s held
    exact config.capacity_ne_zero valid found
  · intro s held k e stored
    obtain ⟨c, found, rfl⟩ := cache s held
    cases stored

/-! ## One check -/

namespace Faithful

variable {r : Run} {f : Policy} {asked : Request → Prop}

/-- A check that its caller waits out goes on waiting, or its answer is there. -/
theorem step_waits (h : r.Faithful f asked) {event : Event} (serves : r.Serves f event) {t : Token}
    {w : Waiter} (found : r.client.correlator.waiters.get? t = some w) (kept : ¬ event.Withdraws t)
    {q : Request} (agrees : w.prefill.Agrees f q)
    (carries : ∀ i, r.client.Holds i → i.token = t → i.request = w.prefill.remaining q) :
    told t (r.step event).1 = [] ∧
      (((r.step event).2.client.correlator.waiters.get? t = some w ∧
          ∀ i, (r.step event).2.client.Holds i → i.token = t → i.request = w.prefill.remaining q) ∨
        (r.step event).2.Pledged t (.ok (f.answer q))) := by
  have goes := h.goesOn serves
  have sound := h.sound
  have issued := sound.client.known t w found
  cases takes : r.takesIn? t event with
  | none =>
    have found' := goes.waits t w found kept takes
    refine ⟨h.attended.told_step sound found found', .inl ⟨found', ?_⟩⟩
    intro i held same
    rcases goes.holds i held with before | ⟨q', -, rfl⟩
    · exact carries i before same
    · rw [← same] at issued
      exact absurd issued (Nat.not_succ_le_self _)
  | some taken =>
    obtain ⟨b, answer⟩ := taken
    obtain ⟨rfl, awaits⟩ := reply_of_takesIn? takes
    obtain ⟨i, held, token, given⟩ := h.answer_of_result serves awaits
    have merged : answer.merge w.prefill.decisions = f.answer q := by
      rw [given, carries i held token, Policy.answer_remaining_merge agrees]
    refine ⟨rfl, .inr ?_⟩
    rw [← merged]
    exact h.attended.pledged_of_taken sound found takes

/-- What becomes of a check that its caller waits out. -/
theorem after_waits (h : r.Faithful f asked) (canonical : f.Canonical) (apart : TellApart asked)
    {events : List Event} (submitted : ∀ q, .submit q ∈ events → asked q) (served : r.Served f events)
    {t : Token} {w : Waiter} (found : r.client.correlator.waiters.get? t = some w)
    (kept : r.WaitsOut t events) {q : Request} (agrees : w.prefill.Agrees f q)
    (carries : ∀ i, r.client.Holds i → i.token = t → i.request = w.prefill.remaining q) :
    (told t (r.after events).1 = [] ∧ (r.after events).2.client.correlator.waiters.get? t = some w) ∨
      (told t (r.after events).1 = [] ∧ (r.after events).2.Pledged t (.ok (f.answer q))) ∨
      ∃ rest, told t (r.after events).1 = .ok (f.answer q) :: rest := by
  induction events generalizing r with
  | nil => exact .inl ⟨rfl, found⟩
  | cons event events ih =>
    obtain ⟨now, later⟩ := served
    obtain ⟨still, kept⟩ := kept
    have patient : ¬ event.Withdraws t := by
      intro withdraws
      have live := (r.client.correlator.isLive_iff t).2 ⟨w, found⟩
      rw [still withdraws] at live
      cases live
    have sound' := h.sound.step event
    obtain ⟨silent, waits | pledged⟩ := h.step_waits now found patient agrees carries
    · rw [told_after_cons, silent, List.nil_append, after_cons]
      apply ih _ (fun q member => submitted q (List.mem_cons_of_mem _ member)) later waits.1 kept waits.2
      exact h.step canonical apart (fun q same => submitted q (same ▸ List.mem_cons_self ..)) now
    · rw [told_after_cons, silent, List.nil_append, after_cons]
      exact .inr (pledged.after sound' events).symm

end Faithful

end Run

/-- The dispatch of `b` has returned: the batch has left, it is not under way any more, and it
did not break off, as over a deadline that no clock can name. -/
structure Client.Returned (c : Client) (b : BatchId) : Prop where
  left : c.openBatch.id ≠ b
  done : c.dispatch? b = none
  whole : b ∉ c.broken

/-- Nothing waits in a batch whose dispatch has returned. -/
theorem Client.Returned.nobody_waits {c : Client} {b : BatchId} (h : c.Returned b) (sound : c.Sound)
    {t : Token} {w : Waiter} (found : c.correlator.waiters.get? t = some w) : w.batch ≠ b := by
  rintro rfl
  have held := (sound.held t w found).resolve_left h.whole
  rcases (c.mem_holdings_iff t w.batch).1 held with ⟨-, same⟩ | ⟨d, member, -, same⟩
  · exact h.left same
  · have absent := List.find?_eq_none.1 h.done d member
    simp [same] at absent

namespace Run

/-! ## Every run -/

/-- What a caller who waits it out is told of a check, from its submission on. -/
theorem transparent_since_submission {r : Run} {f : Policy} {asked : Request → Prop}
    (h : r.Faithful f asked) (canonical : f.Canonical) (apart : TellApart asked) {request : Request}
    {since : List Event} (submitted : ∀ q, .submit q ∈ Event.submit request :: since → asked q)
    (served : r.Served f (.submit request :: since))
    (kept : (r.step (.submit request)).2.WaitsOut r.client.ids.nextToken.1 since) :
    let t := r.client.ids.nextToken.1
    let r' := (r.step (.submit request)).2
    (told t (r'.after since).1 = [] ∧
        ∃ w, r'.client.correlator.waiters.get? t = some w ∧
          (r'.after since).2.client.correlator.waiters.get? t = some w) ∨
      (told t (r'.after since).1 = [] ∧ (r'.after since).2.Pledged t (.ok (f.answer request))) ∨
      ∃ rest, told t (r'.after since).1 = .ok (f.answer request) :: rest := by
  have mine := submitted request (List.mem_cons_self ..)
  have agrees := h.prefill_agrees canonical apart mine
  have sound := h.sound
  have sound' := sound.step (.submit request)
  obtain ⟨token, submits, standing⟩ := sound.client.submit request
  cases standing with
  | refused reason closed =>
    rw [h.running] at closed
    cases closed
  | decided running store cache all state waiters =>
    rw [h.answer_of_known canonical apart mine cache all] at state
    have pledged := pledged_of_submitted sound state waiters
    exact .inr (pledged.after sound' since).symm
  | waits running b state waiter =>
    have h' := h.step canonical apart (fun q same => submitted q (same ▸ List.mem_cons_self ..)) served.1
    have goes := h.goesOn served.1
    have found : (r.step (.submit request)).2.client.correlator.waiters.get? r.client.ids.nextToken.1 =
        some ⟨b, r.client.correlator.mail.length, r.client.prefill request⟩ := waiter
    have followed := h'.after_waits canonical apart
      (fun q member => submitted q (List.mem_cons_of_mem _ member)) served.2 found kept agrees ?_
    · exact followed.imp_left fun waits => ⟨waits.1, _, found, waits.2⟩
    · intro i held same
      rcases goes.holds i held with before | ⟨q, event, rfl⟩
      · have known := issued_of_holds sound.client before
        rw [same] at known
        exact absurd known (Nat.not_succ_le_self _)
      · cases event
        rfl

theorem served_append {r : Run} {f : Policy} {first later : List Event} :
    r.Served f (first ++ later) ↔ r.Served f first ∧ (r.after first).2.Served f later := by
  induction first generalizing r with
  | nil => exact (and_iff_right trivial).symm
  | cons event first ih =>
    rw [after_cons]
    exact (and_congr_right fun _ => ih).trans (and_assoc).symm

/-- **Batching and caching do not show.**  If the transport serves a policy, a caller who
waits a check out is told nothing before the answer of the policy to the request alone.  And
once the dispatch of its batch has returned, or at submission if the check never waits, the
answer is there to be asked for.

This supposes that the policy does not tell subjects apart that have one canonical form, and
that the questions of the history can be told apart by their digests. -/
theorem batching_transparent {config : Config} {horizon : Instant} {r₀ : Run} (started : start config horizon = .ok r₀) {f : Policy}
    (canonical : f.Canonical) {events : List Event} (apart : TellApart fun q => .submit q ∈ events)
    (served : r₀.Served f events) {before : List Event} {request : Request} {since : List Event}
    (split : events = before ++ .submit request :: since)
    (kept : (r₀.after (before ++ [.submit request])).2.WaitsOut
      (r₀.after before).2.client.ids.nextToken.1 since) :
    let t := (r₀.after before).2.client.ids.nextToken.1
    (told t (r₀.after events).1 = [] ∨
        ∃ rest, told t (r₀.after events).1 = .ok (f.answer request) :: rest) ∧
      ((∀ w, (r₀.after (before ++ [.submit request])).2.client.correlator.waiters.get? t = some w →
          (r₀.after events).2.client.Returned w.batch) →
        told t (r₀.after events).1 = [] → .drop t ∉ since →
        (r₀.after events).2.Delivers t (.ok (f.answer request))) := by
  obtain ⟨valid, rfl⟩ := (start_eq_ok_iff config horizon r₀).1 started
  have sound₀ := fresh_sound_run config horizon
  subst split
  obtain ⟨first, rest⟩ := served_append.1 served
  have faithful := (fresh_faithful valid f _).after canonical apart
    (fun q member => List.mem_append_left _ member) first
  have submission : ((fresh config horizon).after (before ++ [.submit request])).2 =
      (((fresh config horizon).after before).2.step (.submit request)).2 := by
    rw [after_append, after_cons, after_nil]
  have earlier : told ((fresh config horizon).after before).2.client.ids.nextToken.1
      ((fresh config horizon).after before).1 = [] :=
    told_of_unissued sound₀ (Nat.lt_succ_self _)
  rw [submission] at kept ⊢
  have since_submission := transparent_since_submission faithful canonical apart
    (fun q member => List.mem_append_right _ member) rest kept
  have sound := faithful.sound.step (.submit request)
  simp only [after_append, after_cons, told_append, earlier, List.nil_append]
  rw [told_submit, List.nil_append]
  generalize ((fresh config horizon).after before).2 = r at *
  rcases since_submission with ⟨silent, w, found, still⟩ | ⟨silent, pledged⟩ | ⟨rest, answered⟩
  · refine ⟨.inl silent, fun returned => ?_⟩
    exact absurd rfl ((returned w found).nobody_waits (sound.after since).client still)
  · refine ⟨.inl silent, fun _ _ kept => pledged.delivers (sound.after since) ?_⟩
    apply held_after sound (issued_of_submit faithful.sound.client request) _ kept
    simp [step, (faithful.sound.client.submit request).1, Table.get?_insert]
  · refine ⟨.inr ⟨rest, answered⟩, fun _ silent => ?_⟩
    rw [silent] at answered
    cases answered

/-- A policy that allows everything. -/
def allowAll : Policy := fun _ _ _ _ => .allow

/-- The transport that allowed a check earlier serves this policy. -/
theorem allowed_earlier_served : (fresh cachingConfig .horizon).Served allowAll allowedEarlier := by
  refine ⟨trivial, trivial, rfl, ?_, trivial, trivial⟩
  intro _ d under id i item token
  have sent : ∀ d ∈ ((fresh cachingConfig .horizon).after (allowedEarlier.take 3)).2.client.dispatches,
      d.items = [⟨⟨1⟩, mayAliceView⟩] := by
    intro d under
    cases under with
    | head => rfl
    | tail _ under => cases under
  have item' : i ∈ [(⟨⟨1⟩, mayAliceView⟩ : Item)] := sent d under ▸ item
  rw [List.mem_singleton.1 item']
  rfl

/-- The cache decides the check that was allowed earlier, so that it does not wait. -/
theorem allowed_earlier_not_waiting :
    ((fresh cachingConfig .horizon).after
      (allowedEarlier ++ [.submit mayAliceView])).2.client.correlator.waiters.get? ⟨2⟩ = none := by
  have held : ((fresh cachingConfig .horizon).after allowedEarlier).2.client.correlator.cache =
      some cacheAllowedEarlier := by rfl
  have running : ((fresh cachingConfig .horizon).after allowedEarlier).2.client.lifecycle.closedReason = none := by rfl
  have nobody : ((fresh cachingConfig .horizon).after allowedEarlier).2.client.correlator.waiters = .empty := by rfl
  have known : (Client.consult cacheAllowedEarlier mayAliceView).1.asked = [] := by
    rw [Client.consult_eq]
    show (Client.consultNext mayAliceView _ view).1.asked = []
    rw [Client.fst_consultNext cacheAllowedEarlier_find]
  rw [after_snoc]
  generalize ((fresh cachingConfig .horizon).after allowedEarlier).2 = r at *
  simp [step, Client.submit, running, held, known, nobody]

/-- The check that was allowed earlier is answered once its replies are read, and the same
check is answered at once when it is submitted again. -/
theorem allowed_again :
    start cachingConfig .horizon = .ok (fresh cachingConfig .horizon) ∧
      (fresh cachingConfig .horizon).Served allowAll (allowedEarlier ++ [.streamEnd ⟨1⟩]) ∧
      ((fresh cachingConfig .horizon).after (allowedEarlier ++ [.streamEnd ⟨1⟩])).2.Delivers ⟨1⟩
        (.ok (allowAll.answer mayAliceView)) ∧
      (fresh cachingConfig .horizon).Served allowAll (allowedEarlier ++ [.submit mayAliceView]) ∧
      ((fresh cachingConfig .horizon).after (allowedEarlier ++ [.submit mayAliceView])).2.Delivers ⟨2⟩
        (.ok (allowAll.answer mayAliceView)) := by
  have started : start cachingConfig .horizon = .ok (fresh cachingConfig .horizon) := by rfl
  have canonical : allowAll.Canonical := fun _ _ _ _ => rfl
  have apart : ∀ {events : List Event}, (∀ q, .submit q ∈ events → q = mayAliceView) →
      TellApart fun q => .submit q ∈ events := by
    intro events only
    refine ⟨fun q asked => only q asked ▸ mayAliceView_fits, ?_⟩
    intro q q' asked asked' a member b member' _
    rw [only q asked] at member ⊢
    rw [only q' asked'] at member' ⊢
    rw [List.mem_singleton.1 member, List.mem_singleton.1 member']
  have read : (fresh cachingConfig .horizon).Served allowAll (allowedEarlier ++ [.streamEnd ⟨1⟩]) :=
    served_append.2 ⟨allowed_earlier_served, fun t => by rfl, trivial⟩
  have again : (fresh cachingConfig .horizon).Served allowAll (allowedEarlier ++ [.submit mayAliceView]) :=
    served_append.2 ⟨allowed_earlier_served, trivial, trivial⟩
  have first := batching_transparent started canonical (apart (by simp [allowedEarlier])) read
    (show _ = [] ++ .submit mayAliceView :: (allowedEarlier.tail ++ [.streamEnd ⟨1⟩]) from rfl)
    ⟨nofun, nofun, nofun, nofun, nofun, trivial⟩
  have second := batching_transparent started canonical (apart (by simp [allowedEarlier])) again
    (show _ = allowedEarlier ++ .submit mayAliceView :: [] from rfl) trivial
  refine ⟨started, read, first.2 ?_ (by rfl) (by simp [allowedEarlier]), again,
    second.2 ?_ ?_ List.not_mem_nil⟩
  · intro w found
    cases found
    exact ⟨by decide, by rfl, by decide⟩
  · intro w found
    rw [show ((fresh cachingConfig .horizon).after allowedEarlier).2.client.ids.nextToken.1 = ⟨2⟩ from rfl,
      allowed_earlier_not_waiting] at found
    cases found
  · rw [after_append, after_cons, after_nil, told_append, List.append_nil, told_submit]
    rfl

end Run

end PolicyClient
