/-
# PolicyClient.Proofs.Run.Remembering -- what the cache decides was decided before

The cache of a client holds what results have told, and nothing else: what is held under a
fingerprint is the decision of the last result that was remembered under it, with the time
of the cache when it was taken in (`Run.entry_stored`).

So a decision that the cache gives a request was given before, less than the time to live
ago, by a result for a check that was still waiting, that was about the same subject and
that had asked for the action; and no later result of this kind has come in since
(`Run.recalled_decision_vouched`).  This supposes that the digest tells the questions of the
history apart.
-/
import Mathlib.Data.List.Induction
import PolicyClient.Proofs.Check.Question
import PolicyClient.Proofs.Config.Validation
import PolicyClient.Proofs.Run.Provenance

namespace PolicyClient

set_option autoImplicit false

open Client (Consults consult_consults)
open Correlator (Tells remember_remembers resolve_of_absent resolve_of_waiting)
open DecisionCache (Forgets find?_eq_some_iff)

/-! ## Settings -/

/-- A cache that can be worked with has room. -/
theorem Config.capacity_ne_zero {config : Config} (valid : config.validate = .ok ()) {c : CacheConfig}
    (cache : config.cache = some c) : c.capacity ≠ 0 :=
  ((config.validate_eq_ok_iff.1 valid).cache c cache).capacity

namespace Run

/-- The time of the cache. -/
def cacheTime (r : Run) : Instant := (r.client.correlator.cache.map fun s => s.cache.now).getD .zero

theorem cacheTime_of_cache {r : Run} {s : DecisionStore Fingerprint}
    (cache : r.client.correlator.cache = some s) : r.cacheTime = s.cache.now := by
  rw [cacheTime, cache]
  rfl

/-! ## One event -/

/-- The event has the decision `d` remembered under `f`: an attempt takes in a result, and
the check it is for still waits. -/
def Stores (r : Run) (f : Fingerprint) (d : Decision) : Event → Prop
  | .reply b (.result t answer) =>
    r.client.awaits b t = true ∧ answer.isCacheable = true ∧
      ∃ w, r.client.correlator.waiters.get? t = some w ∧ Tells w.prefill.asked answer f d
  | _ => False

theorem not_stores_of_plain {event : Event} (plain : event.Plain) (r : Run) (f : Fingerprint)
    (d : Decision) : ¬ r.Stores f d event := by
  intro stores
  cases event with
  | reply b reply =>
    cases reply with
    | result t answer => exact plain
    | _ => exact stores
  | _ => exact stores

/-- What an event makes of the store `s`: what it has remembered is held from now on, and
at most what was held before under other keys. -/
structure Maintains (r : Run) (event : Event) (s s' : DecisionStore Fingerprint) : Prop where
  now : s.cache.now ≤ s'.cache.now
  ttl : s'.ttl = s.ttl
  capacity : s'.cache.capacity = s.cache.capacity
  held : ∀ f e, s'.lookup f = some e →
    (∃ d, r.Stores f d event ∧ e = storedDecision d s.cache.now s.ttl) ∨
      (s.lookup f = some e ∧ ∀ d, ¬ r.Stores f d event)

theorem maintains_of_forgets {r : Run} {event : Event} {s s' : DecisionStore Fingerprint}
    (forgets : Forgets s s') (nothing : ∀ f d, ¬ r.Stores f d event) : Maintains r event s s' where
  now := Nat.le_of_eq (congrArg Duration.nanos forgets.now.symm)
  ttl := forgets.ttl
  capacity := forgets.capacity
  held f e found := .inr ⟨forgets.held f e found, nothing f⟩

/-- A result that is taken in for a check that waits is remembered, if it may be. -/
theorem maintains_of_taken {r : Run} {b : BatchId} {t : Token} {w : Waiter} {answer : Answer}
    {s s' : DecisionStore Fingerprint} (awaits : r.client.awaits b t = true)
    (found : r.client.correlator.waiters.get? t = some w)
    (cache : r.client.correlator.cache = some s) (room : s.cache.capacity ≠ 0)
    (cache' : (r.client.correlator.remember w.prefill.asked answer).cache = some s') :
    Maintains r (.reply b (.result t answer)) s s' := by
  have stores_iff : ∀ f d, r.Stores f d (.reply b (.result t answer)) ↔
      answer.isCacheable = true ∧ Tells w.prefill.asked answer f d := by
    intro f d
    simp [Stores, awaits, found]
  obtain ⟨s'', remembered, told⟩ := remember_remembers cache room w.prefill.asked answer
  obtain rfl : s'' = s' := Option.some.inj (remembered.symm.trans cache')
  by_cases cacheable : answer.isCacheable = true
  · rw [if_pos cacheable] at told
    refine ⟨Nat.le_of_eq (congrArg Duration.nanos told.now.symm), told.ttl, told.capacity, ?_⟩
    intro f e held
    rcases told.held f e held with ⟨d, tells, new⟩ | ⟨before, untold⟩
    · exact .inl ⟨d, (stores_iff f d).2 ⟨cacheable, tells⟩, new⟩
    · exact .inr ⟨before, fun d stores => untold d ((stores_iff f d).1 stores).2⟩
  · rw [if_neg cacheable] at told
    subst told
    apply maintains_of_forgets (.refl _)
    intro f d stores
    exact cacheable ((stores_iff f d).1 stores).1

theorem result_maintains (r : Run) (b : BatchId) (t : Token) (answer : Answer)
    {s' : DecisionStore Fingerprint}
    (cache' : (r.client.onReply b (.result t answer)).correlator.cache = some s') :
    ∃ s, r.client.correlator.cache = some s ∧
      (s.cache.capacity ≠ 0 → Maintains r (.reply b (.result t answer)) s s') := by
  rw [r.client.onReply_result b t answer] at cache'
  by_cases awaits : r.client.awaits b t = true
  · rw [if_pos awaits] at cache'
    cases found : r.client.correlator.waiters.get? t with
    | none =>
      rw [resolve_of_absent found] at cache'
      refine ⟨s', cache', fun _ => maintains_of_forgets (.refl s') ?_⟩
      rintro f d ⟨-, -, w, found', -⟩
      rw [found] at found'
      cases found'
    | some w =>
      rw [resolve_of_waiting found] at cache'
      cases cache : r.client.correlator.cache with
      | none =>
        simp only [Correlator.remember, cache] at cache'
        cases cache'
      | some s => exact ⟨s, rfl, fun room => maintains_of_taken awaits found cache room cache'⟩
  · rw [if_neg awaits] at cache'
    refine ⟨s', cache', fun _ => maintains_of_forgets (.refl s') ?_⟩
    intro f d stores
    exact awaits stores.1

/-- **Every event** keeps the store, but for what it has remembered. -/
theorem step_maintains {r : Run} (h : r.Sound) (event : Event) {s' : DecisionStore Fingerprint}
    (cache' : (r.step event).2.client.correlator.cache = some s') :
    ∃ s, r.client.correlator.cache = some s ∧ (s.cache.capacity ≠ 0 → Maintains r event s s') := by
  by_cases plain : event.Plain
  · rw [(step_lapses h.client plain).fails.cache] at cache'
    exact ⟨s', cache', fun _ => maintains_of_forgets (.refl s') (not_stores_of_plain plain r)⟩
  · cases event with
    | submit request =>
      obtain ⟨-, submits, -⟩ := h.client.submit request
      have cache'' : (r.client.submit request).2.2.correlator.cache = some s' := cache'
      rcases submits.cache with same | ⟨s, cache, consulted⟩
      · rw [same] at cache''
        exact ⟨s', cache'', fun _ => maintains_of_forgets (.refl s') fun _ _ => id⟩
      · rw [consulted, Option.some.injEq] at cache''
        subst cache''
        exact ⟨s, cache, fun _ => maintains_of_forgets (consult_consults s request).forgets fun _ _ => id⟩
    | age d =>
      simp only [step, update] at cache'
      cases cache : r.client.correlator.cache with
      | none =>
        rw [cache] at cache'
        cases cache'
      | some s =>
        rw [cache, Option.map_some, Option.some.injEq] at cache'
        subst cache'
        exact ⟨s, rfl, fun _ => ⟨Nat.le_add_right _ _, rfl, rfl, fun f e found => .inr ⟨found, fun _ => id⟩⟩⟩
    | reply b reply =>
      cases reply with
      | result t answer => exact result_maintains r b t answer cache'
      | _ => exact absurd trivial plain
    | _ => exact absurd trivial plain

/-! ## Every run -/

/-- The event after `before` is the last of the history that has anything remembered under
`f`, and this is `d`. -/
structure LastStores (r₀ : Run) (f : Fingerprint) (d : Decision) (before : List Event) (event : Event)
    (since : List Event) : Prop where
  stores : (r₀.after before).2.Stores f d event
  last : ∀ between later rest, since = between ++ later :: rest →
    ∀ d', ¬ (r₀.after (before ++ event :: between)).2.Stores f d' later

theorem LastStores.push {r₀ : Run} {f : Fingerprint} {d : Decision} {before since : List Event}
    {event next : Event} (h : r₀.LastStores f d before event since)
    (nothing : ∀ d', ¬ (r₀.after (before ++ event :: since)).2.Stores f d' next) :
    r₀.LastStores f d before event (since ++ [next]) where
  stores := h.stores
  last between later rest split := by
    cases rest using List.reverseRecOn with
    | nil =>
      obtain ⟨rfl, same⟩ := List.append_inj' split rfl
      cases same
      exact nothing
    | append_singleton rest final =>
      rw [← List.cons_append, ← List.append_assoc] at split
      obtain ⟨split, -⟩ := List.append_inj' split rfl
      exact h.last between later rest split

/-- **What the cache holds**, the last result remembered under the same fingerprint told. -/
theorem entry_stored {config : Config} {horizon : Instant} {r₀ : Run} (started : start config horizon = .ok r₀) {events : List Event}
    {s : DecisionStore Fingerprint} (held : (r₀.after events).2.client.correlator.cache = some s) :
    ∃ c, config.cache = some c ∧ s.ttl = c.ttl ∧ s.cache.capacity = c.capacity ∧
      ∀ f e, s.lookup f = some e → ∃ before event since d, events = before ++ event :: since ∧
        r₀.LastStores f d before event since ∧ (r₀.after before).2.cacheTime ≤ s.cache.now ∧
        e = storedDecision d (r₀.after before).2.cacheTime c.ttl := by
  obtain ⟨valid, beginning⟩ := (start_eq_ok_iff config horizon r₀).1 started
  have sound₀ := start_sound_run started
  induction events using List.reverseRecOn generalizing s with
  | nil =>
    rw [after_nil, beginning] at held
    cases cache : config.cache with
    | none =>
      simp only [fresh, cache] at held
      cases held
    | some c =>
      simp only [fresh, cache, Option.map_some, Option.some.injEq] at held
      subst held
      refine ⟨c, rfl, rfl, rfl, ?_⟩
      intro f e found
      cases found
  | append_singleton events event ih =>
    rw [after_snoc] at held
    obtain ⟨s', held', maintains⟩ := step_maintains (sound₀.after events) event held
    obtain ⟨c, cache, ttl, capacity, stored⟩ := ih held'
    have kept := maintains (by rw [capacity]; exact config.capacity_ne_zero valid cache)
    refine ⟨c, cache, kept.ttl.trans ttl, kept.capacity.trans capacity, ?_⟩
    intro f e found
    rcases kept.held f e found with ⟨d, stores, new⟩ | ⟨found', untouched⟩
    · rw [← cacheTime_of_cache held', ttl] at new
      refine ⟨events, event, [], d, rfl, ⟨stores, fun between later rest split => ?_⟩, ?_, new⟩
      · cases between <;> cases split
      · rw [cacheTime_of_cache held']
        exact kept.now
    · obtain ⟨before, last, since, d, rfl, lastStores, time, new⟩ := stored f e found'
      refine ⟨before, last, since ++ [event], d, ?_, lastStores.push untouched,
        Nat.le_trans time kept.now, new⟩
      rw [List.append_assoc, List.cons_append]

/-! ## The checks that wait -/

/-- A check that waits under an old token has waited since. -/
theorem waited_before {r : Run} (h : r.Sound) {events : List Event} {t : Token} {w : Waiter}
    (issued : t.number ≤ r.client.ids.tokens)
    (found : (r.after events).2.client.correlator.waiters.get? t = some w) :
    r.client.correlator.waiters.get? t = some w := by
  induction events generalizing r with
  | nil => exact found
  | cons event events ih =>
    rw [after_cons] at found
    have advances := step_advances h event
    have found' := ih (h.step event) (Nat.le_trans issued advances.tokens) found
    rcases advances.waited t w found' with before | ⟨new, -⟩
    · exact before
    · omega

/-- A new check waits with what the cache knew when it was submitted. -/
theorem prefill_of_submitted {r : Run} (h : r.Sound) {request : Request} {w : Waiter}
    (found : (r.step (.submit request)).2.client.correlator.waiters.get? r.client.ids.nextToken.1 = some w) :
    w.prefill = r.client.prefill request := by
  have free := h.client.unseen.1
  have found' : (r.client.submit request).2.2.correlator.waiters.get? r.client.ids.nextToken.1 = some w :=
    found
  obtain ⟨-, -, standing⟩ := h.client.submit request
  cases standing with
  | refused reason closed state correlator =>
    rw [correlator, free] at found'
    cases found'
  | decided running store cache all state waiters =>
    rw [waiters, free] at found'
    cases found'
  | waits running b state waiter =>
    rw [waiter, Option.some.injEq] at found'
    rw [← found']

/-- Whatever waits was submitted, and waits with what the cache knew then. -/
theorem submission_of_waiting {r : Run} (h : r.Sound) {events : List Event} {t : Token} {w : Waiter}
    (found : (r.after events).2.client.correlator.waiters.get? t = some w) :
    r.client.correlator.waiters.get? t = some w ∨
      ∃ earlier request later, events = earlier ++ .submit request :: later ∧
        (r.after earlier).2.client.ids.nextToken.1 = t ∧
        w.prefill = (r.after earlier).2.client.prefill request := by
  induction events generalizing r with
  | nil => exact .inl found
  | cons event events ih =>
    rw [after_cons] at found
    rcases ih (h.step event) found with found' | ⟨earlier, request, later, split, token, prefill⟩
    · rcases (step_advances h event).waited t w found' with before | ⟨new, -⟩
      · exact .inl before
      · have issued := (h.step event).client.known t w found'
        rw [tokens_step h.client event] at issued
        cases event with
        | submit request =>
          have token : r.client.ids.nextToken.1 = t := congrArg Token.mk (Nat.le_antisymm new issued)
          refine .inr ⟨[], request, events, rfl, token, prefill_of_submitted h ?_⟩
          rw [token]
          exact found'
        | _ => exact absurd issued (Nat.not_le_of_lt new)
    · refine .inr ⟨event :: earlier, request, later, by rw [split, List.cons_append], ?_, ?_⟩
      · rw [after_cons]
        exact token
      · rw [after_cons]
        exact prefill

/-! ## The results that count -/

/-- After `before`, the event is a result that decides `a` as `d` for `asker`: the check has
been submitted before and still waits, it asks for `a` because the cache did not decide it
then, and the result has neither validation errors nor outputs. -/
inductive Vouches (r₀ : Run) (asker : Request) (a : Action) (d : Decision) (before : List Event) :
    Event → Prop
  | result (b : BatchId) (t : Token) (answer : Answer) (earlier later : List Event)
      (submitted : before = earlier ++ .submit asker :: later)
      (token : (r₀.after earlier).2.client.ids.nextToken.1 = t)
      (asked : ∃ f, (a, f) ∈ ((r₀.after earlier).2.client.prefill asker).asked)
      (awaited : (r₀.after before).2.client.awaits b t = true)
      (live : (r₀.after before).2.client.correlator.isLive t = true)
      (validationErrors : answer.validationErrors = []) (outputs : answer.outputs = .empty)
      (decision : answer.decisions.get? a = some d) :
      Vouches r₀ asker a d before (.reply b (.result t answer))

/-- What a request asks, it asks under the fingerprint of the question. -/
theorem asked_of_recall {c : Client} {request : Request} {a : Action} {f : Fingerprint}
    (asked : (a, f) ∈ (c.prefill request).asked) : a ∈ request.actions ∧ f = .of request a := by
  rw [Client.prefill] at asked
  split at asked
  · cases asked
  · rename_i store _
    exact (consult_consults store request).asked a f asked

theorem Vouches.stores {r₀ : Run} (h : r₀.Sound) {asker : Request} {a : Action} {d : Decision}
    {before : List Event} {event : Event} (vouches : r₀.Vouches asker a d before event) :
    (r₀.after before).2.Stores (.of asker a) d event := by
  cases vouches with
  | result b t answer earlier later submitted token asked awaited live validationErrors outputs decision =>
    obtain ⟨w, found⟩ := (Correlator.isLive_iff _ t).1 live
    have prefill : w.prefill = (r₀.after earlier).2.client.prefill asker := by
      have sound := h.after earlier
      rw [submitted, after_append, after_cons, ← token] at found
      exact prefill_of_submitted sound
        (waited_before (sound.step _) (issued_of_submit sound.client asker) found)
    obtain ⟨f, member⟩ := asked
    refine ⟨awaited, answer.isCacheable_iff.2 ⟨validationErrors, outputs⟩, w, found, a, ?_, ?_⟩
    · rw [prefill, ← (asked_of_recall member).2]
      exact member
    · rw [Answer.decision?_name validationErrors]
      exact decision

/-- Whatever is remembered, a result for a check of this history has told. -/
theorem vouches_of_stores {config : Config} {horizon : Instant} {before : List Event} {event : Event} {f : Fingerprint}
    {d : Decision} (stores : ((fresh config horizon).after before).2.Stores f d event) :
    ∃ asker a, .submit asker ∈ before ∧ a ∈ asker.actions ∧ f = .of asker a ∧
      (fresh config horizon).Vouches asker a d before event := by
  cases event with
  | reply b reply =>
    cases reply with
    | result t answer =>
      obtain ⟨awaited, cacheable, w, found, a, asked, decided⟩ := stores
      obtain ⟨validationErrors, outputs⟩ := answer.isCacheable_iff.1 cacheable
      rcases submission_of_waiting (fresh_sound_run config horizon) found with
        none | ⟨earlier, asker, later, submitted, token, prefill⟩
      · simp [fresh] at none
      · rw [prefill] at asked
        obtain ⟨member, fingerprint⟩ := asked_of_recall asked
        rw [Answer.decision?_name validationErrors] at decided
        refine ⟨asker, a, ?_, member, fingerprint, .result b t answer earlier later submitted token
          ⟨f, asked⟩ awaited ((Correlator.isLive_iff _ t).2 ⟨w, found⟩) validationErrors outputs decided⟩
        rw [submitted]
        exact List.mem_append_right _ (List.mem_cons_self ..)
    | _ => exact stores.elim
  | _ => exact stores.elim

/-! ## What a request gets from the cache -/

/-- Submitted now, the request has `a` decided as `d` by the cache: in the answer it gets at
once, or among the decisions its check waits with. -/
def Recalls (r : Run) (request : Request) (a : Action) (d : Decision) : Prop :=
  (∃ answer, (r.client.submit request).1.state = .ready (.ok answer) ∧
      answer.decisions.get? a = some d) ∨
    ∃ w, (r.client.submit request).2.2.correlator.waiters.get? r.client.ids.nextToken.1 = some w ∧
      w.prefill.decisions.get? a = some d

/-- An open session gives what the cache knows, and a closed one gives nothing. -/
theorem recalls_iff {r : Run} (h : r.Sound) (request : Request) (a : Action) (d : Decision) :
    r.Recalls request a d ↔ r.client.lifecycle.closedReason = none ∧
      (r.client.prefill request).decisions.get? a = some d := by
  have free := h.client.unseen.1
  obtain ⟨-, -, standing⟩ := h.client.submit request
  unfold Recalls
  cases standing with
  | refused reason closed state correlator => simp [state, correlator, free, closed]
  | decided running store cache all state waiters => simp [state, waiters, free, running]
  | waits running b state waiter => simp [state, waiter, running]

/-- Only what the store holds within its time is ever recalled. -/
theorem found_of_recalls {r : Run} (h : r.Sound) {request : Request} {a : Action} {d : Decision}
    (recalls : r.Recalls request a d) :
    a ∈ request.actions ∧ ∃ s, r.client.correlator.cache = some s ∧ s.find? (.of request a) = some d := by
  obtain ⟨-, known⟩ := (recalls_iff h request a d).1 recalls
  cases cache : r.client.correlator.cache with
  | none =>
    rw [Client.prefill, cache] at known
    simp at known
  | some s =>
    rw [Client.prefill, cache] at known
    obtain ⟨member, found⟩ := (consult_consults s request).decided a d known
    exact ⟨member, s, rfl, found⟩

/-- **A decision that the cache gives was given for the same question, not longer ago than
the time to live, and is the latest.**  If at the end of a history the cache decides the
action `a` of a request as `d`, then a result of the history decided it so for a check that
waited, that was about the same subject and that had asked for `a`; and no later result of
this kind has come in.

The lengths in the requests can be written in eight bytes, as those of all texts that fit
into a memory can; and the digest does not confuse the question with another one that was
asked before. -/
theorem recalled_decision_vouched {config : Config} {horizon : Instant} {r₀ : Run} (started : start config horizon = .ok r₀)
    {events : List Event} {request : Request} {a : Action} {d : Decision}
    (fits : request.Fits) (allFit : ∀ asker, .submit asker ∈ events → asker.Fits)
    (apart : ∀ asker, .submit asker ∈ events → ∀ b ∈ asker.actions,
      Digest.of (asker.encodeQuestion b) = Digest.of (request.encodeQuestion a) →
        asker.encodeQuestion b = request.encodeQuestion a)
    (recalls : (r₀.after events).2.Recalls request a d) :
    ∃ cache, config.cache = some cache ∧
      ∃ before event since, events = before ++ event :: since ∧
        (∃ asker, asker.SameSubject request ∧ r₀.Vouches asker a d before event) ∧
        (r₀.after before).2.cacheTime ≤ (r₀.after events).2.cacheTime ∧
        (r₀.after events).2.cacheTime < (r₀.after before).2.cacheTime + cache.ttl ∧
        ∀ between later rest, since = between ++ later :: rest →
          ∀ asker d', asker.SameSubject request →
            ¬ r₀.Vouches asker a d' (before ++ event :: between) later := by
  obtain ⟨valid, rfl⟩ := (start_eq_ok_iff config horizon r₀).1 started
  have sound₀ := fresh_sound_run config horizon
  obtain ⟨member, s, held, found⟩ := found_of_recalls (sound₀.after events) recalls
  obtain ⟨e, entry, unexpired, decision⟩ := (find?_eq_some_iff s _ d).1 found
  obtain ⟨c, cache, -, -, stored⟩ := entry_stored started held
  obtain ⟨before, event, since, d', split, lastStores, time, rfl⟩ := stored _ e entry
  cases decision
  obtain ⟨asker, b, submitted, asked, fingerprint, vouches⟩ := vouches_of_stores lastStores.stores
  have submitted' : .submit asker ∈ events := by
    rw [split]
    exact List.mem_append_left _ submitted
  -- One fingerprint is one question: the check that stored the decision had asked this one.
  have question := apart asker submitted' b asked (congrArg Fingerprint.digest fingerprint.symm)
  obtain ⟨rfl, subject⟩ :=
    Request.encodeQuestion_inj (allFit asker submitted') fits asked member question
  refine ⟨c, cache, before, event, since, split, ⟨asker, subject, vouches⟩, ?_, ?_, ?_⟩
  · rw [cacheTime_of_cache held]
    exact time
  · rw [cacheTime_of_cache held]
    exact of_decide_eq_true unexpired
  · intro between later rest later_split asker' d' subject' vouches'
    refine lastStores.last between later rest later_split d' ?_
    rw [← subject'.fingerprint b]
    exact vouches'.stores sound₀

/-- The question of `mayAliceView` can be written. -/
theorem mayAliceView_fits : mayAliceView.Fits where
  principal :=
    ⟨by decide, by decide, (by decide : ∀ role ∈ ["employee"], Encoding.Fits role), ⟨by decide, trivial⟩,
      by decide, by decide⟩
  resource := ⟨by decide, by decide, ⟨by decide, trivial⟩, by decide, by decide⟩
  actions a member := by
    cases List.mem_singleton.1 member
    decide
  auxData := nofun

/-- Settings with a cache, under which every check leaves at once. -/
def cachingConfig : Config := { maxBatchSize := 1, cache := some {} }

/-- A check is allowed, and three seconds pass. -/
def allowedEarlier : List Event :=
  [.submit mayAliceView, .due ⟨1⟩ true, .connected ⟨1⟩ (.ok ()),
    .reply ⟨1⟩ (.result ⟨1⟩ (.ofDecisions [(view, .allow)])), .age (.ofSeconds 3)]

/-- What the cache holds after that, whatever the digest is. -/
def cacheAllowedEarlier : DecisionStore Fingerprint :=
  { ttl := .ofSeconds 10
    cache := {
      capacity := 10000, now := .ofSeconds 3
      entries := [(.of mayAliceView view, storedDecision .allow .zero (.ofSeconds 10))]
      lookups := [none], puts := [.of mayAliceView view] } }

theorem cacheAllowedEarlier_find : cacheAllowedEarlier.find? (.of mayAliceView view) = some .allow :=
  (find?_eq_some_iff _ _ _).2 ⟨storedDecision .allow .zero (.ofSeconds 10),
    by simp [DecisionCache.lookup, LruStore.held?, cacheAllowedEarlier], by decide, rfl⟩

/-- The same check is then allowed by the cache. -/
theorem allowed_earlier_recalled : ((fresh cachingConfig .horizon).after allowedEarlier).2.Recalls mayAliceView
    view .allow := by
  have sound := (fresh_sound_run cachingConfig .horizon).after allowedEarlier
  have held : ((fresh cachingConfig .horizon).after allowedEarlier).2.client.correlator.cache =
      some cacheAllowedEarlier := by rfl
  refine (recalls_iff sound mayAliceView _ _).2 ⟨by rfl, ?_⟩
  simp only [Client.prefill, held, Client.consult_eq]
  show (Client.consultNext mayAliceView _ view).1.decisions.get? view = some .allow
  rw [Client.fst_consultNext cacheAllowedEarlier_find]
  exact (Table.get?_insert ..).trans (if_pos rfl)

/-- The decision was given three seconds before, by the one result of the history. -/
theorem allowed_earlier_vouched :
    start cachingConfig .horizon = .ok (fresh cachingConfig .horizon) ∧
      ((fresh cachingConfig .horizon).after allowedEarlier).2.Recalls mayAliceView view .allow ∧
      ∃ before event since, allowedEarlier = before ++ event :: since ∧
        ∃ asker, asker.SameSubject mayAliceView ∧
          (fresh cachingConfig .horizon).Vouches asker view .allow before event := by
  have started : start cachingConfig .horizon = .ok (fresh cachingConfig .horizon) := by rfl
  have only : ∀ asker, .submit asker ∈ allowedEarlier → asker = mayAliceView := by
    intro asker submitted
    simpa [allowedEarlier] using submitted
  obtain ⟨_, -, before, event, since, split, vouched, -⟩ := recalled_decision_vouched started
    mayAliceView_fits (fun asker submitted => only asker submitted ▸ mayAliceView_fits)
    (fun asker submitted b asked _ => by
      rw [only asker submitted] at asked ⊢
      rw [List.mem_singleton.1 asked]) allowed_earlier_recalled
  exact ⟨started, allowed_earlier_recalled, before, event, since, split, vouched⟩

end Run

end PolicyClient
