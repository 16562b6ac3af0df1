/-
# PolicyClient.Proofs.Run.Resending -- what is sent again

The batches that are handed to the transport under one id (`Run.handed`) begin with what has
departed under it (`Run.Departed`) and only shrink.  A request that is sent again has been put
off by the attempt that sent it last (`Run.Defers`): a failure named it that is worth another
attempt, or it was unanswered at the deadline.  A request that an attempt is done with
(`Run.Concludes`) is never sent again.

There are no more batches under one id than the retry budget has re-sends, and one.  An attempt
that fails to connect counts as well, so there may be fewer.
-/
import PolicyClient.Proofs.Client.Flow
import PolicyClient.Proofs.Client.Retrying
import PolicyClient.Proofs.Run.Sending

namespace PolicyClient

set_option autoImplicit false

open Exchange (named)

namespace Run

/-- The ways in which the attempt of `b` puts the request under `t` off to the next one. -/
inductive Defers (r : Run) (b : BatchId) (t : Token) : Event → Prop
  | refused (tokens : List Token) (e : Error) (names : t ∈ tokens) (passing : e.isFatal = false)
      (again : e.isRetryable = true) (awaits : r.client.awaits b t = true) :
    Defers r b t (.reply b (.failed tokens e))
  | overdue (passed : r.client.Overdue b) (awaits : r.client.awaits b t = true) :
    Defers r b t (.deadline b)

/-- The ways in which the attempt of `b` is done with the request under `t`. -/
inductive Concludes (r : Run) (b : BatchId) (t : Token) : Event → Prop
  | answered (answer : Answer) (awaits : r.client.awaits b t = true) :
    Concludes r b t (.reply b (.result t answer))
  | failed (tokens : List Token) (e : Error) (names : t ∈ tokens) (final : e.isRetryable = false)
      (awaits : r.client.awaits b t = true) :
    Concludes r b t (.reply b (.failed tokens e))
  | unanswered (awaits : r.client.awaits b t = true) : Concludes r b t (.streamEnd b)

theorem Concludes.not_owes {r : Run} (sound : r.client.Sound) {b : BatchId} {t : Token} {event : Event}
    (h : r.Concludes b t event) : ¬ (r.step event).2.client.owes t := by
  cases h with
  | answered answer awaits => exact sound.settled_of_awaits awaits answer
  | failed tokens e names final awaits => exact sound.not_owes_of_failed awaits names final
  | unanswered awaits => exact sound.not_owes_of_streamEnd awaits

theorem Concludes.issued {r : Run} (sound : r.client.Sound) {b : BatchId} {t : Token} {event : Event}
    (h : r.Concludes b t event) : t.number ≤ r.client.ids.tokens := by
  apply sound.issued_of_owes
  cases h with
  | answered answer awaits => exact Client.Sound.owes_of_awaits awaits
  | failed tokens e names final awaits => exact Client.Sound.owes_of_awaits awaits
  | unanswered awaits => exact Client.Sound.owes_of_awaits awaits

/-- What nobody owes an answer is never sent. -/
theorem not_sent_of_not_owes {r : Run} (sound : r.Sound) {t : Token} (issued : t.number ≤ r.client.ids.tokens)
    (freed : ¬ r.client.owes t) {events : List Event} {b : BatchId} {batch : Batch}
    (member : batch ∈ handed b (r.after events).1) : t ∉ batch.tokens := by
  induction events generalizing r with
  | nil => cases member
  | cons event events ih =>
    rw [after_cons, handed_append] at member
    rcases List.mem_append.1 member with now | later
    · rcases handed_step sound.client event b with withholds | ⟨d, before, d', -, -, hands, only⟩
      · rw [withholds.handed] at now
        cases now
      · rw [only, List.mem_singleton] at now
        subst now
        exact fun sent => freed (.inr ⟨d, before, hands.owes sent⟩)
    · have advances := step_advances sound event
      exact ih (sound.step event) (Nat.le_trans issued advances.tokens)
        (fun owed => freed (advances.owes t issued owed)) later

/-- What an attempt is done with is not sent any more. -/
theorem Concludes.not_sent {r : Run} (sound : r.Sound) {b : BatchId} {t : Token} {event : Event}
    (h : r.Concludes b t event) {since : List Event} {b' : BatchId} {batch : Batch}
    (member : batch ∈ handed b' ((r.step event).2.after since).1) : t ∉ batch.tokens := by
  refine not_sent_of_not_owes (sound.step event) ?_ (h.not_owes sound.client) member
  exact Nat.le_trans (h.issued sound.client) (tokens_le_step sound.client event)

/-! ## What has departed -/

/-- A batch has departed under the id `b`, and these are some of its items, in order. -/
def Departed (r₀ : Run) (events : List Event) (b : BatchId) (items : List Item) : Prop :=
  ∃ before event since, events = before ++ event :: since ∧
    ∃ d ∈ ((r₀.after before).2.step event).2.client.dispatches,
      (r₀.after before).2.Spawns event d ∧ d.id = b ∧ items.Sublist d.items

theorem Departed.append {r₀ : Run} {events : List Event} {b : BatchId} {items : List Item}
    (h : r₀.Departed events b items) (later : List Event) : r₀.Departed (events ++ later) b items := by
  obtain ⟨before, event, since, rfl, departed⟩ := h
  exact ⟨before, event, since ++ later, by simp, departed⟩

theorem Departed.shrink {r₀ : Run} {events : List Event} {b : BatchId} {items items' : List Item}
    (h : r₀.Departed events b items) (fewer : items'.Sublist items) : r₀.Departed events b items' := by
  obtain ⟨before, event, since, split, d, member, spawns, id, held⟩ := h
  exact ⟨before, event, since, split, d, member, spawns, id, fewer.trans held⟩

variable {config : Config} {horizon : Instant}

/-- **Every dispatch** goes on with items that have departed under its id. -/
theorem departed_of_mem {events : List Event} {d : Dispatch}
    (member : d ∈ ((fresh config horizon).after events).2.client.dispatches) :
    (fresh config horizon).Departed events d.id d.items := by
  induction events using List.reverseRecOn generalizing d with
  | nil => cases member
  | append_singleton events event ih =>
    have sound := sound_after (fresh_sound config horizon) events
    rw [after_snoc] at member
    rcases step_arises sound member with before | spawns | ⟨d₀, before, moves⟩
    · exact (ih before).append [event]
    · exact ⟨events, event, [], rfl, d, member, spawns, rfl, .refl _⟩
    · rw [moves.id]
      exact ((ih before).append [event]).shrink moves.items

theorem departed_of_handed {events : List Event} {b : BatchId} {batch : Batch}
    (member : batch ∈ handed b ((fresh config horizon).after events).1) :
    (fresh config horizon).Departed events b batch.items := by
  induction events using List.reverseRecOn with
  | nil => cases member
  | append_singleton events event ih =>
    have sound := sound_after (fresh_sound config horizon) events
    rw [shown_snoc, handed_append] at member
    apply Departed.append
    rcases List.mem_append.1 member with earlier | now
    · exact ih earlier
    · rcases handed_step sound event b with withholds | ⟨d, before, d', -, rfl, hands, only⟩
      · rw [withholds.handed] at now
        cases now
      · rw [only, List.mem_singleton] at now
        subst now
        exact (departed_of_mem before).shrink hands.items

/-! ## What is sent again -/

/-- Over a history the attempt of `b` has put the request under `t` off. -/
def Deferred (r : Run) (b : BatchId) (events : List Event) (t : Token) : Prop :=
  ∃ before event since, events = before ++ event :: since ∧ (r.after before).2.Defers b t event

theorem Deferred.append {r : Run} {b : BatchId} {events : List Event} {t : Token}
    (h : r.Deferred b events t) (later : List Event) : r.Deferred b (events ++ later) t := by
  obtain ⟨before, event, since, rfl, defers⟩ := h
  exact ⟨before, event, since ++ later, by simp, defers⟩

/-- The dispatch goes on with a batch that it has sent: while it reads replies with all of it,
and what it is to send again has been put off; then only with what has been put off. -/
def ResumesFrom (batch : Batch) (deferred : Token → Prop) (d : Dispatch) : Prop :=
  match d.phase with
  | .queued => False
  | .reading _ a => d.items = batch.items ∧ ∀ t ∈ a.retry, deferred t
  | .connecting | .backingOff _ => d.items.Sublist batch.items ∧ ∀ t ∈ named d.items, deferred t

namespace ResumesFrom

variable {batch : Batch} {deferred deferred' : Token → Prop} {d d' : Dispatch}

theorem mono (h : ResumesFrom batch deferred d) (more : ∀ t, deferred t → deferred' t) :
    ResumesFrom batch deferred' d := by
  unfold ResumesFrom at h ⊢
  split
  · rename_i phase
    simp only [phase] at h
  · rename_i phase
    simp only [phase] at h
    exact ⟨h.1, fun t member => more t (h.2 t member)⟩
  all_goals
    rename_i phase
    simp only [phase] at h
    exact ⟨h.1, fun t member => more t (h.2 t member)⟩

theorem of_due (h : ResumesFrom batch deferred d) {now : Instant} (due : d.IsDue now) :
    d.items.Sublist batch.items ∧ ∀ t ∈ named d.items, deferred t := by
  unfold ResumesFrom at h
  rcases due with phase | ⟨wake, phase, -⟩
  · simp only [phase] at h
  · simpa only [phase] using h

theorem of_connecting (h : ResumesFrom batch deferred d) (phase : d.phase = .connecting) :
    d.items.Sublist batch.items ∧ ∀ t ∈ named d.items, deferred t := by
  unfold ResumesFrom at h
  simpa only [phase] using h

theorem of_reading (h : ResumesFrom batch deferred d) {deadline : Instant} {a : Attempt}
    (phase : d.phase = .reading deadline a) : d.items = batch.items ∧ ∀ t ∈ a.retry, deferred t := by
  unfold ResumesFrom at h
  simpa only [phase] using h

/-- What is sent next has been put off. -/
theorem of_hands (h : ResumesFrom batch deferred d) {r : Run} {event : Event} (hands : r.Hands event d d') :
    d'.items.Sublist batch.items ∧ ∀ t ∈ named d'.items, deferred t := by
  have held : d.items.Sublist batch.items ∧ ∀ t ∈ named d.items, deferred t := by
    cases hands with
    | begins _ due => exact h.of_due due
    | connected _ phase => exact h.of_connecting phase
  exact ⟨hands.items.trans held.1, fun t member => held.2 t ((hands.items.map _).subset member)⟩

end ResumesFrom

/-- A dispatch that sends nothing puts requests off, at most. -/
theorem resumesFrom_of_moves {r : Run} (sound : r.client.Sound) {event : Event} {d d' : Dispatch}
    (member : d ∈ r.client.dispatches) (moves : r.client.Moves event d d')
    (withholds : d'.IsReading → d.IsReading) {batch : Batch} {deferred : Token → Prop}
    (h : ResumesFrom batch deferred d) :
    ResumesFrom batch (fun t => deferred t ∨ r.Defers d.id t event) d' := by
  have found := sound.dispatch?_of_mem member
  cases moves with
  | connects d due healthy =>
    obtain ⟨fewer, put⟩ := h.of_due due
    refine ⟨List.filter_sublist.trans fewer, fun t item => .inl (put t ?_)⟩
    exact (List.filter_sublist.map _).subset item
  | begins d due =>
    obtain ⟨deadline, a, phase⟩ := withholds ⟨_, _, rfl⟩
    rcases due with queued | ⟨wake, asleep, -⟩
    · cases queued.symm.trans phase
    · cases asleep.symm.trans phase
  | sends d connecting =>
    obtain ⟨deadline, a, phase⟩ := withholds ⟨_, _, rfl⟩
    cases connecting.symm.trans phase
  | reads d deadline a phase reply x read =>
    obtain ⟨whole, put⟩ := h.of_reading phase
    refine ⟨whole, fun t again => ?_⟩
    rcases Exchange.mem_retry_read read again with before | ⟨open_, tokens, e, rfl, names, passing, retryable⟩
    · exact .inl (put t before)
    · have awaits := (r.client.awaits_iff d.id t).2 ⟨d, deadline, a, found, phase, open_⟩
      exact .inr (.refused tokens e names passing retryable awaits)
  | backsOff d event rest e fails =>
    cases fails with
    | unconnected e passing phase =>
      obtain ⟨fewer, put⟩ := h.of_connecting phase
      exact ⟨fewer, fun t item => .inl (put t item)⟩
    | streamEnd deadline a phase =>
      obtain ⟨whole, put⟩ := h.of_reading phase
      refine ⟨whole ▸ List.filter_sublist, fun t item => ?_⟩
      obtain ⟨i, kept, rfl⟩ := List.mem_map.1 item
      exact .inl (put _ (List.contains_iff_mem.1 (List.mem_filter.1 kept).2))
    | overdue deadline a phase passed =>
      obtain ⟨whole, put⟩ := h.of_reading phase
      refine ⟨whole ▸ List.filter_sublist, fun t item => ?_⟩
      obtain ⟨i, kept, rfl⟩ := List.mem_map.1 item
      rcases List.mem_append.1 (List.contains_iff_mem.1 (List.mem_filter.1 kept).2) with before | open_
      · exact .inl (put _ before)
      · have awaits := (r.client.awaits_iff d.id i.token).2 ⟨d, deadline, a, found, phase, open_⟩
        exact .inr (.overdue ⟨d, deadline, a, found, phase, passed⟩ awaits)

/-- The dispatch of `b`, if it is under way, goes on with the batch and has sent nothing since. -/
def Resumes (r : Run) (b : BatchId) (batch : Batch) (deferred : Token → Prop) : Prop :=
  b.number < r.client.ids.batches ∧ ∀ d ∈ r.client.dispatches, d.id = b → ResumesFrom batch deferred d

/-- **Between two batches** under one id what is sent next is put off. -/
theorem resumes_after {r : Run} (sound : r.client.Sound) {b : BatchId} {batch : Batch}
    (resumes : r.Resumes b batch fun _ => False) {events : List Event}
    (nothing : handed b (r.after events).1 = []) :
    (r.after events).2.Resumes b batch (r.Deferred b events) := by
  induction events using List.reverseRecOn with
  | nil => exact ⟨resumes.1, fun d member id => (resumes.2 d member id).mono fun t => False.elim⟩
  | append_singleton events event ih =>
    have sound₁ := sound_after sound events
    rw [shown_snoc, handed_append, List.append_eq_nil_iff] at nothing
    obtain ⟨issued, under⟩ := ih nothing.1
    rw [after_snoc]
    refine ⟨Nat.lt_of_lt_of_le issued (step_sound sound₁ event).2, fun d' member id => ?_⟩
    rcases step_arises sound₁ member with before | spawns | ⟨d, before, moves⟩
    · exact (under d' before id).mono fun t deferred => deferred.append [event]
    · have fresh := spawns.fresh
      rw [id] at fresh
      omega
    · have same : d.id = b := moves.id.symm.trans id
      have reading : d'.IsReading → d.IsReading := by
        rcases handed_step sound₁ event b with withholds | ⟨_, _, _, _, _, _, only⟩
        · intro reading
          obtain ⟨d₁, before₁, id₁, reading₁⟩ := withholds.reading d' member id reading
          rwa [sound₁.unique before₁ before (id₁.trans same.symm)] at reading₁
        · rw [nothing.2] at only
          cases only
      refine (resumesFrom_of_moves sound₁ before moves reading (under d before same)).mono fun t => ?_
      rintro (earlier | defers)
      · exact earlier.append [event]
      · rw [same] at defers
        exact ⟨events, event, [], rfl, defers⟩

/-- Having sent a batch, a dispatch goes on with it. -/
theorem resumes_of_handed {r : Run} (sound : r.client.Sound) {event : Event} {b : BatchId} {batch : Batch}
    (sent : handed b (r.step event).1 = [batch]) : (r.step event).2.Resumes b batch fun _ => False := by
  have sound' := step_sound sound event
  rcases handed_step sound event b with withholds | ⟨d, before, d', member, rfl, hands, only⟩
  · rw [withholds.handed] at sent
    cases sent
  · rw [only, List.cons.injEq] at sent
    refine ⟨Nat.lt_of_lt_of_le (sound.earlier d before) sound'.2, fun e under id => ?_⟩
    rw [sound'.1.unique under member (id.trans hands.id.symm), ← sent.1, ResumesFrom, hands.phase]
    exact ⟨rfl, nofun⟩

/-- Every batch that is handed over is handed over by one event. -/
theorem handed_split {r : Run} (sound : r.client.Sound) {events : List Event} {b : BatchId}
    {early late : List Batch} {batch : Batch} (all : handed b (r.after events).1 = early ++ batch :: late) :
    ∃ before event since, events = before ++ event :: since ∧ handed b (r.after before).1 = early ∧
      handed b ((r.after before).2.step event).1 = [batch] ∧
      handed b (((r.after before).2.step event).2.after since).1 = late := by
  induction events generalizing r early with
  | nil => simp at all
  | cons first events ih =>
    have sound' := (step_sound sound first).1
    rw [after_cons, handed_append] at all
    have later : ∀ early', early = handed b (r.step first).1 ++ early' →
        handed b ((r.step first).2.after events).1 = early' ++ batch :: late → ∃ before event since,
          first :: events = before ++ event :: since ∧ handed b (r.after before).1 = early ∧
          handed b ((r.after before).2.step event).1 = [batch] ∧
          handed b (((r.after before).2.step event).2.after since).1 = late := by
      intro early' split rest
      obtain ⟨before, event, since, rfl, before', now, since'⟩ := ih sound' rest
      refine ⟨first :: before, event, since, rfl, ?_, ?_, ?_⟩
      · rw [after_cons, handed_append, before', split]
      · rw [after_cons]
        exact now
      · rw [after_cons]
        exact since'
    rcases handed_step sound first b with withholds | ⟨d, -, d', -, -, -, only⟩
    · apply later early
      · rw [withholds.handed, List.nil_append]
      · rw [withholds.handed, List.nil_append] at all
        exact all
    · rw [only, List.singleton_append] at all
      cases early with
      | nil =>
        obtain ⟨same, rest⟩ := List.cons.inj all
        exact ⟨[], first, events, rfl, rfl, by rw [after_nil, only, same], rest⟩
      | cons batch₀ early =>
        obtain ⟨same, rest⟩ := List.cons.inj all
        exact later early (by rw [only, same]; rfl) rest

/-! ## How often -/

/-- `n` batches have been sent in the attempts that were begun: in one of them each, and none in
the present one before it is connected. -/
def Counted (n : Nat) (d : Dispatch) : Prop :=
  match d.phase with
  | .connecting => n < d.attempts
  | _ => n ≤ d.attempts

theorem Counted.le {n : Nat} {d : Dispatch} (h : Counted n d) : n ≤ d.attempts := by
  unfold Counted at h
  split at h
  · exact Nat.le_of_lt h
  · exact h

theorem Counted.of_moves {c : Client} {event : Event} {d d' : Dispatch} {n : Nat} (h : Counted n d)
    (moves : c.Moves event d d') : Counted n d' := by
  have le := h.le
  cases moves with
  | connects d due healthy => exact Nat.lt_succ_of_le le
  | begins d due => exact Nat.le_succ_of_le le
  | sends | reads | backsOff => exact le

/-- Handing a batch over counts for the attempt that does. -/
theorem Counted.of_hands {r : Run} {event : Event} {d d' : Dispatch} {n : Nat} (h : Counted n d)
    (hands : r.Hands event d d') : Counted (n + 1) d' := by
  have le := h.le
  cases hands with
  | begins d due => exact Nat.succ_le_succ le
  | connected d phase =>
    rw [Counted, phase] at h
    exact h

/-- The batches that have been handed over are counted by the attempts of their dispatches, and
stay within the budget of re-sends. -/
structure Tally (r : Run) (shown : List Observation) : Prop where
  counted : ∀ d ∈ r.client.dispatches, Counted (handed d.id shown).length d
  issued : ∀ b, r.client.ids.batches ≤ b.number → handed b shown = []
  most : ∀ b, (handed b shown).length ≤ r.client.config.retryBudget + 1

theorem Tally.step {r : Run} {shown : List Observation} (h : r.Tally shown) (sound : r.client.Sound)
    (within : r.Within) (event : Event) : (r.step event).2.Tally (shown ++ (r.step event).1) where
  counted d' member := by
    have sound' := step_sound sound event
    rw [handed_append]
    rcases handed_step sound event d'.id with withholds | ⟨d, before, e, under, id, hands, only⟩
    · rw [withholds.handed, List.append_nil]
      rcases step_arises sound member with before | spawns | ⟨d, before, moves⟩
      · exact h.counted d' before
      · rw [h.issued d'.id spawns.fresh, Counted, spawns.new.1]
        exact Nat.zero_le _
      · rw [moves.id]
        exact (h.counted d before).of_moves moves
    · rw [only, List.length_append, ← id]
      rw [sound'.1.unique member under (id.symm.trans hands.id.symm)]
      exact (h.counted d before).of_hands hands
  issued b fresh := by
    have le := (step_sound sound event).2
    rw [handed_append, h.issued b (Nat.le_trans le fresh), List.nil_append]
    rcases handed_step sound event b with withholds | ⟨d, before, e, under, rfl, -⟩
    · exact withholds.handed
    · have issued := sound.earlier d before
      omega
  most b := by
    rw [step_config, handed_append, List.length_append]
    rcases handed_step sound event b with withholds | ⟨d, before, e, under, rfl, hands, only⟩
    · rw [withholds.handed]
      exact h.most b
    · have counted := h.counted d before
      have budget := within d before
      rw [only, List.length_singleton]
      cases hands with
      | begins d due => exact Nat.succ_le_succ (Nat.le_trans counted.le (budget.of_due due))
      | connected d phase =>
        rw [Counted, phase] at counted
        rw [Dispatch.Within, phase] at budget
        exact Nat.le_trans counted budget

theorem tally_after (config : Config) (horizon : Instant) (events : List Event) :
    ((fresh config horizon).after events).2.Tally ((fresh config horizon).after events).1 := by
  induction events using List.reverseRecOn with
  | nil => exact ⟨nofun, fun _ _ => rfl, fun _ => Nat.zero_le _⟩
  | append_singleton events event ih =>
    have sound := sound_after (fresh_sound config horizon) events
    have within := (fresh_within config horizon).after (fresh_sound config horizon) events
    rw [shown_snoc, after_snoc]
    exact ih.step sound within event

/-! ## Every run -/

/-- **What is sent again only shrinks, and is bounded.**  In every run, of the batches that are
handed to the transport under one id there are no more than the budget has re-sends, and one; each
holds some of the requests that have departed under the id, in order; and the next holds some of
the requests of the one before, in order, all of which the attempt that sent them has put off.
What an attempt is done with is not sent again, and an answer that it has taken in is the one
that the caller is told, whatever comes later. -/
theorem resends_shrink {r₀ : Run} (started : start config horizon = .ok r₀) (events : List Event) (b : BatchId) :
    (handed b (r₀.after events).1).length ≤ config.retryBudget + 1 ∧
    (∀ batch ∈ handed b (r₀.after events).1, batch.id = b ∧ r₀.Departed events b batch.items) ∧
    (∀ early batch batch' late, handed b (r₀.after events).1 = early ++ batch :: batch' :: late →
      batch'.items.Sublist batch.items ∧
      ∃ before event between event' since, events = before ++ event :: (between ++ event' :: since) ∧
        handed b ((r₀.after before).2.step event).1 = [batch] ∧
        handed b ((r₀.after (before ++ event :: between)).2.step event').1 = [batch'] ∧
        ∀ t ∈ batch'.tokens, (r₀.after (before ++ [event])).2.Deferred b between t) ∧
    (∀ before event since, events = before ++ event :: since →
      ∀ t, (r₀.after before).2.Concludes b t event →
        ∀ batch ∈ handed b ((r₀.after (before ++ [event])).2.after since).1, t ∉ batch.tokens) ∧
    ∀ before event since, events = before ++ event :: since →
      ∀ t w answer, (r₀.after before).2.takesIn? t event = some (b, answer) →
        (r₀.after before).2.client.correlator.waiters.get? t = some w →
        (r₀.after (before ++ [event])).2.Delivers t (.ok (answer.merge w.prefill.decisions)) := by
  obtain ⟨-, rfl⟩ := (start_eq_ok_iff config horizon r₀).1 started
  have sound₀ := fresh_sound_run config horizon
  refine ⟨?_, ?_, ?_, ?_, ?_⟩
  · have most := (tally_after config horizon events).most b
    rw [config_after] at most
    exact most
  · intro batch member
    exact ⟨((mem_handed_iff b batch _).1 member).2, departed_of_handed member⟩
  · intro early batch batch' late all
    obtain ⟨before, event, rest, rfl, -, first, others⟩ := handed_split sound₀.client all
    have sound := (sound₀.after before).client
    have sound' := (step_sound sound event).1
    obtain ⟨between, event', since, rfl, nothing, second, -⟩ :=
      handed_split sound' (show _ = [] ++ batch' :: late from others)
    obtain ⟨-, resumes⟩ := resumes_after sound' (resumes_of_handed sound first) nothing
    rcases handed_step (sound_after sound' between) event' b with withholds | ⟨d, under, d', -, id, hands, only⟩
    · rw [withholds.handed] at second
      cases second
    · rw [only, List.cons.injEq] at second
      obtain ⟨fewer, put⟩ := (resumes d under id).of_hands hands
      rw [← second.1]
      refine ⟨fewer, before, event, between, event', since, rfl, first, ?_, fun t sent => ?_⟩
      · rw [after_append, after_cons]
        rw [only]
      · rw [after_snoc]
        exact put t sent
  · intro before event since split t concludes batch member
    rw [after_snoc] at member
    exact concludes.not_sent (sound₀.after before) member
  · intro before event since split t w answer takes found
    have sound := sound₀.after before
    have attended := (fresh_attended config horizon).after sound₀ before
    obtain ⟨rfl, -⟩ := reply_of_takesIn? takes
    rw [after_snoc]
    apply Pledged.delivers (attended.pledged_of_taken sound found takes) (sound.step _)
    change ((fresh config horizon).after before).2.calls.get? t ≠ none
    rw [attended t w found]
    nofun

/-- Of two checks that are sent together one is answered, and the other is not by the deadline. -/
def halfAnswered : List Event :=
  [.submit mayAliceView, .submit mayAliceView, .due ⟨1⟩ true, .connected ⟨1⟩ (.ok ()),
    .reply ⟨1⟩ (.result ⟨2⟩ {}), .elapse (.ofSeconds 1), .deadline ⟨1⟩, .elapse (.ofSeconds 1),
    .due ⟨1⟩ true, .connected ⟨1⟩ (.ok ())]

/-- The other is sent again, by itself: it has been put off. -/
theorem unanswered_resent :
    start { maxBatchSize := 2 } .horizon = .ok (fresh { maxBatchSize := 2 } .horizon) ∧
      (handed ⟨1⟩ ((fresh { maxBatchSize := 2 } .horizon).after halfAnswered).1).map Batch.tokens =
        [[⟨1⟩, ⟨2⟩], [⟨1⟩]] ∧
      ∃ before event between event' since,
        halfAnswered = before ++ event :: (between ++ event' :: since) ∧
        ((fresh { maxBatchSize := 2 } .horizon).after (before ++ [event])).2.Deferred ⟨1⟩ between ⟨1⟩ := by
  have started : start { maxBatchSize := 2 } .horizon = .ok (fresh { maxBatchSize := 2 } .horizon) := by rfl
  have sent : (handed ⟨1⟩ ((fresh { maxBatchSize := 2 } .horizon).after halfAnswered).1).map Batch.tokens =
      [[⟨1⟩, ⟨2⟩], [⟨1⟩]] := by decide +kernel
  obtain ⟨batch, rest, all, -, others⟩ := List.map_eq_cons_iff.1 sent
  obtain ⟨batch', rest, rfl, alone, -⟩ := List.map_eq_cons_iff.1 others
  obtain ⟨-, before, event, between, event', since, split, -, -, put⟩ :=
    (resends_shrink started halfAnswered ⟨1⟩).2.2.1 [] batch batch' rest all
  exact ⟨started, sent, before, event, between, event', since, split, put ⟨1⟩ (by rw [alone]; decide)⟩

end Run

end PolicyClient
