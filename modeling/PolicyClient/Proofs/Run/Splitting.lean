/-
# PolicyClient.Proofs.Run.Splitting -- what the cache decides of a request, and what is asked

Whatever a cache holds, a request that comes to an open session is split by it exactly
(`Client.consult_splits`).  With nothing left to ask the request is answered at once, and all that
happens to the client is that a token is issued, the store is looked through and a cache hit is
counted.  Else its check waits, with what was found (`Run.AsksFor`): what is held and sent under its
token is the question about the rest of the actions, and an answer to it is the one result that is
taken in for it, merged with what was found (`Run.partial_hits_split`).

That what is sent is what was taken in follows from the items: no event but the submission of a
request has a client hold an item that it has not held before (`Run.step_holds`).
-/
import PolicyClient.Proofs.Cache.Splitting
import PolicyClient.Proofs.Run.Resending
import PolicyClient.Proofs.Run.Transparency

namespace PolicyClient

set_option autoImplicit false

namespace Client

variable {c c' : Client}

/-- A request that the cache decides is answered without entering a batch. -/
theorem submit_of_known {request : Request} {store : DecisionStore Fingerprint}
    (running : c.lifecycle.closedReason = none) (cache : c.correlator.cache = some store)
    (all : (consult store request).1.asked = []) : c.submit request =
      (⟨c.ids.nextToken.1, .ready (.ok { decisions := (consult store request).1.decisions })⟩, [],
        { c with
          ids := c.ids.nextToken.2
          correlator.cache := some (consult store request).2
          stats.cacheHits := c.stats.cacheHits + 1 }) := by
  simp only [submit, running, cache, all, List.isEmpty_nil, if_true]
  rfl

/-- A request that is not decided altogether enters a batch. -/
theorem submit_of_left {request : Request} (running : c.lifecycle.closedReason = none)
    (left : (c.prefill request).asked ≠ []) :
    c.submit request = (⟨c.ids.nextToken.1, .waiting (c.entered request).1⟩, (c.entered request).2) := by
  cases c.submission request with
  | refused reason closed =>
    rw [running] at closed
    cases closed
  | decided _ store cache all => exact absurd all left
  | enters _ result => exact result

/-! ## The items of a client -/

/-- A request that enters is held. -/
theorem holds_enqueue (c : Client) (t : Token) (request : Request) (prefill : Prefill) :
    (c.enqueue t request prefill).2.2.Holds ⟨t, request⟩ := by
  obtain ⟨before, c₁, after, c₂, -, entry, result⟩ := c.enqueue_cases t request prefill
  rw [result]
  have joined : ⟨t, request⟩ ∈ (c₁.joined t request prefill).openBatch.items :=
    List.mem_append_right _ (List.mem_singleton_self _)
  cases entry with
  | fills => exact .inr ⟨_, List.mem_append_right _ (List.mem_singleton_self _), joined⟩
  | opens => exact .inl joined
  | joins => exact .inl joined

/-- Nothing is counted as a request enters. -/
theorem stats_enqueue (c : Client) (t : Token) (request : Request) (prefill : Prefill) :
    (c.enqueue t request prefill).2.2.stats = c.stats := by
  obtain ⟨before, c₁, after, c₂, room, entry, result⟩ := c.enqueue_cases t request prefill
  rw [result]
  cases room <;> cases entry <;> rfl

/-- What a dispatch goes on with has been held. -/
theorem holds_of_moves {event : Event} (openBatch : c'.openBatch = c.openBatch)
    (moves : ∀ d' ∈ c'.dispatches, d' ∈ c.dispatches ∨ ∃ d ∈ c.dispatches, Moves c event d d') {i : Item}
    (held : c'.Holds i) : c.Holds i := by
  rcases held with filling | ⟨d', under, item⟩
  · rw [openBatch] at filling
    exact .inl filling
  · rcases moves d' under with before | ⟨d, before, moved⟩
    · exact .inr ⟨d', before, item⟩
    · exact .inr ⟨d, before, moved.items.subset item⟩

theorem holds_close {i : Item} (held : c.close.2.Holds i) : c.Holds i := by
  have flushed := (flush_flows _).holds i held
  unfold closeWith at flushed
  split at flushed <;> exact flushed

end Client

namespace Run

/-- **Every event** leaves a client with items that it has held before, but for that of a request
that is submitted. -/
theorem step_holds {r : Run} (sound : r.client.Sound) {event : Event} {i : Item}
    (held : (r.step event).2.client.Holds i) : r.client.Holds i ∨ ∃ request, event = .submit request ∧
      i = ⟨r.client.ids.nextToken.1, (r.client.prefill request).remaining request⟩ := by
  have goesOn : ¬ event.Fills → r.client.Holds i := by
    intro other
    have openBatch : (r.step event).2.client.openBatch = r.client.openBatch :=
      (r.step_seesThrough other).openBatch
    exact Client.holds_of_moves openBatch (fun d' => step_moves sound other) held
  cases event with
  | submit request =>
    have admits := r.client.submit_admits request
    exact (admits.holds i held).symm.imp_right fun new => ⟨request, rfl, new⟩
  | flush => exact .inl ((Client.flush_flows _).holds i held)
  | close => exact .inl (Client.holds_close held)
  | startTimer b => exact .inl held
  | flushTimer b =>
    left
    simp only [step] at held
    split at held
    · exact (Client.onFlushTimer_flows _ b).holds i held
    · exact held
  | _ => exact .inl (goesOn id)

/-- What is held under an old token has been held under it before. -/
theorem after_holds {r : Run} (sound : r.Sound) {events : List Event} {i : Item}
    (issued : i.token.number ≤ r.client.ids.tokens) (held : (r.after events).2.client.Holds i) :
    r.client.Holds i := by
  induction events generalizing r with
  | nil => exact held
  | cons event events ih =>
    rw [after_cons] at held
    have later := Nat.le_trans issued (tokens_le_step sound.client event)
    rcases step_holds sound.client (ih (sound.step event) later held) with before | ⟨request, -, new⟩
    · exact before
    · rw [new] at issued
      exact absurd issued (Nat.not_succ_le_self _)

/-- What is sent under an old token has been held under it. -/
theorem holds_of_sent {r : Run} (sound : r.Sound) {events : List Event} {batch : Batch}
    (sent : .effect (.send batch) ∈ (r.after events).1) {i : Item} (member : i ∈ batch.items)
    (issued : i.token.number ≤ r.client.ids.tokens) : r.client.Holds i := by
  induction events generalizing r with
  | nil => cases sent
  | cons event events ih =>
    rw [after_cons] at sent
    rcases List.mem_append.1 sent with now | later
    · obtain ⟨d, under, d', -, -, hands, items⟩ := handsOver_of_send sound.client now
      rw [items] at member
      exact .inr ⟨d, under, hands.items.subset member⟩
    · have still := Nat.le_trans issued (tokens_le_step sound.client event)
      have held : (r.after [event]).2.client.Holds i := ih (sound.step event) later still
      exact after_holds sound issued held

/-! ## A check that waits for the rest of a request -/

/-- The run with this in its cache. -/
def withCache (r : Run) (store : DecisionStore Fingerprint) : Run :=
  { r with client := { r.client with correlator := { r.client.correlator with cache := some store } } }

theorem Sound.withCache {r : Run} (h : r.Sound) (store : DecisionStore Fingerprint) :
    (r.withCache store).Sound :=
  ⟨h.client.with_cache _, h.named, h.issued⟩

/-- Under `t` a check waits that asks for `rest`, with what is `known`: nothing else is held or sent
under its token, and its answer is the one result that is taken in for it, merged with what is known. -/
structure AsksFor (r : Run) (t : Token) (rest : Request) (known : Prefill) : Prop where
  waits : ∃ w, r.client.correlator.waiters.get? t = some w ∧ w.prefill = known
  held : ∀ q, r.client.Holds ⟨t, q⟩ ↔ q = rest
  sent : ∀ since batch, .effect (.send batch) ∈ (r.after since).1 →
    ∀ i ∈ batch.items, i.token = t → i.request = rest
  taken : ∀ since event b answer, (r.after since).2.client.correlator.isLive t = true →
    (r.after since).2.takesIn? t event = some (b, answer) →
      ((r.after since).2.step event).2.Delivers t (.ok (answer.merge known.decisions))
  told : ∀ since a, .outcome t (.ok a) ∈ (r.after since).1 →
    ∃ b answer, r.takings t since = [(b, answer)] ∧ a = answer.merge known.decisions

/-- A result that is taken in for a check that waits is the answer that its caller is told. -/
theorem delivers_of_taken {r : Run} (sound : r.Sound) (attended : r.Attended) {t : Token} {w : Waiter}
    (found : r.client.correlator.waiters.get? t = some w) {event : Event} {b : BatchId} {answer : Answer}
    (takes : r.takesIn? t event = some (b, answer)) :
    (r.step event).2.Delivers t (.ok (answer.merge w.prefill.decisions)) := by
  have pledged := attended.pledged_of_taken sound found takes
  refine pledged.delivers (sound.step event) ?_
  obtain ⟨rfl, -⟩ := reply_of_takesIn? takes
  have handle : (r.step (.reply b (.result t answer))).2.calls.get? t = _ := attended t w found
  rw [handle]
  nofun

/-- A check that waits asks for what is held under its token. -/
theorem asksFor_of_waiting {r : Run} (sound : r.Sound) (attended : r.Attended) {t : Token} {w : Waiter}
    (found : r.client.correlator.waiters.get? t = some w) {rest : Request}
    (held : ∀ q, r.client.Holds ⟨t, q⟩ ↔ q = rest) : r.AsksFor t rest w.prefill := by
  have issued := sound.client.known t w found
  refine ⟨⟨w, found, rfl⟩, held, ?_, ?_, ?_⟩
  · rintro since batch shown ⟨t, q⟩ member rfl
    exact (held q).1 (holds_of_sent sound shown member issued)
  · intro since event b answer live takes
    obtain ⟨w', found'⟩ := (Correlator.isLive_iff _ t).1 live
    have same := waited_before sound issued found'
    rw [found, Option.some.injEq] at same
    rw [← same] at found'
    exact delivers_of_taken (sound.after since) (attended.after sound since) found' takes
  · intro since a shown
    have starts : r.Starts t (.waiting w.slot) := by
      intro call handle
      rw [attended t w found, Option.some.injEq] at handle
      exact .inl (by rw [← handle])
    obtain ⟨answer, taken, merged⟩ := taken_of_shown sound found starts shown
    exact ⟨w.batch, answer, taken, merged⟩

/-- **A request that the cache does not decide** is asked as what is left of it. -/
theorem asksFor_of_left {r : Run} (sound : r.Sound) (attended : r.Attended) {request : Request}
    (running : r.client.lifecycle.closedReason = none) (left : (r.client.prefill request).asked ≠ []) :
    (r.step (.submit request)).2.AsksFor r.client.ids.nextToken.1
      ((r.client.prefill request).remaining request) (r.client.prefill request) := by
  have result := Client.submit_of_left running left
  obtain ⟨b, slot, waiter⟩ : ∃ b slot, (r.step (.submit request)).2.client.correlator.waiters.get?
      r.client.ids.nextToken.1 = some ⟨b, slot, r.client.prefill request⟩ := by
    obtain ⟨-, -, standing⟩ := sound.client.submit request
    cases standing with
    | refused _ _ state =>
      rw [result] at state
      cases state
    | decided _ _ _ _ state =>
      rw [result] at state
      cases state
    | waits _ b state waiter => exact ⟨b, _, waiter⟩
  refine asksFor_of_waiting (sound.step _) (attended.step sound _) waiter fun q => ?_
  constructor
  · intro holds
    rcases step_holds sound.client holds with before | ⟨asker, same, new⟩
    · exact absurd (issued_of_holds sound.client before) (Nat.not_succ_le_self _)
    · cases same
      exact congrArg Item.request new
  · rintro rfl
    show (r.client.submit request).2.2.Holds _
    rw [result]
    exact Client.holds_enqueue _ _ _ _

/-! ## Every cache content -/

/-- **Partial hits split a question exactly.**  Take any run, with anything in its cache, whose
session is open, and a request that names no action twice.  The decisions that the cache gives and
the questions that are left share the actions of the request out among them, and the questions are
registered under the fingerprints of the request that is left.

If no question is left, the request is answered at once with these decisions; a token is issued,
the store is looked through, one cache hit is counted, and nothing else changes.  If some are left,
its call waits, and what is left of the request names just them, in their order, and is asked in its
place.  An answer that decides all of it, and has no validation errors, makes one that decides all of
the request. -/
theorem partial_hits_split {config : Config} {horizon : Instant} {r₀ : Run} (started : start config horizon = .ok r₀)
    (events : List Event) (store : DecisionStore Fingerprint) {request : Request}
    (distinct : request.actions.Nodup) (running : (r₀.after events).2.client.lifecycle.closedReason = none) :
    let r := (r₀.after events).2.withCache store
    let t := r.client.ids.nextToken.1
    let known := (Client.consult store request).1
    let rest := known.remaining request
    known.Splits request ∧
      (∀ a d, known.decisions.get? a = some d → store.find? (.of request a) = some d) ∧
      (known.asked = [] → r.client.submit request =
        (⟨t, .ready (.ok { decisions := known.decisions })⟩, [],
          { r.client with
            ids := r.client.ids.nextToken.2
            correlator.cache := some (Client.consult store request).2
            stats.cacheHits := r.client.stats.cacheHits + 1 })) ∧
      (known.asked ≠ [] →
        (∃ slot, (r.client.submit request).1 = ⟨t, .waiting slot⟩) ∧
        (r.step (.submit request)).2.client.stats = r.client.stats ∧
        rest = { request with
          actions := request.actions.filter fun a => decide (a ∉ known.decisions.keys) } ∧
        rest.actions ≠ [] ∧ rest.actions.Nodup ∧ (r.step (.submit request)).2.AsksFor t rest known) ∧
      ∀ answer : Answer, answer.validationErrors = [] →
        (∀ a ∈ rest.actions, ∃ d, answer.decisions.get? a = some d) →
        ∀ a ∈ request.actions, ∃ d, (answer.merge known.decisions).decision? a.name = some d := by
  intro r t known rest
  obtain ⟨-, rfl⟩ := (start_eq_ok_iff config horizon r₀).1 started
  have sound : r.Sound := ((fresh_sound_run config horizon).after events).withCache store
  have attended : r.Attended := (fresh_attended config horizon).after (fresh_sound_run config horizon) events
  have splits : known.Splits request := Client.consult_splits store distinct
  have found : ∀ a d, known.decisions.get? a = some d → store.find? (.of request a) = some d :=
    fun a d decided => ((Client.consult_consults store request).decided a d decided).2
  refine ⟨splits, found, ?_, ?_, fun answer => splits.decides_merge⟩
  · exact Client.submit_of_known running rfl
  · intro left
    have result : r.client.submit request = _ := Client.submit_of_left running left
    have kept : rest.actions.Nodup := distinct.filter _
    refine ⟨⟨_, congrArg Prod.fst result⟩, ?_, known.remaining_eq request, splits.remaining_ne_nil left, kept,
      asksFor_of_left sound attended running left⟩
    show (r.client.submit request).2.2.stats = _
    rw [result]
    exact Client.stats_enqueue _ _ _ _

def annotate : Action := ⟨"annotate", by decide⟩

/-- The calls that ask whether alice may view and annotate a document. -/
def viewAndAnnotate : Composition where
  principalId := "alice"
  principalEdits := [.role "employee"]
  resourceKind := "document"
  resourceId := "1"
  resourceEdits := []
  actions := [view, annotate]
  auxData := none

def mayAliceAnnotate : Request where
  principal := ⟨"alice", .ofList [("employee", ())], .empty, none, none⟩
  resource := ⟨"document", "1", .empty, none, none⟩
  actions := [view, annotate]
  auxData := none

/-- A store that knows of the viewing. -/
def viewKnown : DecisionStore Fingerprint :=
  { ttl := .ofSeconds 10
    cache := {
      capacity := 1
      entries := [(.of mayAliceAnnotate view, storedDecision .allow .zero (.ofSeconds 10))] } }

/-- Of viewing and annotating only the annotating is asked. -/
theorem annotating_asked :
    start cachingConfig .horizon = .ok (fresh cachingConfig .horizon) ∧ mayAliceAnnotate.actions.Nodup ∧
      ((fresh cachingConfig .horizon).after []).2.client.lifecycle.closedReason = none ∧
      (Client.consult viewKnown mayAliceAnnotate).1.asked = [(annotate, .of mayAliceAnnotate annotate)] ∧
      (Client.consult viewKnown mayAliceAnnotate).1.Splits mayAliceAnnotate ∧
      (((fresh cachingConfig .horizon).withCache viewKnown).step (.submit mayAliceAnnotate)).2.AsksFor ⟨1⟩
        ((Client.consult viewKnown mayAliceAnnotate).1.remaining mayAliceAnnotate)
        (Client.consult viewKnown mayAliceAnnotate).1 := by
  have started : start cachingConfig .horizon = .ok (fresh cachingConfig .horizon) := by rfl
  have distinct : mayAliceAnnotate.actions.Nodup := Composition.distinct (c := viewAndAnnotate) (by rfl)
  have asked : (Client.consult viewKnown mayAliceAnnotate).1.asked = [(annotate, .of mayAliceAnnotate annotate)] := by
    decide +kernel
  obtain ⟨splits, -, -, asks, -⟩ := partial_hits_split started [] viewKnown distinct rfl
  obtain ⟨-, -, -, -, -, asksFor⟩ := asks (by rw [asked]; nofun)
  exact ⟨started, distinct, rfl, asked, splits, asksFor⟩

end Run

end PolicyClient
