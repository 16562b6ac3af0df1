/-
# PolicyClient.Proofs.Run.Sending -- only what is wanted is sent

Every dispatch under way has departed with its batch at one event, and goes on from there by
its moves (`Run.step_arises`).  It hands a batch to the transport as it begins an attempt or
once it is connected (`Run.Hands`), and reads replies to it from then on; and it comes to read
replies in no other way (`Run.handed_step`).

An attempt begins with requests that are all wanted: they still wait, and the session is open
(`Run.Wants`).  If it need not connect they are sent in the same step.  If it has to, they are
sent once it is connected, whatever has happened to them since
(`Run.wanted_when_begun`, `Run.unwanted_sent`).
-/
import PolicyClient.Proofs.Client.Sending
import PolicyClient.Proofs.Lifecycle.Transitions

namespace PolicyClient

set_option autoImplicit false

open Client (Departs)

namespace Run

/-! ## Where dispatches come from -/

/-- A batch departs: a new dispatch comes into being, under an id of its own. -/
structure Spawns (r : Run) (event : Event) (d : Dispatch) : Prop where
  new : d.IsNew
  shown : .effect (.spawned d.id) ∈ (r.step event).1
  fresh : r.client.ids.batches ≤ d.id.number

/-- After an event that fills no batch every dispatch under way was under way before, or has made a
move. -/
theorem step_moves {r : Run} (sound : r.client.Sound) {event : Event} (other : ¬ event.Fills) {d' : Dispatch}
    (member : d' ∈ (r.step event).2.client.dispatches) :
    d' ∈ r.client.dispatches ∨ ∃ d ∈ r.client.dispatches, r.client.Moves event d d' := by
  have handle := r.step_ofHandle event
  cases event with
  | submit _ | flush | close | startTimer _ | flushTimer _ => exact absurd trivial other
  | due b healthy => exact Client.mem_onDue member
  | connected b result => exact Client.mem_onConnect member
  | streamEnd b => exact Client.mem_onStreamEnd sound member
  | deadline b => exact Client.mem_onDeadline member
  | reply b reply => exact (Client.mem_onReply sound member).imp_left And.left
  | poll t | cancel t | drop t | expire t =>
    obtain ⟨k, same⟩ := handle trivial
    rw [same] at member
    exact .inl member
  | abandon =>
    left
    simp only [step, update, Client.abandon] at member
    split at member <;> exact member
  | link up => exact .inl member
  | draw share => exact .inl member
  | elapse d => exact .inl member
  | age d => exact .inl member

/-- **Every dispatch under way** after an event was under way before, has departed over it, or
has made a move. -/
theorem step_arises {r : Run} (sound : r.client.Sound) {event : Event} {d' : Dispatch}
    (member : d' ∈ (r.step event).2.client.dispatches) :
    d' ∈ r.client.dispatches ∨ r.Spawns event d' ∨ ∃ d ∈ r.client.dispatches, r.client.Moves event d d' := by
  have spawns : ∀ effects, Departs r.client effects (r.step event).2.client →
      (∀ e ∈ effects, .effect e ∈ (r.step event).1) →
      d' ∈ r.client.dispatches ∨ r.Spawns event d' ∨ ∃ d ∈ r.client.dispatches, r.client.Moves event d d' := by
    intro effects departs shown
    rcases departs.arises d' member with before | ⟨new, spawned, fresh⟩
    · exact .inl before
    · exact .inr (.inl ⟨new, shown _ spawned, fresh⟩)
  have goesOn : ¬ event.Fills →
      d' ∈ r.client.dispatches ∨ r.Spawns event d' ∨ ∃ d ∈ r.client.dispatches, r.client.Moves event d d' :=
    fun other => (step_moves sound other member).imp_right .inr
  cases event with
  | submit request =>
    exact spawns _ (Client.submit_departs sound.latest request) fun e member =>
      List.mem_cons_of_mem _ (List.mem_map_of_mem member)
  | flush => exact spawns _ (Client.flush_departs sound.latest) fun e => List.mem_map_of_mem
  | close => exact spawns _ (Client.close_departs sound.latest) fun e => List.mem_map_of_mem
  | flushTimer b =>
    by_cases due : r.timerDue b = true
    · have same : r.step (.flushTimer b) = r.act (r.client.onFlushTimer b) := by
        rw [step, if_pos due]
      refine spawns (r.client.onFlushTimer b).1 ?_ ?_
      · rw [same]
        exact Client.onFlushTimer_departs sound.latest b
      · rw [same]
        exact fun e => List.mem_map_of_mem
    · rw [step, if_neg due] at member
      exact .inl member
  | startTimer b => exact .inl member
  | _ => exact goesOn id

/-! ## What is handed to the transport -/

/-- The batches that are handed to the transport under the id `b`, in order. -/
def handed (b : BatchId) (shown : List Observation) : List Batch :=
  shown.filterMap fun
    | .effect (.send batch) => if batch.id = b then some batch else none
    | _ => none

@[simp] theorem handed_nil (b : BatchId) : handed b [] = [] := rfl

@[simp] theorem handed_append (b : BatchId) (first later : List Observation) :
    handed b (first ++ later) = handed b first ++ handed b later := List.filterMap_append

theorem mem_handed_iff (b : BatchId) (batch : Batch) (shown : List Observation) :
    batch ∈ handed b shown ↔ .effect (.send batch) ∈ shown ∧ batch.id = b := by
  simp only [handed, List.mem_filterMap]
  constructor
  · rintro ⟨observed, member, same⟩
    split at same
    · split at same
      · rename_i id
        cases same
        exact ⟨member, id⟩
      · cases same
    · cases same
  · rintro ⟨member, id⟩
    exact ⟨_, member, if_pos id⟩

/-- Nothing is handed over but by the effect of sending. -/
theorem handed_eq_nil {b : BatchId} {shown : List Observation} (quiet : ∀ batch, .effect (.send batch) ∉ shown) :
    handed b shown = [] := by
  rw [List.eq_nil_iff_forall_not_mem]
  intro batch member
  exact quiet batch ((mem_handed_iff b batch shown).1 member).1

theorem handed_send (b : BatchId) (batch : Batch) :
    handed b [.effect (.send batch)] = if batch.id = b then [batch] else [] := by
  by_cases same : batch.id = b <;> simp [handed, same]

/-- The moves by which a dispatch hands its items to the transport. -/
inductive Hands (r : Run) : Event → Dispatch → Dispatch → Prop
  /-- It begins an attempt and need not connect. -/
  | begins (d : Dispatch) (due : d.IsDue r.client.now) (running : r.client.lifecycle.closedReason = none)
      (some : (r.client.begun d).items ≠ []) :
    Hands r (.due d.id true) d (r.client.sent (r.client.begun d))
  /-- It is connected. -/
  | connected (d : Dispatch) (phase : d.phase = .connecting) :
    Hands r (.connected d.id (.ok ())) d (r.client.sent d)

namespace Hands

variable {r : Run} {event : Event} {d d' : Dispatch}

theorem id (h : r.Hands event d d') : d'.id = d.id := by
  cases h <;> rfl

theorem phase (h : r.Hands event d d') :
    d'.phase = .reading (r.client.now + r.client.config.requestTimeout)
      { unanswered := d'.items.map Item.token } := by
  cases h <;> rfl

/-- What is sent has been held. -/
theorem items (h : r.Hands event d d') : d'.items.Sublist d.items := by
  cases h with
  | begins due => exact List.filter_sublist
  | connected phase => exact .refl _

theorem owes (h : r.Hands event d d') {t : Token} (member : t ∈ d'.items.map Item.token) : d.owes t := by
  have held := h.items.map Item.token |>.subset member
  unfold Dispatch.owes
  cases h with
  | begins _ due =>
    rcases due with phase | ⟨wake, phase, -⟩ <;> simpa [phase] using held
  | connected _ phase => simpa [phase] using held

end Hands

/-- A dispatch that is to send its items either does so or is over. -/
theorem handed_of_sends {c : Client} {d d₁ : Dispatch} (member : d ∈ c.dispatches) (id : d₁.id = d.id)
    {result : List Effect × Client} (sent : c.Sends d₁ result) (b : BatchId) :
    (handed b (result.1.map .effect) = [] ∧ ∀ e ∈ result.2.dispatches, e.id = b → e ∈ c.dispatches) ∨
      (d.id = b ∧ c.sent d₁ ∈ result.2.dispatches ∧
        handed b (result.1.map .effect) = [⟨b, d₁.items⟩]) := by
  cases sent with
  | breaksOff => exact .inl ⟨rfl, fun e under _ => (Client.mem_finish under).1⟩
  | sends =>
    by_cases same : d₁.id = b
    · refine .inr ⟨id ▸ same, Client.mem_keep_self _ (d := d) member id, ?_⟩
      rw [List.map_singleton, handed_send, if_pos same, same]
    · refine .inl ⟨?_, fun e under other => ?_⟩
      · rw [List.map_singleton, handed_send, if_neg same]
      · rcases Client.mem_keep _ under with rfl | ⟨before, -⟩
        · exact absurd other same
        · exact before

/-- What begins no attempt and is no connection sends nothing. -/
theorem send_not_shown {r : Run} (sound : r.client.Sound) {event : Event}
    (begun : ∀ b healthy, event ≠ .due b healthy) (connected : ∀ b result, event ≠ .connected b result)
    (batch : Batch) : .effect (.send batch) ∉ (r.step event).1 := by
  intro shown
  cases event with
  | submit request =>
    simp only [step, List.mem_cons, List.mem_map, reduceCtorEq, false_or, Observation.effect.injEq,
      exists_eq_right] at shown
    exact (Client.submit_departs sound.latest request).quiet batch shown
  | flush =>
    simp only [step, act, List.mem_map, Observation.effect.injEq, exists_eq_right] at shown
    exact (Client.flush_departs sound.latest).quiet batch shown
  | close =>
    simp only [step, act, List.mem_map, Observation.effect.injEq, exists_eq_right] at shown
    exact (Client.close_departs sound.latest).quiet batch shown
  | flushTimer b =>
    simp only [step] at shown
    split at shown
    · simp only [act, List.mem_map, Observation.effect.injEq, exists_eq_right] at shown
      exact (Client.onFlushTimer_departs sound.latest b).quiet batch shown
    · cases shown
  | poll t | cancel t | drop t | expire t =>
    simp only [step] at shown
    split at shown
    · cases shown
    · first
      | split at shown <;> simp at shown
      | simp at shown
  | due b healthy => exact begun b healthy rfl
  | connected b result => exact connected b result rfl
  | _ => cases shown

/-- No batch is handed over under the id `b`, and no dispatch comes to read replies to it. -/
structure Withholds (r : Run) (event : Event) (b : BatchId) : Prop where
  handed : handed b (r.step event).1 = []
  reading : ∀ d' ∈ (r.step event).2.client.dispatches, d'.id = b → d'.IsReading →
    ∃ d ∈ r.client.dispatches, d.id = b ∧ d.IsReading

/-- The dispatch of `b` hands its items over, and reads replies to them. -/
def HandsOver (r : Run) (event : Event) (b : BatchId) : Prop :=
  ∃ d ∈ r.client.dispatches, ∃ d' ∈ (r.step event).2.client.dispatches,
    d.id = b ∧ r.Hands event d d' ∧ handed b (r.step event).1 = [⟨b, d'.items⟩]

/-- Without sending, only who reads replies goes on to. -/
theorem withholds_of_moves {r : Run} (sound : r.client.Sound) {event : Event} {b : BatchId}
    (nothing : handed b (r.step event).1 = []) (begun : ∀ b healthy, event ≠ .due b healthy)
    (connected : ∀ b, event ≠ .connected b (.ok ())) : r.Withholds event b := by
  refine ⟨nothing, fun d' member id reading => ?_⟩
  obtain ⟨deadline, a, phase⟩ := reading
  rcases step_arises sound member with before | spawns | ⟨d, before, moves⟩
  · exact ⟨d', before, id, deadline, a, phase⟩
  · cases spawns.new.1.symm.trans phase
  · cases moves with
    | connects d due healthy => exact absurd rfl (begun _ _)
    | begins d due => exact absurd rfl (begun _ _)
    | sends d connecting => exact absurd rfl (connected _)
    | reads d deadline' a' phase' => exact ⟨d, before, id, deadline', a', phase'⟩
    | backsOff => cases phase

theorem withholds_of_before {r r' : Run} {event : Event} {b : BatchId} {shown : List Observation}
    (same : r.step event = (shown, r')) (nothing : handed b shown = [])
    (before : ∀ d' ∈ r'.client.dispatches, d'.id = b → d' ∈ r.client.dispatches) : r.Withholds event b := by
  refine ⟨by rw [same]; exact nothing, fun d' member id reading => ?_⟩
  rw [same] at member
  exact ⟨d', before d' member id, id, reading⟩

theorem handed_due (r : Run) (b' : BatchId) (healthy : Bool) (b : BatchId) :
    r.Withholds (.due b' healthy) b ∨ r.HandsOver (.due b' healthy) b := by
  rcases r.client.onDue_cases b' healthy with nothing | ⟨d, member, rfl, due, begun⟩
  · have same : r.step (.due b' healthy) = ([], r) := by
      simp only [step, act, nothing, List.map_nil]
    exact .inl (withholds_of_before same rfl fun d' member _ => member)
  · generalize result : r.client.onDue d.id healthy = outcome at begun
    have step : r.step (.due d.id healthy) = (outcome.1.map .effect, { r with client := outcome.2 }) := by
      simp only [step, act, result]
    cases begun with
    | finishes => exact .inl (withholds_of_before step rfl fun d' under _ => (Client.mem_finish under).1)
    | refused => exact .inl (withholds_of_before step rfl fun d' under _ => (Client.mem_finish under).1)
    | connects =>
      refine .inl ⟨by rw [step]; rfl, fun d' under id reading => ?_⟩
      rw [step] at under
      rcases Client.mem_keep _ under with rfl | ⟨before, -⟩
      · obtain ⟨deadline, a, phase⟩ := reading
        cases phase
      · exact ⟨d', before, id, reading⟩
    | sends running some ready result sent =>
      subst ready
      rcases handed_of_sends (c := { r.client with lifecycle := r.client.lifecycle.beginConnect.2 })
          member (show (r.client.begun d).id = d.id from rfl) sent b with
        ⟨nothing, before⟩ | ⟨id, under, batch⟩
      · exact .inl (withholds_of_before step nothing before)
      · refine .inr ⟨d, member, _, ?_, id, .begins d due running some, ?_⟩
        · rw [step]
          exact under
        · rw [step]
          exact batch

theorem handed_connected {r : Run} (sound : r.client.Sound) (b' : BatchId) (result : Except Error Unit)
    (b : BatchId) : r.Withholds (.connected b' result) b ∨ r.HandsOver (.connected b' result) b := by
  rcases r.client.onConnect_cases b' result with
    nothing | ⟨e, rfl, nothing⟩ | ⟨d, member, rfl, phase, rfl, sent⟩
  · have same : r.step (.connected b' result) = ([], r) := by
      simp only [step, act, nothing, List.map_nil]
    exact .inl (withholds_of_before same rfl fun d' member _ => member)
  · left
    apply withholds_of_moves sound
    · simp [step, act, nothing]
    · simp
    · simp
  · generalize result : r.client.onConnect d.id (.ok ()) = outcome at sent
    have step : r.step (.connected d.id (.ok ())) = (outcome.1.map .effect, { r with client := outcome.2 }) := by
      simp only [step, act, result]
    rcases handed_of_sends (c := { r.client with lifecycle := r.client.lifecycle.onConnected })
        member (show d.id = d.id from rfl) sent b with ⟨nothing, before⟩ | ⟨id, under, batch⟩
    · exact .inl (withholds_of_before step nothing before)
    · refine .inr ⟨d, member, _, ?_, id, .connected d phase, ?_⟩
      · rw [step]
        exact under
      · rw [step]
        exact batch

/-- **Every event** hands over one batch under an id at most, and its dispatch reads replies from
then on; and it comes to read replies in no other way. -/
theorem handed_step {r : Run} (sound : r.client.Sound) (event : Event) (b : BatchId) :
    r.Withholds event b ∨ r.HandsOver event b := by
  have other : (∀ b healthy, event ≠ .due b healthy) → (∀ b result, event ≠ .connected b result) →
      r.Withholds event b := fun begun connected =>
    withholds_of_moves sound (handed_eq_nil (send_not_shown sound begun connected)) begun
      fun b => connected b _
  cases event with
  | due b' healthy => exact r.handed_due b' healthy b
  | connected b' result => exact handed_connected sound b' result b
  | _ => exact .inl (other (by simp) (by simp))

/-- What is sent is handed over. -/
theorem handsOver_of_send {r : Run} (sound : r.client.Sound) {event : Event} {batch : Batch}
    (shown : .effect (.send batch) ∈ (r.step event).1) :
    ∃ d ∈ r.client.dispatches, ∃ d' ∈ (r.step event).2.client.dispatches,
      d.id = batch.id ∧ r.Hands event d d' ∧ batch.items = d'.items := by
  have member := (mem_handed_iff batch.id batch _).2 ⟨shown, rfl⟩
  rcases handed_step sound event batch.id with withholds | ⟨d, before, d', under, id, hands, only⟩
  · rw [withholds.handed] at member
    cases member
  · rw [only, List.mem_singleton] at member
    exact ⟨d, before, d', under, id, hands, by rw [member]⟩

/-! ## Only what is wanted is sent -/

/-- The requests of the batch still wait, and the session is open. -/
structure Wants (r : Run) (batch : Batch) : Prop where
  running : r.client.state ≠ .closed
  live : ∀ t ∈ batch.tokens, r.client.correlator.isLive t = true

/-- An attempt with the batch began with what was wanted then, and its dispatch has been
connecting ever since. -/
def BegunWith (r₀ : Run) (events : List Event) (batch : Batch) : Prop :=
  ∃ before healthy wait, events = before ++ .due batch.id healthy :: wait ∧ (r₀.after before).2.Wants batch ∧
    ∀ early late, wait = early ++ late → ∃ d,
      (r₀.after (before ++ .due batch.id healthy :: early)).2.client.dispatch? batch.id = some d ∧
        d.phase = .connecting ∧ d.items = batch.items

variable {config : Config} {horizon : Instant}

/-- A session without a reason to be closed is open. -/
theorem running_of_reason {c : Client} (sound : c.Sound) (none : c.lifecycle.closedReason = none) :
    c.state ≠ .closed :=
  fun closed => (sound.closed closed).1 none

/-- What an attempt begins with is wanted. -/
theorem wants_begun {r : Run} (sound : r.client.Sound) (d : Dispatch)
    (running : r.client.lifecycle.closedReason = none) : r.Wants ⟨d.id, (r.client.begun d).items⟩ := by
  refine ⟨running_of_reason sound running, fun t member => ?_⟩
  obtain ⟨i, kept, rfl⟩ := List.mem_map.1 member
  exact (List.mem_filter.1 kept).2

/-- A dispatch that comes to connect has begun an attempt in an open session. -/
theorem running_of_connects {r : Run} (sound : r.client.Sound) {d d' : Dispatch} {healthy : Bool}
    (before : d ∈ r.client.dispatches) (due : d.IsDue r.client.now)
    (member : d' ∈ (r.step (.due d.id healthy)).2.client.dispatches) (id : d'.id = d.id)
    (phase : d'.phase = .connecting) : r.client.lifecycle.closedReason = none := by
  simp only [step, act] at member
  rcases r.client.onDue_cases d.id healthy with nothing | ⟨d₁, before₁, id₁, -, begun⟩
  · rw [nothing] at member
    rw [sound.unique member before id] at phase
    rcases due with queued | ⟨wake, asleep, -⟩
    · cases queued.symm.trans phase
    · cases asleep.symm.trans phase
  · obtain rfl := sound.unique before₁ before id₁
    generalize r.client.onDue d₁.id healthy = outcome at begun member
    cases begun with
    | finishes => exact absurd id (Client.mem_finish member).2
    | refused => exact absurd id (Client.mem_finish member).2
    | connects running => exact running
    | sends running => exact running

/-- **An attempt that connects** began with what was wanted. -/
theorem begunWith_of_connecting {events : List Event} {d : Dispatch}
    (member : d ∈ ((fresh config horizon).after events).2.client.dispatches) (phase : d.phase = .connecting) :
    (fresh config horizon).BegunWith events ⟨d.id, d.items⟩ := by
  induction events using List.reverseRecOn generalizing d with
  | nil => cases member
  | append_singleton events event ih =>
    have sound := sound_after (fresh_sound config horizon) events
    have sound' := sound_after (fresh_sound config horizon) (events ++ [event])
    have found := sound'.dispatch?_of_mem member
    rw [after_snoc] at member
    rcases step_arises sound member with before | spawns | ⟨d₀, before, moves⟩
    · obtain ⟨begun, healthy, wait, rfl, wants, connecting⟩ := ih before phase
      refine ⟨begun, healthy, wait ++ [event], by simp, wants, fun early late split => ?_⟩
      rcases List.eq_nil_or_concat' late with rfl | ⟨late, last, rfl⟩
      · refine ⟨d, ?_, phase, rfl⟩
        rw [← found, ← List.append_nil early, ← split]
        simp
      · rw [← List.append_assoc] at split
        exact connecting early late (List.append_inj_left' split rfl)
    · cases spawns.new.1.symm.trans phase
    · cases moves with
      | connects d₀ due healthy =>
        refine ⟨events, healthy, [], rfl, ?_, fun early late split => ?_⟩
        · exact wants_begun sound d₀ (running_of_connects sound before due member rfl rfl)
        · obtain ⟨rfl, -⟩ := List.append_eq_nil_iff.1 split.symm
          exact ⟨_, found, phase, rfl⟩
      | begins | sends | reads | backsOff => cases phase

/-- **Only what is wanted is sent**, as it stands when an attempt begins.  A batch that is handed to
the transport holds requests that still wait, and the session is open; but a dispatch that has had
to connect sends what was wanted when it began to. -/
theorem wanted_when_begun {r₀ : Run} (started : start config horizon = .ok r₀) {events : List Event} {event : Event}
    {batch : Batch} (shown : .effect (.send batch) ∈ ((r₀.after events).2.step event).1) :
    (event = .due batch.id true ∧ (r₀.after events).2.Wants batch) ∨
      (event = .connected batch.id (.ok ()) ∧ r₀.BegunWith events batch) := by
  obtain ⟨-, rfl⟩ := (start_eq_ok_iff config horizon r₀).1 started
  have sound := sound_after (fresh_sound config horizon) events
  obtain ⟨d, before, d', under, id, hands, items⟩ := handsOver_of_send sound shown
  obtain ⟨b, items₀⟩ := batch
  subst id items
  cases hands with
  | begins d due running => exact .inl ⟨rfl, wants_begun sound d running⟩
  | connected d phase => exact .inr ⟨rfl, begunWith_of_connecting before phase⟩

/-- A check is withdrawn, and the session is closed, while the only batch connects. -/
def leftWhileConnecting : List Event := [.submit mayAliceView, .due ⟨1⟩ true, .cancel ⟨1⟩, .close]

/-- The check is sent all the same. -/
theorem left_while_connecting_sent :
    start { maxBatchSize := 1 } .horizon = .ok (fresh { maxBatchSize := 1 } .horizon) ∧
      .effect (.send ⟨⟨1⟩, [⟨⟨1⟩, mayAliceView⟩]⟩) ∈
        (((fresh { maxBatchSize := 1 } .horizon).after leftWhileConnecting).2.step (.connected ⟨1⟩ (.ok ()))).1 ∧
      (fresh { maxBatchSize := 1 } .horizon).BegunWith leftWhileConnecting ⟨⟨1⟩, [⟨⟨1⟩, mayAliceView⟩]⟩ := by
  have started : start { maxBatchSize := 1 } .horizon = .ok (fresh { maxBatchSize := 1 } .horizon) := by rfl
  have shown : .effect (.send ⟨⟨1⟩, [⟨⟨1⟩, mayAliceView⟩]⟩) ∈
      (((fresh { maxBatchSize := 1 } .horizon).after leftWhileConnecting).2.step (.connected ⟨1⟩ (.ok ()))).1 :=
    List.mem_singleton.2 (by rfl)
  rcases wanted_when_begun started shown with ⟨due, -⟩ | ⟨-, begun⟩
  · cases due
  · exact ⟨started, shown, begun⟩

/-- So what is sent need not be wanted any more. -/
theorem unwanted_sent :
    ¬ ∀ config r₀ events event batch, start config .horizon = .ok r₀ →
      .effect (.send batch) ∈ ((r₀.after events).2.step event).1 → (r₀.after events).2.Wants batch := by
  intro wanted
  have shown : .effect (.send ⟨⟨1⟩, [⟨⟨1⟩, mayAliceView⟩]⟩) ∈
      (((fresh { maxBatchSize := 1 } .horizon).after leftWhileConnecting).2.step (.connected ⟨1⟩ (.ok ()))).1 :=
    List.mem_singleton.2 (by rfl)
  have wants := wanted { maxBatchSize := 1 } (fresh { maxBatchSize := 1 } .horizon) _ _ _ (by rfl) shown
  have live := wants.live ⟨1⟩ (List.mem_singleton_self _)
  have ended : ((fresh { maxBatchSize := 1 } .horizon).after leftWhileConnecting).2.client.correlator.isLive ⟨1⟩ =
      false := by decide +kernel
  rw [ended] at live
  cases live

end Run

end PolicyClient
