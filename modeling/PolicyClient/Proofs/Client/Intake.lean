/-
# PolicyClient.Proofs.Client.Intake -- what becomes of the requests that enter

Callers take their tokens one by one and then enter, one at a time, but not in the order of
their tokens; flushes and timers come in between.  `Intake` is a client with the tokens of the
callers who have not entered yet, and its steps are the functions of the client that touch the
open batch.  Nobody sees the batches through meanwhile, so the dispatches of the client are the
batches that have left, in order (`Client.left`).

Main statement: after any steps the batches that have left and then the open one hold exactly
what has entered, in order and once each, every batch keeps the limits, ids increase, and every
check waits under the id of its batch (`Intake.keeps_after`).

One lemma for each function says what it does to `Client.Filled`, which a client keeps between
the moves of one step; `Client.Keeps`, the invariant of a whole step, adds that the open batch
is below its limits.
-/
import PolicyClient.Client
import PolicyClient.Proofs.Check.Policy
import PolicyClient.Proofs.Client.Custody
import PolicyClient.Proofs.Config.Validation

namespace PolicyClient

set_option autoImplicit false

/-- The estimated size of all items together. -/
def totalSize (items : List Item) : Nat := items.foldl (fun total i => total + i.request.estimatedSize) 0

/-- The batch is not empty and within the limits, but for a single request that is too large. -/
structure Batch.Within (config : Config) (b : Batch) : Prop where
  nonempty : b.items ≠ []
  count : b.items.length ≤ config.maxBatchSize
  size : totalSize b.items ≤ config.maxBatchBytes ∨ b.items.length = 1

/-- A configuration that can be worked with has room for a request. -/
theorem Config.limits_pos {config : Config} (valid : config.validate = .ok ()) :
    0 < config.maxBatchSize ∧ 0 < config.maxBatchBytes := by
  have workable := config.validate_eq_ok_iff.1 valid
  exact ⟨Nat.pos_of_ne_zero workable.maxBatchSize, Nat.pos_of_ne_zero workable.maxBatchBytes⟩

namespace Client

/-- The batches that have left, in order, while nobody sees them through. -/
def left (c : Client) : List Batch := c.dispatches.map fun d => ⟨d.id, d.items⟩

/-- The check waits under this batch. -/
def WaitsIn (c : Client) (t : Token) (b : BatchId) : Prop :=
  ∃ w, c.correlator.waiters.get? t = some w ∧ w.batch = b

/-- What a client has made of the requests that have entered. -/
structure Filled (config : Config) (c : Client) (entered : List Item) : Prop where
  settings : c.config = config
  items : c.left.flatMap Batch.items ++ c.openBatch.items = entered
  ids : (c.left.map Batch.id ++ [c.openBatch.id]).Pairwise fun a b => a.number < b.number
  latest : c.openBatch.id.number = c.ids.batches
  waits : ∀ b ∈ c.left ++ [c.openBatch.close], ∀ i ∈ b.items, c.WaitsIn i.token b.id
  within : ∀ b ∈ c.left, b.Within config
  counted : c.openBatch.bytes = totalSize c.openBatch.items

/-- Between steps the open batch is below its limits. -/
structure Keeps (config : Config) (c : Client) (entered : List Item) : Prop extends
    Filled config c entered where
  openCount : c.openBatch.items.length < config.maxBatchSize
  openBytes : c.openBatch.bytes < config.maxBatchBytes

variable {config : Config} {c c' : Client} {entered : List Item}

/-- The rest of a client does not matter. -/
theorem Filled.congr (h : Filled config c entered) (settings : c'.config = c.config)
    (ids : c'.ids.batches = c.ids.batches) (openBatch : c'.openBatch = c.openBatch)
    (dispatches : c'.dispatches = c.dispatches)
    (waiters : c'.correlator.waiters = c.correlator.waiters) : Filled config c' entered := by
  have left : c'.left = c.left := by rw [Client.left, dispatches, Client.left]
  refine ⟨settings.trans h.settings, ?_, ?_, ?_, ?_, ?_, ?_⟩
  · rw [left, openBatch]
    exact h.items
  · rw [left, openBatch]
    exact h.ids
  · rw [openBatch, ids]
    exact h.latest
  · rw [left, openBatch]
    intro b member i item
    rw [WaitsIn, waiters]
    exact h.waits b member i item
  · rw [left]
    exact h.within
  · rw [openBatch]
    exact h.counted

/-- The open batch leaves. -/
theorem Filled.departure (h : Filled config c entered) (within : c.openBatch.close.Within config) :
    Filled config c.departure.2 entered := by
  have left : c.departure.2.left = c.left ++ [c.openBatch.close] := by
    simp only [Client.left, Client.departure, OpenBatch.close, List.map_append, List.map_cons, List.map_nil]
  refine ⟨h.settings, ?_, ?_, rfl, ?_, ?_, rfl⟩
  · rw [left, List.flatMap_append, List.flatMap_singleton]
    exact (List.append_nil _).trans h.items
  · rw [left, List.map_append]
    refine List.pairwise_append.2 ⟨h.ids, List.pairwise_singleton .., fun a before b new => ?_⟩
    rw [List.mem_singleton.1 new]
    have newest : a.number ≤ c.openBatch.id.number := by
      rcases List.mem_append.1 before with earlier | last
      · exact Nat.le_of_lt ((List.pairwise_append.1 h.ids).2.2 a earlier _ (List.mem_singleton_self _))
      · exact Nat.le_of_eq (congrArg BatchId.number (List.mem_singleton.1 last))
    exact Nat.lt_succ_of_le (Nat.le_trans newest (Nat.le_of_eq h.latest))
  · intro b member i item
    rw [left] at member
    rcases List.mem_append.1 member with before | new
    · exact h.waits b before i item
    · rw [List.mem_singleton.1 new] at item
      cases item
  · intro b member
    rw [left] at member
    rcases List.mem_append.1 member with before | new
    · exact h.within b before
    · rw [List.mem_singleton.1 new]
      exact within

/-- A request enters the open batch, and waits under its id. -/
theorem Filled.add (h : Filled config c entered) (item : Item) (prefill : Prefill)
    (new : ∀ i ∈ entered, i.token ≠ item.token) :
    Filled config { c with
      correlator := (c.correlator.register item.token c.openBatch.id prefill).2
      openBatch := c.openBatch.add item item.request.estimatedSize } (entered ++ [item]) := by
  have waiters : ∀ t, (c.correlator.register item.token c.openBatch.id prefill).2.waiters.get? t =
      if t = item.token then some ⟨c.openBatch.id, c.correlator.mail.length, prefill⟩
      else c.correlator.waiters.get? t := fun t => Correlator.get?_register ..
  have stays : ∀ i ∈ entered, ∀ b, c.WaitsIn i.token b →
      ∃ w, (c.correlator.register item.token c.openBatch.id prefill).2.waiters.get? i.token = some w ∧
        w.batch = b := by
    rintro i before b ⟨w, found, batch⟩
    exact ⟨w, by rw [waiters, if_neg (new i before), found], batch⟩
  refine ⟨h.settings, ?_, h.ids, h.latest, ?_, h.within, ?_⟩
  · exact (List.append_assoc ..).symm.trans (congrArg (· ++ [item]) h.items)
  · intro b member i inside
    rcases List.mem_append.1 member with before | last
    · have known : i ∈ entered := h.items ▸
        List.mem_append_left _ (List.mem_flatMap.2 ⟨b, before, inside⟩)
      exact stays i known b.id (h.waits b (List.mem_append_left _ before) i inside)
    · rw [List.mem_singleton.1 last] at inside ⊢
      rcases List.mem_append.1 inside with before | this
      · have known : i ∈ entered := h.items ▸ List.mem_append_right _ before
        exact stays i known _ (h.waits c.openBatch.close (List.mem_append_right _ (List.mem_singleton_self _))
          i before)
      · rw [List.mem_singleton.1 this]
        exact ⟨_, by rw [waiters, if_pos rfl], rfl⟩
  · simp only [OpenBatch.add, totalSize, List.foldl_append, List.foldl_cons, List.foldl_nil, h.counted]

/-- The open batch leaves if it holds anything, and the next one is empty. -/
theorem Keeps.departure (h : Filled config c entered) (valid : config.validate = .ok ())
    (within : c.openBatch.close.Within config) : Keeps config c.departure.2 entered where
  toFilled := h.departure within
  openCount := (Config.limits_pos valid).1
  openBytes := (Config.limits_pos valid).2

/-- What waits for others is a batch within the limits, if it is not empty. -/
theorem Keeps.openWithin (h : Keeps config c entered) (nonempty : c.openBatch.items ≠ []) :
    c.openBatch.close.Within config :=
  ⟨nonempty, Nat.le_of_lt h.openCount, .inl (h.counted ▸ Nat.le_of_lt h.openBytes)⟩

theorem Keeps.flush (h : Keeps config c entered) (valid : config.validate = .ok ()) :
    Keeps config c.flush.2 entered := by
  unfold Client.flush
  split
  · exact h
  · rename_i some
    exact .departure h.toFilled valid (h.openWithin fun none => some (List.isEmpty_iff.2 none))

theorem Keeps.congr (h : Keeps config c entered) (settings : c'.config = c.config)
    (ids : c'.ids.batches = c.ids.batches) (openBatch : c'.openBatch = c.openBatch)
    (dispatches : c'.dispatches = c.dispatches)
    (waiters : c'.correlator.waiters = c.correlator.waiters) : Keeps config c' entered where
  toFilled := h.toFilled.congr settings ids openBatch dispatches waiters
  openCount := openBatch ▸ h.openCount
  openBytes := openBatch ▸ h.openBytes

theorem Keeps.onFlushTimer (h : Keeps config c entered) (valid : config.validate = .ok ()) (b : BatchId) :
    Keeps config (c.onFlushTimer b).2 entered := by
  have ran : Keeps config { c with timers := c.timers.filter fun t => t.batch ≠ b } entered :=
    h.congr rfl rfl rfl rfl rfl
  simp only [Client.onFlushTimer]
  split
  · exact ran.flush valid
  · exact ran

/-- **A request enters.**  A batch that it would make too large leaves before, and one that it
makes full leaves after. -/
theorem Keeps.enqueue (h : Keeps config c entered) (valid : config.validate = .ok ()) {t : Token}
    (request : Request) (prefill : Prefill) (new : ∀ i ∈ entered, i.token ≠ t) :
    Keeps config (c.enqueue t request prefill).2.2 (entered ++ [⟨t, request⟩]) := by
  obtain ⟨positive, -⟩ := Config.limits_pos valid
  obtain ⟨before, c₁, after, c₂, makes, entry, result⟩ := c.enqueue_cases t request prefill
  rw [result]
  -- What has not left before has room for the request, or is empty.
  obtain ⟨h₁, room⟩ : Keeps config c₁ entered ∧ (c₁.openBatch.items = [] ∨
      c₁.openBatch.bytes + request.estimatedSize ≤ config.maxBatchBytes) := by
    cases makes with
    | stays fits =>
      refine ⟨h, ?_⟩
      simp only [OpenBatch.overflows, Bool.and_eq_false_iff, Bool.not_eq_false', List.isEmpty_iff,
        decide_eq_false_iff_not, h.settings, Nat.not_lt] at fits
      exact fits
    | leaves overflows =>
      simp only [OpenBatch.overflows, Bool.and_eq_true, Bool.not_eq_true',
        List.isEmpty_eq_false_iff] at overflows
      exact ⟨.departure h.toFilled valid (h.openWithin overflows.1), .inl rfl⟩
  have added := h₁.toFilled.add ⟨t, request⟩ prefill new
  have within : (c₁.openBatch.add ⟨t, request⟩ request.estimatedSize).close.Within config := by
    refine ⟨List.append_ne_nil_of_right_ne_nil _ (List.cons_ne_nil _ _), ?_, ?_⟩
    · have count := h₁.openCount
      simp only [OpenBatch.add, OpenBatch.close, List.length_append, List.length_singleton]
      omega
    · rcases room with empty | fits
      · exact .inr (by simp [OpenBatch.add, OpenBatch.close, empty])
      · have counted := added.counted
        exact .inl (Nat.le_trans (Nat.le_of_eq counted.symm) fits)
  have kept : (c₁.joined t request prefill).isFull = false →
      Keeps config (c₁.joined t request prefill) (entered ++ [⟨t, request⟩]) := fun space => by
    have settings : (c₁.joined t request prefill).config = config := h₁.settings
    simp only [isFull, OpenBatch.isFull, settings, Bool.or_eq_false_iff, decide_eq_false_iff_not,
      Nat.not_le] at space
    exact ⟨added, space.1, space.2⟩
  cases entry with
  | fills => exact .departure added valid within
  | opens space => exact (kept space).congr rfl rfl rfl rfl rfl
  | joins space => exact kept space

/-! ## Submissions -/

/-- What a submission puts into the open batch: what is left to ask, if the check waits. -/
def entering (c : Client) (request : Request) : List Item :=
  match (c.submit request).1.state with
  | .waiting _ => [⟨(c.submit request).1.token, (c.prefill request).remaining request⟩]
  | _ => []

theorem tokens_flush (c : Client) : c.flush.2.ids.tokens = c.ids.tokens := by
  unfold flush
  split <;> rfl

theorem tokens_onFlushTimer (c : Client) (b : BatchId) : (c.onFlushTimer b).2.ids.tokens = c.ids.tokens := by
  simp only [onFlushTimer]
  split
  · exact tokens_flush _
  · rfl

theorem tokens_enqueue (c : Client) (t : Token) (request : Request) (prefill : Prefill) :
    (c.enqueue t request prefill).2.2.ids.tokens = c.ids.tokens := by
  obtain ⟨before, c₁, after, c₂, room, entry, result⟩ := c.enqueue_cases t request prefill
  rw [result]
  cases room <;> cases entry <;> rfl

end Client

/-! ## Interleavings -/

/-- A client with the tokens of the callers who have not entered yet. -/
structure Intake where
  client : Client
  drawn : List Token := []

namespace Intake

/-- What can happen next. -/
inductive Step
  /-- A caller takes a token. -/
  | draw
  /-- A caller with this token enters. -/
  | enter (token : Token) (request : Request) (prefill : Prefill)
  /-- A caller takes a token and enters at once, if it is not refused or answered. -/
  | submit (request : Request)
  | flush
  /-- The flush timer of a batch goes off. -/
  | timer (b : BatchId)

/-- One step.  Only a token that has been taken enters, and only once. -/
def step (s : Intake) : Step → Intake
  | .draw =>
    let (token, ids) := s.client.ids.nextToken
    { client := { s.client with ids }, drawn := s.drawn ++ [token] }
  | .enter token request prefill =>
    if token ∈ s.drawn then
      { client := (s.client.enqueue token request prefill).2.2, drawn := s.drawn.erase token }
    else s
  | .submit request => { s with client := (s.client.submit request).2.2 }
  | .flush => { s with client := s.client.flush.2 }
  | .timer b => { s with client := (s.client.onFlushTimer b).2 }

/-- The request that enters in a step, if one does. -/
def entering (s : Intake) : Step → List Item
  | .enter token request _ => if token ∈ s.drawn then [⟨token, request⟩] else []
  | .submit request => s.client.entering request
  | _ => []

def after (s : Intake) (steps : List Step) : Intake := steps.foldl step s

/-- The requests that enter, in order. -/
def entered (s : Intake) : List Step → List Item
  | [] => []
  | e :: rest => s.entering e ++ (s.step e).entered rest

/-- The invariant: the client keeps what has entered, and no token is taken twice. -/
structure Sound (config : Config) (s : Intake) (entered : List Item) : Prop where
  keeps : s.client.Keeps config entered
  distinct : (entered.map Item.token ++ s.drawn).Nodup
  issued : ∀ t ∈ entered.map Item.token ++ s.drawn, t.number ≤ s.client.ids.tokens

variable {config : Config} {s : Intake} {entered : List Item}

/-- The token that comes next has not been taken. -/
theorem Sound.unused (h : s.Sound config entered) :
    s.client.ids.nextToken.1 ∉ entered.map Item.token ++ s.drawn := fun taken =>
  absurd (h.issued _ taken) (Nat.not_succ_le_self _)

/-- The tokens in use stay, though some of them may come to have entered. -/
theorem Sound.moved (h : s.Sound config entered) {u : Intake} {entered' : List Item}
    (keeps : u.client.Keeps config entered') (tokens : s.client.ids.tokens ≤ u.client.ids.tokens)
    (same : (entered'.map Item.token ++ u.drawn).Perm (entered.map Item.token ++ s.drawn)) :
    u.Sound config entered' where
  keeps := keeps
  distinct := same.nodup_iff.2 h.distinct
  issued t member := Nat.le_trans (h.issued t (same.mem_iff.1 member)) tokens

/-- A new token comes into use. -/
theorem Sound.taken (h : s.Sound config entered) {u : Intake} {entered' : List Item}
    (keeps : u.client.Keeps config entered') (tokens : u.client.ids.tokens = s.client.ids.tokens + 1)
    (more : (entered'.map Item.token ++ u.drawn).Perm
      (s.client.ids.nextToken.1 :: (entered.map Item.token ++ s.drawn))) : u.Sound config entered' where
  keeps := keeps
  distinct := more.nodup_iff.2 (List.nodup_cons.2 ⟨h.unused, h.distinct⟩)
  issued t member := by
    rw [tokens]
    rcases List.mem_cons.1 (more.mem_iff.1 member) with rfl | before
    · exact Nat.le_refl _
    · exact Nat.le_succ_of_le (h.issued t before)

/-- **Whatever the step, the client keeps what has entered.** -/
theorem Sound.step (h : s.Sound config entered) (valid : config.validate = .ok ()) (e : Step) :
    (s.step e).Sound config (entered ++ s.entering e) := by
  cases e with
  | draw =>
    simp only [entering, List.append_nil]
    refine h.taken (u := s.step .draw) ?_ rfl ?_
    · exact h.keeps.congr rfl rfl rfl rfl rfl
    · exact (List.append_assoc ..).symm ▸ List.perm_append_singleton ..
  | enter t request prefill =>
    by_cases mine : t ∈ s.drawn
    · have new : ∀ i ∈ entered, i.token ≠ t := fun i member same =>
        (List.nodup_append.1 h.distinct).2.2 i.token (List.mem_map_of_mem member) t mine same
      simp only [Intake.step, entering, mine, if_true]
      refine h.moved (h.keeps.enqueue valid request prefill new) (Nat.le_of_eq (Client.tokens_enqueue ..).symm) ?_
      rw [List.map_append, List.append_assoc]
      exact (List.perm_cons_erase mine).symm.append_left _
    · simpa only [Intake.step, entering, mine, if_false, List.append_nil] using h
  | submit request =>
    have consulted : (s.client.consulted request).Keeps config entered := h.keeps.congr rfl rfl rfl rfl rfl
    cases s.client.submission request with
    | refused reason closed result =>
      have none : s.client.entering request = [] := by rw [Client.entering, result]
      simp only [Intake.step, entering, none, result, List.append_nil]
      exact h.moved (h.keeps.congr rfl rfl rfl rfl rfl) (Nat.le_succ _) (.refl _)
    | decided running store cache all result =>
      have none : s.client.entering request = [] := by rw [Client.entering, result]
      simp only [Intake.step, entering, none, result, List.append_nil]
      exact h.moved (consulted.congr rfl rfl rfl rfl rfl) (Nat.le_succ _) (.refl _)
    | enters running result =>
      have item : s.client.entering request =
          [⟨s.client.ids.nextToken.1, (s.client.prefill request).remaining request⟩] := by
        rw [Client.entering, result]
      have new : ∀ i ∈ entered, i.token ≠ s.client.ids.nextToken.1 := fun i member same =>
        h.unused (List.mem_append_left _ (same ▸ List.mem_map_of_mem member))
      simp only [Intake.step, entering, item, result]
      refine h.taken (consulted.enqueue valid _ _ new) (Client.tokens_enqueue ..) ?_
      rw [List.map_append, List.append_assoc]
      exact List.perm_middle
  | flush =>
    simp only [Intake.step, entering, List.append_nil]
    exact h.moved (h.keeps.flush valid) (Nat.le_of_eq s.client.tokens_flush.symm) (.refl _)
  | timer b =>
    simp only [Intake.step, entering, List.append_nil]
    exact h.moved (h.keeps.onFlushTimer valid b) (Nat.le_of_eq (s.client.tokens_onFlushTimer b).symm) (.refl _)

theorem Sound.after (h : s.Sound config entered) (valid : config.validate = .ok ()) (steps : List Step) :
    (s.after steps).Sound config (entered ++ s.entered steps) := by
  induction steps generalizing s entered with
  | nil => exact (List.append_nil entered).symm ▸ h
  | cons e rest ih =>
    have later := ih (h.step valid e)
    rwa [List.append_assoc] at later

theorem create_sound {horizon : Instant} {c : Client} (created : Client.create config horizon = .ok c) :
    config.validate = .ok () ∧ Sound config { client := c } [] := by
  unfold Client.create at created
  cases valid : config.validate with
  | error e =>
    rw [valid] at created
    cases created
  | ok u =>
    rw [valid] at created
    cases created
    obtain ⟨count, bytes⟩ := Config.limits_pos valid
    refine ⟨rfl, ⟨⟨⟨rfl, rfl, List.pairwise_singleton .., rfl, ?_, nofun, rfl⟩, count, bytes⟩, .nil, nofun⟩⟩
    intro b member i item
    rw [List.mem_singleton.1 member] at item
    cases item

/-- **Batching loses nothing and keeps its limits**: however callers, flushes and timers come after
each other, the batches that have left and the open one hold what has entered, in order and once
each, under tokens of their own; and `Client.Keeps` of every batch. -/
theorem keeps_after {horizon : Instant} {c : Client} (created : Client.create config horizon = .ok c) (steps : List Step) :
    Client.Keeps config (after { client := c } steps).client (Intake.entered { client := c } steps) ∧
      ((Intake.entered { client := c } steps).map Item.token).Nodup := by
  obtain ⟨valid, sound⟩ := create_sound created
  have reached := sound.after valid steps
  rw [List.nil_append] at reached
  exact ⟨reached.keeps, (List.nodup_append.1 reached.distinct).1⟩

/-- May alice open a document? -/
def aliceOpens : Request where
  principal := ⟨"alice", .ofList [("employee", ())], .empty, none, none⟩
  resource := ⟨"document", "1", .empty, none, none⟩
  actions := [⟨"open", by decide⟩]
  auxData := none

/-- The second caller enters before the first, a third fills no batch, and a timer comes in. -/
def overtaking : List Step :=
  [.draw, .draw, .enter ⟨2⟩ aliceOpens {}, .enter ⟨1⟩ aliceOpens {}, .submit aliceOpens, .timer ⟨2⟩]

/-- The order of entering is that of the batches, and each token is in one of them. -/
theorem overtaking_kept :
    ∃ c, Client.create { maxBatchSize := 2 } .horizon = .ok c ∧
      (after { client := c } overtaking).client.left.map (fun b => (b.id, b.tokens)) =
        [(⟨1⟩, [⟨2⟩, ⟨1⟩]), (⟨2⟩, [⟨3⟩])] ∧
      (Intake.entered { client := c } overtaking).map Item.token = [⟨2⟩, ⟨1⟩, ⟨3⟩] ∧
      Client.Keeps { maxBatchSize := 2 } (after { client := c } overtaking).client
        (Intake.entered { client := c } overtaking) := by
  have created : Client.create { maxBatchSize := 2 } .horizon =
      .ok { config := { maxBatchSize := 2 }, horizon := .horizon, ids := { batches := 1 }, openBatch := { id := ⟨1⟩ } } := by rfl
  exact ⟨_, created, by decide +kernel, by decide +kernel, (keeps_after created overtaking).1⟩

end Intake

end PolicyClient
