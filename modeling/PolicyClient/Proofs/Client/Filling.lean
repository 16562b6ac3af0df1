/-
# PolicyClient.Proofs.Client.Filling -- the open batch and its flush timer

Of what a client holds, only the open batch has a flush timer that matters (`Client.ownTimers`).
`Client.Refills` lists what can become of the two in one step: they stay as they are, the timer
begins its sleep, the batch leaves, a request joins those that are in it, or a request opens it.
The timer comes into being with the request that opens the batch and is left alone by those that
join.

One lemma for each function that fills or sends off batches says so (`flush_refills`,
`startTimer_refills`, `onFlushTimer_refills`, `submit_refills`, `close_refills`); seeing batches
through touches neither (`Client.SeesThrough`).  What carries it is `Client.Timed`: no timer runs for a batch that is still
to come, or for one that is empty.
-/
import PolicyClient.Proofs.Client.Frame

namespace PolicyClient

set_option autoImplicit false

namespace Client

/-- The open batch, and all flush timers. -/
def filling (c : Client) : OpenBatch × List FlushTimer := (c.openBatch, c.timers)

/-- The flush timers of the open batch. -/
def ownTimers (c : Client) : List FlushTimer := c.timers.filter fun t => t.batch = c.openBatch.id

/-- There are timers for the open batch, if it is not empty, and for batches before it. -/
structure Timed (c : Client) : Prop where
  known : ∀ t ∈ c.timers, t.batch.number ≤ c.openBatch.id.number
  idle : c.openBatch.items = [] → c.ownTimers = []

/-- When the sleep of a timer ends, if it has begun or begins now. -/
def dueTime (c : Client) (t : FlushTimer) : Instant := t.due.getD (c.now + c.config.flushInterval)

/-- What becomes of the open batch and its timer, if requests may enter under these tokens and its
timer may run. -/
inductive Refills (c : Client) (enters : Token → Prop) (runs : Prop) (c' : Client) : Prop
  | stays (openBatch : c'.openBatch = c.openBatch) (timers : c'.ownTimers = c.ownTimers)
  /-- The timer of the open batch runs for the first time, or once more for nothing. -/
  | begins (runs : runs) (openBatch : c'.openBatch = c.openBatch)
    (timers : c'.ownTimers = c.ownTimers.map fun t => { t with due := some (c.dueTime t) })
  /-- The open batch leaves, and the next one is empty. -/
  | leaves (items : c'.openBatch.items = []) (timers : c'.ownTimers = [])
  /-- A request comes to others in the open batch. -/
  | joins (item : Item) (enters : enters item.token) (others : c.openBatch.items ≠ [])
      (id : c'.openBatch.id = c.openBatch.id) (items : c'.openBatch.items = c.openBatch.items ++ [item])
      (timers : c'.ownTimers = c.ownTimers)
  /-- A request is the first in the open batch. -/
  | opens (item : Item) (enters : enters item.token) (items : c'.openBatch.items = [item])
      (timers : c'.ownTimers = [{ batch := c'.openBatch.id }])

variable {c c' : Client} {enters : Token → Prop} {runs : Prop}

theorem mem_timers_of_own {t : FlushTimer} (member : t ∈ c.ownTimers) :
    t ∈ c.timers ∧ t.batch = c.openBatch.id :=
  ⟨(List.mem_filter.1 member).1, of_decide_eq_true (List.mem_filter.1 member).2⟩

/-- Only the open batch and the timers matter. -/
theorem Timed.congr (h : c.Timed) (same : c'.filling = c.filling) : c'.Timed := by
  obtain ⟨openBatch, timers⟩ := Prod.mk.inj same
  refine ⟨?_, ?_⟩
  · rw [timers, openBatch]
    exact h.known
  · rw [ownTimers, timers, openBatch]
    exact h.idle

theorem Refills.of_filling (same : c'.filling = c.filling) : Refills c enters runs c' := by
  obtain ⟨openBatch, timers⟩ := Prod.mk.inj same
  exact .stays openBatch (by rw [ownTimers, ownTimers, timers, openBatch])

/-! ## Sending off -/

/-- No timer runs for a batch that is still to come. -/
theorem ownTimers_departure (known : ∀ t ∈ c.timers, t.batch.number ≤ c.openBatch.id.number)
    (latest : c.openBatch.id.number = c.ids.batches) : c.departure.2.ownTimers = [] := by
  refine List.filter_eq_nil_iff.2 fun t member same => ?_
  have id : t.batch = ⟨c.ids.batches + 1⟩ := of_decide_eq_true same
  have le := known t member
  rw [id, latest] at le
  exact Nat.not_succ_le_self _ le

theorem departure_timed (known : ∀ t ∈ c.timers, t.batch.number ≤ c.openBatch.id.number)
    (latest : c.openBatch.id.number = c.ids.batches) : c.departure.2.Timed where
  known t member := Nat.le_succ_of_le (latest ▸ known t member)
  idle _ := ownTimers_departure known latest

theorem departure_refills (h : c.Timed) (latest : c.openBatch.id.number = c.ids.batches) :
    c.departure.2.Timed ∧ Refills c enters runs c.departure.2 :=
  ⟨departure_timed h.known latest, .leaves rfl (ownTimers_departure h.known latest)⟩

theorem flush_refills (h : c.Timed) (latest : c.openBatch.id.number = c.ids.batches) :
    c.flush.2.Timed ∧ Refills c enters runs c.flush.2 := by
  unfold flush
  split
  · exact ⟨h, .stays rfl rfl⟩
  · exact departure_refills h latest

/-- The timer of another batch goes off. -/
theorem onFlushTimer_of_ne {b : BatchId} (other : c.openBatch.id ≠ b) :
    c.onFlushTimer b = ([], { c with timers := c.timers.filter fun t => t.batch ≠ b }) := if_neg other

/-- The timer of a batch that is not empty goes off. -/
theorem onFlushTimer_self (some : c.openBatch.items ≠ []) :
    c.onFlushTimer c.openBatch.id =
      departure { c with timers := c.timers.filter fun t => t.batch ≠ c.openBatch.id } := by
  simp only [onFlushTimer, if_true, flush]
  exact if_neg fun none => some (List.isEmpty_iff.1 none)

/-- When the timer of another batch goes off, that of the open batch runs on. -/
theorem ownTimers_of_ne {b : BatchId} (other : c.openBatch.id ≠ b) :
    ownTimers { c with timers := c.timers.filter fun t => t.batch ≠ b } = c.ownTimers := by
  rw [ownTimers, ownTimers, List.filter_filter]
  refine List.filter_congr fun t _ => ?_
  by_cases own : t.batch = c.openBatch.id
  · simp [own, other]
  · simp [own]

theorem onFlushTimer_refills (h : c.Timed) (latest : c.openBatch.id.number = c.ids.batches) (b : BatchId) :
    (c.onFlushTimer b).2.Timed ∧ Refills c enters runs (c.onFlushTimer b).2 := by
  have known : ∀ t ∈ c.timers.filter (fun t => t.batch ≠ b), t.batch.number ≤ c.openBatch.id.number :=
    fun t member => h.known t (List.mem_filter.1 member).1
  by_cases own : c.openBatch.id = b
  · subst own
    by_cases none : c.openBatch.items = []
    · have silent : ownTimers { c with timers := c.timers.filter fun t => t.batch ≠ c.openBatch.id } = [] := by
        refine List.filter_eq_nil_iff.2 fun t member same => ?_
        exact of_decide_eq_true (List.mem_filter.1 member).2 (of_decide_eq_true same)
      have same : (c.onFlushTimer c.openBatch.id).2 =
          { c with timers := c.timers.filter fun t => t.batch ≠ c.openBatch.id } := by
        simp [onFlushTimer, flush, none]
      rw [same]
      exact ⟨⟨known, fun _ => silent⟩, .leaves none silent⟩
    · rw [onFlushTimer_self none]
      exact ⟨departure_timed known latest, .leaves rfl (ownTimers_departure (c := { c with
        timers := c.timers.filter fun t => t.batch ≠ c.openBatch.id }) known latest)⟩
  · rw [onFlushTimer_of_ne own]
    have same := ownTimers_of_ne own
    exact ⟨⟨known, fun none => same.trans (h.idle none)⟩, .stays rfl same⟩

/-! ## Sleeping -/

/-- The first run of the timer of another batch is nothing to that of the open one. -/
theorem ownTimers_startTimer (c : Client) (b : BatchId) :
    (c.startTimer b).ownTimers =
      if c.openBatch.id = b then c.ownTimers.map fun t => { t with due := some (c.dueTime t) }
      else c.ownTimers := by
  let run (t : FlushTimer) : FlushTimer :=
    if t.batch = b then t.begin (c.now + c.config.flushInterval) else t
  have batch (t : FlushTimer) : (run t).batch = t.batch := by
    dsimp only [run]
    split <;> rfl
  have own : (c.startTimer b).ownTimers = c.ownTimers.map run := by
    show (c.timers.map run).filter (fun t => t.batch = c.openBatch.id) = _
    rw [List.filter_map]
    simp only [Function.comp_def, batch]
    rfl
  rw [own]
  split
  · rename_i same
    refine List.map_congr_left fun t member => if_pos ?_
    rw [(mem_timers_of_own member).2, same]
  · rename_i other
    refine (List.map_congr_left fun t member => if_neg ?_).trans (List.map_id _)
    rw [(mem_timers_of_own member).2]
    exact other

theorem startTimer_refills (h : c.Timed) (b : BatchId) :
    (c.startTimer b).Timed ∧ Refills c enters (c.openBatch.id = b) (c.startTimer b) := by
  have own := c.ownTimers_startTimer b
  refine ⟨⟨fun t member => ?_, fun none => ?_⟩, ?_⟩
  · obtain ⟨t, before, rfl⟩ := List.mem_map.1 member
    split <;> exact h.known t before
  · rw [own, h.idle none, List.map_nil, ite_self]
  · split at own
    · rename_i same
      exact .begins same rfl own
    · exact .stays rfl own

/-! ## Filling -/

/-- What a step starts from matters by its open batch, its timers, its clock and its settings. -/
theorem Refills.congr {c₁ : Client} (h : Refills c₁ enters runs c') (same : c₁.filling = c.filling)
    (now : c₁.now = c.now) (config : c₁.config = c.config) : Refills c enters runs c' := by
  obtain ⟨openBatch, timers⟩ := Prod.mk.inj same
  have own : c₁.ownTimers = c.ownTimers := by rw [ownTimers, ownTimers, timers, openBatch]
  cases h with
  | stays openBatch' timers' => exact .stays (openBatch'.trans openBatch) (timers'.trans own)
  | begins runs openBatch' timers' =>
    refine .begins runs (openBatch'.trans openBatch) ?_
    rw [timers', own]
    simp only [dueTime, now, config]
  | leaves items timers' => exact .leaves items timers'
  | joins item enters others id items timers' =>
    rw [openBatch] at others id items
    exact .joins item enters others id items (timers'.trans own)
  | opens item enters items timers' => exact .opens item enters items timers'

/-- **A request enters.**  The timer of its batch comes into being if it is the first there, unless
the batch is full with it and leaves at once. -/
theorem enqueue_refills (h : c.Timed) (latest : c.openBatch.id.number = c.ids.batches) (t : Token)
    (request : Request) (prefill : Prefill) :
    (c.enqueue t request prefill).2.2.Timed ∧ Refills c (· = t) runs (c.enqueue t request prefill).2.2 := by
  obtain ⟨before, c₁, after, c₂, room, entry, result⟩ := c.enqueue_cases t request prefill
  rw [result]
  obtain ⟨timed, latest₁, now, config, same⟩ : c₁.Timed ∧ c₁.openBatch.id.number = c₁.ids.batches ∧
      c₁.now = c.now ∧ c₁.config = c.config ∧ (c₁.openBatch.items = [] ∨ c₁.filling = c.filling) := by
    cases room with
    | stays => exact ⟨h, latest, rfl, rfl, .inr rfl⟩
    | leaves => exact ⟨departure_timed h.known latest, rfl, rfl, rfl, .inl rfl⟩
  have some : (c₁.joined t request prefill).openBatch.items ≠ [] :=
    List.append_ne_nil_of_right_ne_nil _ (List.cons_ne_nil _ _)
  cases entry with
  | fills =>
    exact ⟨departure_timed (c := c₁.joined t request prefill) timed.known latest₁,
      .leaves rfl (ownTimers_departure (c := c₁.joined t request prefill) timed.known latest₁)⟩
  | opens space first =>
    have items : (c₁.joined t request prefill).openBatch.items = [⟨t, request⟩] := by
      simp only [joined, OpenBatch.add, first, List.nil_append]
    refine ⟨⟨fun entry member => ?_, fun none => absurd none some⟩, .opens ⟨t, request⟩ rfl items ?_⟩
    · rcases List.mem_append.1 member with before | new
      · exact timed.known entry before
      · cases List.mem_singleton.1 new
        exact Nat.le_refl _
    · have silent : c₁.ownTimers = [] := timed.idle first
      show (c₁.timers ++ [(⟨c₁.openBatch.id, none⟩ : FlushTimer)]).filter (fun t => t.batch = c₁.openBatch.id) =
        [{ batch := c₁.openBatch.id }]
      rw [List.filter_append, show c₁.timers.filter _ = [] from silent]
      simp
  | joins space others =>
    refine ⟨⟨timed.known, fun none => absurd none some⟩, ?_⟩
    have joins : Refills c₁ (· = t) runs (c₁.joined t request prefill) :=
      .joins ⟨t, request⟩ rfl others rfl rfl rfl
    exact joins.congr (same.resolve_left others) now config

/-- **A request is taken in.**  It enters under the next token, unless it is refused or answered. -/
theorem submit_refills (h : c.Timed) (latest : c.openBatch.id.number = c.ids.batches) (request : Request) :
    (c.submit request).2.2.Timed ∧ Refills c (· = (c.submit request).1.token) runs (c.submit request).2.2 := by
  cases c.submission request with
  | refused reason closed result =>
    rw [result]
    exact ⟨h.congr rfl, .of_filling rfl⟩
  | decided running store cache all result =>
    rw [result]
    exact ⟨h.congr rfl, .of_filling rfl⟩
  | enters running result =>
    rw [result]
    obtain ⟨timed, refills⟩ := enqueue_refills (c := c.consulted request) (h.congr rfl) latest
      c.ids.nextToken.1 ((c.prefill request).remaining request) (c.prefill request)
    exact ⟨timed, refills.congr rfl rfl rfl⟩

theorem close_refills (h : c.Timed) (latest : c.openBatch.id.number = c.ids.batches) :
    c.close.2.Timed ∧ Refills c enters runs c.close.2 := by
  simp only [close]
  generalize shut : c.closeWith "closed by caller" (.sessionClosed "closed by caller") = c₁
  obtain ⟨config, -, now, ids, openBatch, timers⟩ : c.SeesThrough c₁ := shut ▸ c.closeWith_seesThrough _ _
  have same : c₁.filling = c.filling := Prod.ext openBatch timers
  have latest₁ : c₁.openBatch.id.number = c₁.ids.batches := by
    rw [openBatch, ids]
    exact latest
  obtain ⟨timed, refills⟩ := flush_refills (h.congr same) latest₁
  exact ⟨timed, refills.congr same now config⟩

end Client

end PolicyClient
