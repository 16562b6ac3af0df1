/-
# PolicyClient.Proofs.Correlator.Index -- the index of batches mirrors the calls that wait

A correlator keeps two tables: who waits, and under which batch.  `Operation` lists what can be
done to it by token and batch alone, and `Operation.track` says what each operation does to the
calls that live, each with its batch: one is added, one struck off, those of one batch struck
off, or all.  `Correlator.Mirrors` is the invariant: both tables hold exactly these calls, and
no batch is listed without tokens.

Main statement: `Correlator.index_mirrors_live`, over every history that registers no token
twice.  So failing a batch takes out its own calls, counts them and leaves every other entry of
both tables alone; failing everything counts the calls that live; and when none lives any more
both tables are empty, however the calls have ended.
-/
import PolicyClient.Proofs.Correlator.Failing

namespace PolicyClient

set_option autoImplicit false

namespace Correlator

/-! ## Operations -/

/-- What can be done to a correlator by token or by batch. -/
inductive Operation
  | register (t : Token) (b : BatchId) (prefill : Prefill)
  | resolve (t : Token) (answer : Answer)
  | fail (t : Token) (error : Error)
  | failBatch (b : BatchId) (error : Error)
  | failAll (error : Error)
  | cancel (t : Token)

namespace Operation

/-- The token that an operation registers. -/
def registered? : Operation → Option Token
  | register t _ _ => some t
  | _ => none

/-- The calls that live after an operation, each with its batch. -/
def track (live : List (Token × BatchId)) : Operation → List (Token × BatchId)
  | register t b _ => live ++ [(t, b)]
  | resolve t _ | fail t _ | cancel t => live.filter fun call => call.1 ≠ t
  | failBatch b _ => live.filter fun call => call.2 ≠ b
  | failAll _ => []

end Operation

/-- The tokens that a history registers. -/
def registered (history : List Operation) : List Token := history.filterMap Operation.registered?

/-- The calls that a history leaves alive, each with its batch. -/
def liveAfter (history : List Operation) : List (Token × BatchId) := history.foldl Operation.track []

def perform (k : Correlator) : Operation → Correlator
  | .register t b prefill => (k.register t b prefill).2
  | .resolve t answer => (k.resolve t answer).2
  | .fail t error => (k.fail t error).2
  | .failBatch b error => (k.failBatch b error).2
  | .failAll error => (k.failAll error).2
  | .cancel t => (k.cancel t).2

/-- The correlator after a history of operations. -/
def performAll (k : Correlator) (history : List Operation) : Correlator := history.foldl perform k

theorem performAll_snoc (k : Correlator) (history : List Operation) (op : Operation) :
    k.performAll (history ++ [op]) = (k.performAll history).perform op := by
  simp [performAll, List.foldl_append]

theorem liveAfter_snoc (history : List Operation) (op : Operation) :
    liveAfter (history ++ [op]) = op.track (liveAfter history) := by
  simp [liveAfter, List.foldl_append]

/-- Only a registration brings a call to life. -/
theorem track_tokens_sublist (live : List (Token × BatchId)) (op : Operation) :
    ((op.track live).map (·.1)).Sublist (live.map (·.1) ++ op.registered?.toList) := by
  cases op with
  | register t b prefill =>
    rw [Operation.track, List.map_append]
    exact .refl _
  | failAll error => exact List.nil_sublist _
  | _ => exact (List.filter_sublist.map _).trans (List.sublist_append_left ..)

theorem liveAfter_tokens_sublist (history : List Operation) :
    ((liveAfter history).map (·.1)).Sublist (registered history) := by
  induction history using List.reverseRecOn with
  | nil => exact .slnil
  | append_singleton before op ih =>
    have added : registered (before ++ [op]) = registered before ++ op.registered?.toList := by
      cases kind : op.registered? <;> simp [registered, kind]
    rw [liveAfter_snoc, added]
    exact (track_tokens_sublist _ op).trans (ih.append (.refl _))

/-! ## The invariant -/

/-- Both tables hold exactly the calls of `live`, and no batch is listed without tokens. -/
structure Mirrors (k : Correlator) (live : List (Token × BatchId)) : Prop where
  waiting : ∀ t b, (∃ w, k.waiters.get? t = some w ∧ w.batch = b) ↔ (t, b) ∈ live
  listing : ∀ t b, t ∈ k.listed b ↔ (t, b) ∈ live
  nonempty : ∀ b, k.batches.get? b ≠ some []

theorem Coherent.mirrors {k : Correlator} (h : k.Coherent) {live : List (Token × BatchId)}
    (waiting : ∀ t b, (∃ w, k.waiters.get? t = some w ∧ w.batch = b) ↔ (t, b) ∈ live) :
    k.Mirrors live :=
  ⟨waiting, fun t b => (h.mem_listed_iff b t).trans (waiting t b), h.nonempty⟩

namespace Mirrors

variable {k : Correlator} {live : List (Token × BatchId)}

theorem absent_iff (h : k.Mirrors live) (t : Token) :
    k.waiters.get? t = none ↔ t ∉ live.map (·.1) := by
  cases found : k.waiters.get? t with
  | none =>
    refine ⟨fun _ member => ?_, fun _ => rfl⟩
    obtain ⟨⟨_, b⟩, lives, rfl⟩ := List.mem_map.1 member
    obtain ⟨w, waits, -⟩ := (h.waiting _ b).2 lives
    rw [found] at waits
    cases waits
  | some w =>
    have member := (h.waiting t w.batch).1 ⟨w, found, rfl⟩
    exact ⟨nofun, fun absent => absurd (List.mem_map_of_mem member) absent⟩

/-- Calls are struck off the list as they settle. -/
theorem settles (h : k.Mirrors live) {fate : Token → Waiter → Option Mail} {k' : Correlator}
    (settles : k.Settles fate k') (struck : Token × BatchId → Bool)
    (same : ∀ t w, k.waiters.get? t = some w → (fate t w = none ↔ struck (t, w.batch) = false)) :
    k'.Mirrors (live.filter fun call => !struck call) := by
  refine settles.coherent.mirrors fun t b => ?_
  rw [List.mem_filter, ← h.waiting, Bool.not_eq_true']
  constructor
  · rintro ⟨w, found, rfl⟩
    obtain ⟨before, stays⟩ := (settles.waits_iff t w).1 found
    exact ⟨⟨w, before, rfl⟩, (same t w before).1 stays⟩
  · rintro ⟨⟨w, found, rfl⟩, kept⟩
    exact ⟨w, (settles.waits_iff t w).2 ⟨found, (same t w found).2 kept⟩, rfl⟩

/-- An operation on one token strikes off that token. -/
theorem settles_only (h : k.Mirrors live) {t : Token} {left : Waiter → Mail} {k' : Correlator}
    (settles : k.Settles (only t left) k') : k'.Mirrors (live.filter fun call => call.1 ≠ t) := by
  have struck := h.settles settles (fun call => decide (call.1 = t)) fun t' w _ => by
    by_cases eq : t' = t <;> simp [only, eq]
  simpa only [decide_not] using struck

end Mirrors

/-- **One operation** does to both tables what it does to the calls that live. -/
theorem perform_mirrors {k : Correlator} (coherent : k.Coherent) {live : List (Token × BatchId)}
    (h : k.Mirrors live) {op : Operation}
    (admits : ∀ t, op.registered? = some t → k.waiters.get? t = none) :
    (k.perform op).Coherent ∧ (k.perform op).Mirrors (op.track live) := by
  cases op with
  | register t b prefill =>
    have registers := register_registers coherent (admits t rfl) b prefill
    refine ⟨registers.coherent, registers.coherent.mirrors fun t' b' => ?_⟩
    simp only [registers.waiting, Operation.track, List.mem_append, List.mem_singleton,
      Prod.mk.injEq, ← h.waiting t' b']
    by_cases same : t' = t
    · subst same
      simp [admits t' rfl, eq_comm]
    · simp [same]
  | resolve t answer =>
    have settles := resolve_settles coherent t answer
    exact ⟨settles.coherent, h.settles_only settles⟩
  | fail t error =>
    have settles := fail_settles coherent t error
    exact ⟨settles.coherent, h.settles_only settles⟩
  | failBatch b error =>
    have settles := failBatch_settles coherent b error
    have struck := h.settles settles (fun call => decide (call.2 = b)) fun t w _ => by
      by_cases eq : w.batch = b <;> simp [eq]
    simp only [← decide_not] at struck
    exact ⟨settles.coherent, struck⟩
  | failAll error =>
    have settles := failAll_settles coherent error
    refine ⟨settles.coherent, settles.coherent.mirrors fun t b => ⟨?_, nofun⟩⟩
    rintro ⟨w, found, -⟩
    cases ((settles.waits_iff t w).1 found).2
  | cancel t =>
    have settles := cancel_settles coherent t
    exact ⟨settles.coherent, h.settles_only settles⟩

/-- **Every history** that registers no token twice keeps the tables in step. -/
theorem performAll_mirrors (cache : Option (DecisionStore Fingerprint)) {history : List Operation}
    (nodup : (registered history).Nodup) :
    (performAll { cache } history).Coherent ∧
      (performAll { cache } history).Mirrors (liveAfter history) := by
  induction history using List.reverseRecOn with
  | nil =>
    have coherent : Coherent { cache } := coherent_of_empty rfl rfl
    exact ⟨coherent, coherent.mirrors fun t b => by simp [liveAfter]⟩
  | append_singleton before op ih =>
    rw [registered, List.filterMap_append, List.nodup_append] at nodup
    obtain ⟨earlier, -, apart⟩ := nodup
    obtain ⟨coherent, mirrors⟩ := ih earlier
    rw [performAll_snoc, liveAfter_snoc]
    -- A call that waited under the new token would have had to be registered before.
    refine perform_mirrors coherent mirrors fun t registers => (mirrors.absent_iff t).2 fun member => ?_
    exact apart t ((liveAfter_tokens_sublist before).mem member) t (by simp [registers]) rfl

/-! ## What the index is good for -/

/-- Failing a batch leaves what is filed under any other batch alone. -/
theorem failBatch_batches {k : Correlator} (h : k.Coherent) (b : BatchId) (e : Error) :
    (k.failBatch b e).2.batches = k.batches.erase b :=
  (failTokens_spec (k := { k with batches := k.batches.erase b })
    ⟨h.slot_lt, h.slot_inj, h.awaited⟩ (k.listed b) e).batches

theorem failBatch_waiters {k : Correlator} (h : k.Coherent) (b : BatchId) (e : Error) (t : Token) :
    (k.failBatch b e).2.waiters.get? t = (k.waiters.get? t).filter fun w => w.batch ≠ b := by
  rw [(failBatch_settles h b e).waiting]
  congr 1
  funext w
  by_cases batch : w.batch = b <;> simp [batch]

theorem failAll_batches {k : Correlator} (h : k.Coherent) (e : Error) :
    (k.failAll e).2.batches = .empty :=
  (failTokens_spec (k := { k with batches := .empty })
    ⟨h.slot_lt, h.slot_inj, h.awaited⟩ k.waiters.keys e).batches

/-- With nobody waiting the index lists nobody, and so it lists no batch. -/
theorem Coherent.batches_of_idle {k : Correlator} (h : k.Coherent)
    (idle : ∀ t, k.waiters.get? t = none) : k.batches = .empty := by
  refine Table.ext_get? fun b => ?_
  cases filed : k.batches.get? b with
  | none => rfl
  | some tokens =>
    cases tokens with
    | nil => exact absurd filed (h.nonempty b)
    | cons t rest =>
      have member : t ∈ k.listed b := by simp [listed, filed]
      obtain ⟨w, found, -⟩ := (h.mem_listed_iff b t).1 member
      rw [idle] at found
      cases found

/-- Both tables hold exactly the calls of `live`, and what is done to a batch or to all of them
reaches exactly the calls it should. -/
structure Indexed (k : Correlator) (live : List (Token × BatchId)) : Prop extends Mirrors k live where
  liveCount : k.liveCount = live.length
  batch_counted : ∀ b e, (k.failBatch b e).1 = live.countP fun call => call.2 = b
  batch_waiters : ∀ b e t,
    (k.failBatch b e).2.waiters.get? t = (k.waiters.get? t).filter fun w => w.batch ≠ b
  batch_batches : ∀ b e b',
    (k.failBatch b e).2.batches.get? b' = if b' = b then none else k.batches.get? b'
  all_counted : ∀ e, (k.failAll e).1 = live.length
  all_emptied : ∀ e, (k.failAll e).2.waiters = .empty ∧ (k.failAll e).2.batches = .empty
  empty_of_idle : (∀ t, k.isLive t = false) → k.waiters = .empty ∧ k.batches = .empty

/-- **The index of batches mirrors the calls that wait.**  Over every history that registers no
token twice a token is listed under a batch exactly when it waits as part of that batch, which
is when it was registered there and nothing has ended it since; and no batch is listed without
tokens.  So failing a batch takes out and counts the calls that live under it and touches
nothing else, failing everything counts all calls that live, and when none lives both tables
are empty. -/
theorem index_mirrors_live (cache : Option (DecisionStore Fingerprint)) {history : List Operation}
    (nodup : (registered history).Nodup) : (performAll { cache } history).Indexed (liveAfter history) := by
  obtain ⟨coherent, mirrors⟩ := performAll_mirrors cache nodup
  have distinct := nodup.sublist (liveAfter_tokens_sublist history)
  have size : (performAll { cache } history).liveCount = (liveAfter history).length := by
    rw [liveCount, Table.size_eq_length_of_mem_iff _ distinct fun t => ?_, List.length_map]
    rw [← Option.ne_none_iff_exists', ne_eq, mirrors.absent_iff, Decidable.not_not]
  refine ⟨mirrors, size, ?_, failBatch_waiters coherent, ?_, ?_, ?_, ?_⟩
  · exact failBatch_fst coherent distinct fun t b => (mirrors.waiting t b).symm
  · intro b e b'
    rw [failBatch_batches coherent, Table.get?_erase]
  · intro e
    rw [failAll_fst coherent, ← size, liveCount]
  · exact fun e => ⟨Table.ext_get? (failAll_gone coherent e), failAll_batches coherent e⟩
  · intro dead
    have idle := fun t => (isLive_eq_false_iff _ t).1 (dead t)
    exact ⟨Table.ext_get? idle, coherent.batches_of_idle idle⟩

/-- Of the two checks of the first batch one is answered; the other one is all that failing the
batch counts, and the check of the second batch is still filed. -/
theorem half_answered_batch_indexed :
    (registered [.register ⟨1⟩ ⟨1⟩ {}, .register ⟨2⟩ ⟨1⟩ {}, .register ⟨3⟩ ⟨2⟩ {},
      .resolve ⟨1⟩ {}]).Nodup ∧
    (performAll {} [.register ⟨1⟩ ⟨1⟩ {}, .register ⟨2⟩ ⟨1⟩ {}, .register ⟨3⟩ ⟨2⟩ {},
      .resolve ⟨1⟩ {}]).Indexed [(⟨2⟩, ⟨1⟩), (⟨3⟩, ⟨2⟩)] := by
  have nodup : (registered [.register ⟨1⟩ ⟨1⟩ {}, .register ⟨2⟩ ⟨1⟩ {}, .register ⟨3⟩ ⟨2⟩ {},
    .resolve ⟨1⟩ {}]).Nodup := by decide
  exact ⟨nodup, index_mirrors_live none nodup⟩

end Correlator

end PolicyClient
