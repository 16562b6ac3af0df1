/-
# PolicyClient.Proofs.Correlator.Settling -- what an operation does to the calls that wait

Every operation of a correlator but registration does one thing: it takes some waiting
calls out and leaves something in the slot of each.  `Correlator.Settles` says this once,
with a `fate` that tells for every waiting call what is left for it, and each operation has
one lemma that names its fate (`resolve_settles`, `fail_settles`, `failBatch_settles`,
`failAll_settles`, `cancel_settles`, `abandonAll_settles`).  Later proofs use these and
never open an operation.

What makes them true is `Correlator.Coherent`: the index of batches mirrors the waiting
calls, and every waiting call has a slot of its own in which nothing stands yet.
-/
import PolicyClient.Correlator
import PolicyClient.Proofs.Table.Lookup

namespace PolicyClient

set_option autoImplicit false

namespace Correlator

/-! ## Coherence -/

/-- The tokens listed under a batch. -/
def listed (k : Correlator) (b : BatchId) : List Token := (k.batches.get? b).getD []

/-- Every waiting call has a slot of its own, and nothing stands in it yet. -/
structure Slotted (k : Correlator) : Prop where
  slot_lt : ∀ t w, k.waiters.get? t = some w → w.slot < k.mail.length
  slot_inj : ∀ t w t' w', k.waiters.get? t = some w → k.waiters.get? t' = some w' →
    w.slot = w'.slot → t = t'
  awaited : ∀ t w, k.waiters.get? t = some w → k.readMail w.slot = .awaited

/-- The index of batches mirrors the waiting calls, which have slots of their own. -/
structure Coherent (k : Correlator) : Prop extends Slotted k where
  nonempty : ∀ b, k.batches.get? b ≠ some []
  mem_listed_iff : ∀ b t, t ∈ k.listed b ↔ ∃ w, k.waiters.get? t = some w ∧ w.batch = b

theorem coherent_of_empty {k : Correlator} (waiters : k.waiters = .empty)
    (batches : k.batches = .empty) : k.Coherent where
  slot_lt t w h := by simp [waiters] at h
  slot_inj t w t' w' h := by simp [waiters] at h
  awaited t w h := by simp [waiters] at h
  nonempty b := by simp [batches]
  mem_listed_iff b t := by simp [listed, batches, waiters]

theorem isLive_iff (k : Correlator) (t : Token) :
    k.isLive t = true ↔ ∃ w, k.waiters.get? t = some w := k.waiters.contains_eq_true_iff t

theorem isLive_eq_false_iff (k : Correlator) (t : Token) :
    k.isLive t = false ↔ k.waiters.get? t = none := k.waiters.contains_eq_false_iff t

/-! ## Slots -/

@[simp] theorem post_waiters (k : Correlator) (s : Nat) (m : Mail) :
    (k.post s m).waiters = k.waiters := rfl

@[simp] theorem post_batches (k : Correlator) (s : Nat) (m : Mail) :
    (k.post s m).batches = k.batches := rfl

@[simp] theorem post_cache (k : Correlator) (s : Nat) (m : Mail) :
    (k.post s m).cache = k.cache := rfl

@[simp] theorem length_post_mail (k : Correlator) (s : Nat) (m : Mail) :
    (k.post s m).mail.length = k.mail.length := by simp [post]

theorem readMail_post_self (k : Correlator) {s : Nat} (m : Mail) (h : s < k.mail.length) :
    (k.post s m).readMail s = m := by
  simp [readMail, post, List.getD_eq_getElem?_getD, List.getElem?_set_self h]

theorem readMail_post_of_ne (k : Correlator) {s s' : Nat} (m : Mail) (h : s' ≠ s) :
    (k.post s m).readMail s' = k.readMail s' := by
  simp [readMail, post, List.getD_eq_getElem?_getD, List.getElem?_set_ne (Ne.symm h)]

/-! ## The index -/

/-- Striking a token off the list of its batch; a list that gets empty is forgotten. -/
theorem get?_unlist (k : Correlator) (b : BatchId) (t : Token) (b' : BatchId) :
    (k.unlist b t).batches.get? b' =
      if b' = b then ((k.batches.get? b).map (·.filter (· ≠ t))).filter (!·.isEmpty)
      else k.batches.get? b' := by
  unfold unlist
  cases h : k.batches.get? b with
  | none => by_cases e : b' = b <;> simp [e, h]
  | some tokens =>
    simp only [Option.map_some]
    generalize tokens.filter (· ≠ t) = rest
    cases rest with
    | nil => by_cases e : b' = b <;> simp [e, Table.get?_erase, Option.filter]
    | cons u rest => by_cases e : b' = b <;> simp [e, Table.get?_insert, Option.filter]

theorem listed_unlist (k : Correlator) (b : BatchId) (t : Token) (b' : BatchId) :
    (k.unlist b t).listed b' = if b' = b then (k.listed b).filter (· ≠ t) else k.listed b' := by
  unfold listed
  rw [get?_unlist]
  by_cases e : b' = b
  · rw [if_pos e, if_pos e]
    cases k.batches.get? b with
    | none => rfl
    | some tokens =>
      simp only [Option.map_some, Option.getD_some]
      generalize tokens.filter (· ≠ t) = rest
      cases rest <;> simp [Option.filter]
  · rw [if_neg e, if_neg e]

theorem unlist_nonempty (k : Correlator) (b : BatchId) (t : Token)
    (h : ∀ b', k.batches.get? b' ≠ some []) (b' : BatchId) :
    (k.unlist b t).batches.get? b' ≠ some [] := by
  rw [get?_unlist]
  by_cases e : b' = b
  · rw [if_pos e]
    intro empty
    simpa using (Option.filter_eq_some_iff.1 empty).2
  · rw [if_neg e]
    exact h b'

@[simp] theorem unlist_waiters (k : Correlator) (b : BatchId) (t : Token) :
    (k.unlist b t).waiters = k.waiters := by
  unfold unlist; split <;> rfl

@[simp] theorem unlist_mail (k : Correlator) (b : BatchId) (t : Token) :
    (k.unlist b t).mail = k.mail := by
  unfold unlist; split <;> rfl

@[simp] theorem unlist_cache (k : Correlator) (b : BatchId) (t : Token) :
    (k.unlist b t).cache = k.cache := by
  unfold unlist; split <;> rfl

/-! ## Settling -/

/-- Calls are taken out, none is added: `fate t w` is what is left for the call `w` that
waits under `t`, and nothing if it goes on waiting.  No other slot changes. -/
structure Settles (k : Correlator) (fate : Token → Waiter → Option Mail) (k' : Correlator) : Prop where
  coherent : k'.Coherent
  waiting : ∀ t, k'.waiters.get? t = (k.waiters.get? t).filter fun w => (fate t w).isNone
  posted : ∀ t w m, k.waiters.get? t = some w → fate t w = some m → k'.readMail w.slot = m
  kept : ∀ s, (∀ t w, k.waiters.get? t = some w → w.slot = s → fate t w = none) →
    k'.readMail s = k.readMail s
  slots : k'.mail.length = k.mail.length

/-- The fate of one token only. -/
def only (t : Token) (left : Waiter → Mail) : Token → Waiter → Option Mail :=
  fun t' w => if t' = t then some (left w) else none

namespace Settles

variable {k k' : Correlator} {fate : Token → Waiter → Option Mail}

theorem waits_iff (h : Settles k fate k') (t : Token) (w : Waiter) :
    k'.waiters.get? t = some w ↔ k.waiters.get? t = some w ∧ fate t w = none := by
  rw [h.waiting, Option.filter_eq_some_iff, Option.isNone_iff_eq_none]

/-- A call that waits goes on waiting, or its fate stands in its slot. -/
theorem either (h : Settles k fate k') {t : Token} {w : Waiter} (found : k.waiters.get? t = some w) :
    k'.waiters.get? t = some w ∨
      (k'.waiters.get? t = none ∧ fate t w = some (k'.readMail w.slot)) := by
  cases left : fate t w with
  | none => exact .inl ((h.waits_iff t w).2 ⟨found, left⟩)
  | some m =>
    refine .inr ⟨?_, by rw [h.posted t w m found left]⟩
    rw [h.waiting, found]
    simp [Option.filter, left]

/-- A change that concerns no waiting call settles nothing. -/
theorem of_none (h : k.Coherent) (none : ∀ t w, k.waiters.get? t = some w → fate t w = none) :
    Settles k fate k where
  coherent := h
  waiting t := by
    cases found : k.waiters.get? t with
    | none => rfl
    | some w => simp [Option.filter, none t w found]
  posted t w m found left := by rw [none t w found] at left; cases left
  kept _ _ := rfl
  slots := rfl

/-- Only the fate of calls that wait matters. -/
theorem congr {fate' : Token → Waiter → Option Mail} (h : Settles k fate k')
    (same : ∀ t w, k.waiters.get? t = some w → fate' t w = fate t w) : Settles k fate' k' where
  coherent := h.coherent
  waiting t := by
    rw [h.waiting]
    cases found : k.waiters.get? t with
    | none => rfl
    | some w => simp [Option.filter, same t w found]
  posted t w m found left := h.posted t w m found (same t w found ▸ left)
  kept s none := h.kept s fun t w found slot => same t w found ▸ none t w found slot
  slots := h.slots

/-- Of two fates in a row the first one that takes a call out is the one that counts. -/
theorem trans {k'' : Correlator} {fate' : Token → Waiter → Option Mail} (coherent : k.Coherent)
    (first : Settles k fate k') (second : Settles k' fate' k'') :
    Settles k (fun t w => (fate t w).or (fate' t w)) k'' where
  coherent := second.coherent
  waiting t := by
    rw [second.waiting, first.waiting]
    cases k.waiters.get? t with
    | none => rfl
    | some w => cases left : fate t w <;> simp [Option.filter, left]
  posted t w m found left := by
    cases fated : fate t w with
    | none =>
      rw [fated, Option.none_or] at left
      exact second.posted t w m ((first.waits_iff t w).2 ⟨found, fated⟩) left
    | some m' =>
      rw [fated, Option.some_or, Option.some.injEq] at left
      rw [second.kept w.slot fun t' w' found' same => ?_, first.posted t w m' found fated, left]
      -- Nobody else waits at the slot, and `t` itself waits no more.
      obtain ⟨before, waits⟩ := (first.waits_iff t' w').1 found'
      obtain rfl := coherent.slot_inj t' w' t w before found same
      rw [found, Option.some.injEq] at before
      rw [← before, fated] at waits
      cases waits
  kept s none := by
    rw [second.kept s fun t w found same => ?_, first.kept s fun t w found same => ?_]
    · have both := none t w found same
      cases fated : fate t w with
      | none => rfl
      | some m => simp [fated] at both
    · obtain ⟨before, waits⟩ := (first.waits_iff t w).1 found
      have both := none t w before same
      rw [waits, Option.none_or] at both
      exact both
  slots := second.slots.trans first.slots

end Settles

/-! ## Taking one call out -/

/-- `w`, which waited under `t`, is no longer in the table, and `m` is left for it. -/
structure TakesOut (k : Correlator) (t : Token) (w : Waiter) (m : Mail) (k' : Correlator) : Prop where
  waiting : ∀ t', k'.waiters.get? t' = if t' = t then none else k.waiters.get? t'
  own : k'.readMail w.slot = m
  other : ∀ s, s ≠ w.slot → k'.readMail s = k.readMail s
  slots : k'.mail.length = k.mail.length

namespace TakesOut

variable {k k' : Correlator} {t : Token} {w : Waiter} {m : Mail}

theorem remain (out : TakesOut k t w m k') {t' : Token} {w' : Waiter}
    (found' : k'.waiters.get? t' = some w') : t' ≠ t ∧ k.waiters.get? t' = some w' := by
  rw [out.waiting] at found'
  by_cases same : t' = t
  · simp [same] at found'
  · exact ⟨same, by simpa [same] using found'⟩

/-- Nobody else reads the slot that is written. -/
theorem apart (out : TakesOut k t w m k') (h : k.Slotted) (found : k.waiters.get? t = some w)
    {t' : Token} {w' : Waiter} (found' : k'.waiters.get? t' = some w') : w'.slot ≠ w.slot := by
  intro same
  obtain ⟨other, before⟩ := out.remain found'
  exact other (h.slot_inj t' w' t w before found same)

theorem slotted (out : TakesOut k t w m k') (h : k.Slotted) (found : k.waiters.get? t = some w) :
    k'.Slotted := by
  refine ⟨?_, ?_, ?_⟩
  · intro t' w' found'
    rw [out.slots]
    exact h.slot_lt t' w' (out.remain found').2
  · intro t₁ w₁ t₂ w₂ found₁ found₂ same
    exact h.slot_inj t₁ w₁ t₂ w₂ (out.remain found₁).2 (out.remain found₂).2 same
  · intro t' w' found'
    rw [out.other _ (out.apart h found found')]
    exact h.awaited t' w' (out.remain found').2

end TakesOut

/-- Takes out `w`, which waits under `t`, and leaves `m` for it. -/
def release (k : Correlator) (t : Token) (w : Waiter) (m : Mail) : Correlator :=
  ({ k with waiters := k.waiters.erase t }.unlist w.batch t).post w.slot m

theorem release_takesOut {k : Correlator} (h : k.Slotted) {t : Token} {w : Waiter}
    (found : k.waiters.get? t = some w) (m : Mail) : TakesOut k t w m (k.release t w m) := by
  refine ⟨?_, ?_, ?_, ?_⟩
  · intro t'
    simp [release, Table.get?_erase]
  · exact readMail_post_self _ _ (by simpa using h.slot_lt t w found)
  · intro s ne
    rw [release, readMail_post_of_ne _ _ ne]
    simp [readMail]
  · simp [release]

theorem release_settles {k : Correlator} (h : k.Coherent) {t : Token} {w : Waiter}
    (found : k.waiters.get? t = some w) (left : Waiter → Mail) :
    Settles k (only t left) (k.release t w (left w)) := by
  have out := release_takesOut h.toSlotted found (left w)
  refine ⟨⟨out.slotted h.toSlotted found, ?_, ?_⟩, ?_, ?_, ?_, out.slots⟩
  · exact unlist_nonempty _ _ _ h.nonempty
  · intro b t'
    have listing : (k.release t w (left w)).listed b =
        if b = w.batch then (k.listed w.batch).filter (· ≠ t) else k.listed b :=
      listed_unlist { k with waiters := k.waiters.erase t } w.batch t b
    rw [listing, out.waiting]
    by_cases e : t' = t
    · subst e
      by_cases same : b = w.batch
      · simp [same]
      · have absent : t' ∉ k.listed b := fun member => by
          obtain ⟨w', found', batch⟩ := (h.mem_listed_iff b t').1 member
          rw [found] at found'
          cases found'
          exact same batch.symm
        simp [same, absent]
    · by_cases same : b = w.batch
      · subst same
        simpa [e] using h.mem_listed_iff w.batch t'
      · simpa [e, same] using h.mem_listed_iff b t'
  · intro t'
    rw [out.waiting]
    by_cases e : t' = t
    · subst e; simp [only, found, Option.filter]
    · cases found' : k.waiters.get? t' <;> simp [only, e, Option.filter]
  · intro t' w' m found' fate
    by_cases e : t' = t
    · subst e
      rw [found] at found'
      cases found'
      simp only [only, if_true, Option.some.injEq] at fate
      rw [out.own, fate]
    · simp [only, e] at fate
  · intro s none
    refine out.other s fun slot => ?_
    have := none t w found slot.symm
    simp [only] at this

theorem take?_eq_none {k : Correlator} {t : Token} (h : k.waiters.get? t = none) : k.take? t = none := by
  simp [take?, h]

theorem take?_eq_some {k : Correlator} {t : Token} {w : Waiter} (h : k.waiters.get? t = some w) :
    k.take? t = some (w, { k with waiters := k.waiters.erase t }.unlist w.batch t) := by
  simp [take?, h]

theorem only_of_absent {k : Correlator} {t : Token} (h : k.waiters.get? t = none)
    (left : Waiter → Mail) : ∀ t' w, k.waiters.get? t' = some w → only t left t' w = none := by
  intro t' w found
  have ne : t' ≠ t := fun e => by rw [e, h] at found; cases found
  simp [only, ne]

/-! ## Operations on one token -/

theorem Coherent.with_cache {k : Correlator} (h : k.Coherent)
    (cache : Option (DecisionStore Fingerprint)) : Coherent { k with cache } :=
  ⟨⟨h.slot_lt, h.slot_inj, h.awaited⟩, h.nonempty, h.mem_listed_iff⟩

theorem Settles.with_cache {k k' : Correlator} {fate : Token → Waiter → Option Mail}
    (h : Settles k fate k') (cache : Option (DecisionStore Fingerprint)) :
    Settles k fate { k' with cache } :=
  ⟨h.coherent.with_cache cache, h.waiting, h.posted, h.kept, h.slots⟩

theorem resolve_of_absent {k : Correlator} {t : Token} (h : k.waiters.get? t = none) (r : Answer) :
    k.resolve t r = (.discarded, k) := by
  simp [resolve, take?_eq_none h]

theorem resolve_of_waiting {k : Correlator} {t : Token} {w : Waiter}
    (h : k.waiters.get? t = some w) (r : Answer) :
    k.resolve t r = (.delivered,
      { k.release t w (.delivered (.ok (r.merge w.prefill.decisions))) with
        cache := (k.remember w.prefill.asked r).cache }) := by
  have cache : ∀ (k' : Correlator), k'.cache = k.cache →
      (k'.remember w.prefill.asked r).cache = (k.remember w.prefill.asked r).cache :=
    fun k' same => by simp only [remember, same]
  simp only [resolve, take?_eq_some h]
  rw [← cache ({ k with waiters := k.waiters.erase t }.unlist w.batch t) (by simp)]
  rfl

theorem fail_of_absent {k : Correlator} {t : Token} (h : k.waiters.get? t = none) (e : Error) :
    k.fail t e = (false, k) := by
  simp [fail, take?_eq_none h]

theorem fail_of_waiting {k : Correlator} {t : Token} {w : Waiter}
    (h : k.waiters.get? t = some w) (e : Error) :
    k.fail t e = (true, k.release t w (.delivered (.error e))) := by
  simp only [fail, take?_eq_some h]
  rfl

theorem cancel_of_absent {k : Correlator} {t : Token} (h : k.waiters.get? t = none) :
    k.cancel t = (false, k) := by
  simp [cancel, take?_eq_none h]

theorem cancel_of_waiting {k : Correlator} {t : Token} {w : Waiter}
    (h : k.waiters.get? t = some w) : k.cancel t = (true, k.release t w .abandoned) := by
  simp only [cancel, take?_eq_some h]
  rfl

theorem resolve_settles {k : Correlator} (h : k.Coherent) (t : Token) (r : Answer) :
    Settles k (only t fun w => .delivered (.ok (r.merge w.prefill.decisions))) (k.resolve t r).2 := by
  cases found : k.waiters.get? t with
  | none =>
    rw [resolve_of_absent found]
    exact .of_none h (only_of_absent found _)
  | some w =>
    rw [resolve_of_waiting found]
    exact (release_settles h found _).with_cache _

theorem fail_settles {k : Correlator} (h : k.Coherent) (t : Token) (e : Error) :
    Settles k (only t fun _ => .delivered (.error e)) (k.fail t e).2 := by
  cases found : k.waiters.get? t with
  | none =>
    rw [fail_of_absent found]
    exact .of_none h (only_of_absent found _)
  | some w =>
    rw [fail_of_waiting found]
    exact release_settles h found _

theorem cancel_settles {k : Correlator} (h : k.Coherent) (t : Token) :
    Settles k (only t fun _ => .abandoned) (k.cancel t).2 := by
  cases found : k.waiters.get? t with
  | none =>
    rw [cancel_of_absent found]
    exact .of_none h (only_of_absent found _)
  | some w =>
    rw [cancel_of_waiting found]
    exact release_settles h found _

theorem fail_fst (k : Correlator) (t : Token) (e : Error) : (k.fail t e).1 = k.isLive t := by
  cases found : k.waiters.get? t with
  | none => rw [fail_of_absent found, (k.isLive_eq_false_iff t).2 found]
  | some w => rw [fail_of_waiting found, (k.isLive_iff t).2 ⟨w, found⟩]

/-! ## Operations on many calls

`failTokens` takes calls out of the table only; the index has been seen to before.  So its
lemmas ask for slots, not for coherence. -/

/-- Fails the call that waits under `t`, without a look at the index, and counts it. -/
def failNext (e : Error) (counted : Nat × Correlator) (t : Token) : Nat × Correlator :=
  match counted.2.waiters.get? t with
  | none => counted
  | some w => (counted.1 + 1,
      { counted.2 with waiters := counted.2.waiters.erase t }.post w.slot (.delivered (.error e)))

/-- What failing `tokens` does to `k`, from a count of `n` on to `k'` and a count of `n'`. -/
structure FailsTokens (e : Error) (tokens : List Token) (n : Nat) (k : Correlator) (n' : Nat)
    (k' : Correlator) : Prop where
  waiting : ∀ t, k'.waiters.get? t = if t ∈ tokens then none else k.waiters.get? t
  posted : ∀ t w, t ∈ tokens → k.waiters.get? t = some w →
    k'.readMail w.slot = .delivered (.error e)
  kept : ∀ s, (∀ t w, t ∈ tokens → k.waiters.get? t = some w → w.slot ≠ s) →
    k'.readMail s = k.readMail s
  slots : k'.mail.length = k.mail.length
  batches : k'.batches = k.batches
  cache : k'.cache = k.cache
  counted : n' + k'.waiters.size = n + k.waiters.size

namespace FailsTokens

variable {e : Error} {t : Token} {rest : List Token} {n n' : Nat} {k k' : Correlator}

/-- A token that nobody waits under changes nothing. -/
theorem skip (found : k.waiters.get? t = none) (tail : FailsTokens e rest n k n' k') :
    FailsTokens e (t :: rest) n k n' k' := by
  refine ⟨?_, ?_, ?_, tail.slots, tail.batches, tail.cache, tail.counted⟩
  · intro t'
    rw [tail.waiting]
    by_cases same : t' = t <;> simp [same, found]
  · intro t' w member waits
    rcases List.mem_cons.1 member with rfl | member
    · rw [found] at waits; cases waits
    · exact tail.posted t' w member waits
  · intro s free
    exact tail.kept s fun t' w member => free t' w (List.mem_cons_of_mem _ member)

/-- A call that waits is failed before the others. -/
theorem next {w : Waiter} {k₁ : Correlator} (h : k.Slotted) (found : k.waiters.get? t = some w)
    (out : TakesOut k t w (.delivered (.error e)) k₁) (batches : k₁.batches = k.batches)
    (cache : k₁.cache = k.cache) (size : k₁.waiters.size = (k.waiters.erase t).size)
    (tail : FailsTokens e rest (n + 1) k₁ n' k') : FailsTokens e (t :: rest) n k n' k' := by
  refine ⟨?_, ?_, ?_, tail.slots.trans out.slots, tail.batches.trans batches,
    tail.cache.trans cache, ?_⟩
  · intro t'
    rw [tail.waiting, out.waiting]
    by_cases same : t' = t <;> simp [same]
  · intro t' w' member waits
    by_cases same : t' = t
    · subst same
      rw [found] at waits
      cases waits
      rw [tail.kept w.slot fun t' w' _ found' => out.apart h found found', out.own]
    · have member : t' ∈ rest := (List.mem_cons.1 member).resolve_left same
      exact tail.posted t' w' member (by rw [out.waiting, if_neg same]; exact waits)
  · intro s free
    have ne : s ≠ w.slot := Ne.symm (free t w (List.mem_cons_self ..) found)
    rw [tail.kept s fun t' w' member waits =>
      free t' w' (List.mem_cons_of_mem _ member) (out.remain waits).2, out.other s ne]
  · have erased := k.waiters.size_erase found
    have counted := tail.counted
    omega

end FailsTokens

theorem foldl_failNext (e : Error) (tokens : List Token) (n : Nat) (k : Correlator) (h : k.Slotted) :
    FailsTokens e tokens n k (tokens.foldl (failNext e) (n, k)).1
      (tokens.foldl (failNext e) (n, k)).2 := by
  induction tokens generalizing n k with
  | nil => exact ⟨by simp, by simp, by simp, rfl, rfl, rfl, rfl⟩
  | cons t rest ih =>
    rw [List.foldl_cons]
    cases found : k.waiters.get? t with
    | none =>
      have stay : failNext e (n, k) t = (n, k) := by simp [failNext, found]
      rw [stay]
      exact .skip found (ih n k h)
    | some w =>
      let k₁ : Correlator :=
        { k with waiters := k.waiters.erase t }.post w.slot (.delivered (.error e))
      have go : failNext e (n, k) t = (n + 1, k₁) := by simp [failNext, found, k₁]
      have out : TakesOut k t w (.delivered (.error e)) k₁ :=
        ⟨fun t' => by simp [k₁, Table.get?_erase], readMail_post_self _ _ (h.slot_lt t w found),
          fun s ne => readMail_post_of_ne _ _ ne, by simp [k₁]⟩
      rw [go]
      exact .next h found out rfl rfl rfl (ih (n + 1) k₁ (out.slotted h found))

theorem failTokens_spec {k : Correlator} (h : k.Slotted) (tokens : List Token) (e : Error) :
    FailsTokens e tokens 0 k (k.failTokens tokens e).1 (k.failTokens tokens e).2 :=
  foldl_failNext e tokens 0 k h

/-- Calls failed together settle together, once the index has given them up. -/
theorem FailsTokens.settles {e : Error} {tokens : List Token} {n n' : Nat} {k k₀ k' : Correlator}
    (h : FailsTokens e tokens n k₀ n' k') (coherent : k.Coherent) (waiters : k₀.waiters = k.waiters)
    (mail : k₀.mail = k.mail) (nonempty : ∀ b, k₀.batches.get? b ≠ some [])
    (index : ∀ b t, t ∈ k₀.listed b ↔ t ∈ k.listed b ∧ t ∉ tokens) :
    Settles k (fun t _ => if t ∈ tokens then some (.delivered (.error e)) else none) k' := by
  have read : ∀ s, k₀.readMail s = k.readMail s := fun s => by rw [readMail, readMail, mail]
  have remain : ∀ t w, k'.waiters.get? t = some w → t ∉ tokens ∧ k.waiters.get? t = some w := by
    intro t w found
    rw [h.waiting, waiters] at found
    by_cases member : t ∈ tokens
    · simp [member] at found
    · exact ⟨member, by simpa [member] using found⟩
  have length : k'.mail.length = k.mail.length := by rw [h.slots, mail]
  refine ⟨⟨⟨fun t w found => ?_, fun t₁ w₁ t₂ w₂ found₁ found₂ same => ?_, fun t w found => ?_⟩,
    fun b => ?_, fun b t => ?_⟩, ?_, ?_, ?_, length⟩
  · rw [length]
    exact coherent.slot_lt t w (remain t w found).2
  · exact coherent.slot_inj t₁ w₁ t₂ w₂ (remain _ _ found₁).2 (remain _ _ found₂).2 same
  · obtain ⟨absent, before⟩ := remain t w found
    rw [h.kept w.slot fun t' w' member found' same => ?_, read]
    · exact coherent.awaited t w before
    · rw [waiters] at found'
      exact absent (coherent.slot_inj t' w' t w found' before same ▸ member)
  · rw [h.batches]
    exact nonempty b
  · have listing : k'.listed b = k₀.listed b := by rw [listed, listed, h.batches]
    rw [listing, index, coherent.mem_listed_iff, h.waiting, waiters]
    by_cases member : t ∈ tokens <;> simp [member]
  · intro t
    rw [h.waiting, waiters]
    by_cases member : t ∈ tokens <;> cases k.waiters.get? t <;> simp [member, Option.filter]
  · intro t w m found left
    by_cases member : t ∈ tokens
    · simp only [member, if_true, Option.some.injEq] at left
      rw [← left]
      exact h.posted t w member (by rw [waiters]; exact found)
    · simp [member] at left
  · intro s free
    rw [h.kept s fun t w member found same => ?_, read]
    rw [waiters] at found
    simpa [member] using free t w found same

theorem failBatch_settles {k : Correlator} (h : k.Coherent) (b : BatchId) (e : Error) :
    Settles k (fun _ w => if w.batch = b then some (.delivered (.error e)) else none)
      (k.failBatch b e).2 := by
  have spec := failTokens_spec (k := { k with batches := k.batches.erase b })
    ⟨h.slot_lt, h.slot_inj, h.awaited⟩ (k.listed b) e
  have settled := spec.settles h rfl rfl
    (fun b' => by by_cases same : b' = b <;> simp [Table.get?_erase, same, h.nonempty])
    (fun b' t => ?_)
  · refine settled.congr fun t w found => ?_
    have listed : t ∈ k.listed b ↔ w.batch = b := by
      rw [h.mem_listed_iff]
      exact ⟨fun ⟨w', found', batch⟩ => by rw [found] at found'; cases found'; exact batch,
        fun batch => ⟨w, found, batch⟩⟩
    by_cases batch : w.batch = b
    · rw [if_pos batch, if_pos (listed.2 batch)]
    · rw [if_neg batch, if_neg fun member => batch (listed.1 member)]
  · by_cases same : b' = b
    · subst same
      simp [listed, Table.get?_erase]
    · have erased : { k with batches := k.batches.erase b }.listed b' = k.listed b' := by
        simp [listed, Table.get?_erase, same]
      rw [erased]
      refine ⟨fun member => ⟨member, fun member' => same ?_⟩, And.left⟩
      obtain ⟨w, found, rfl⟩ := (h.mem_listed_iff b' t).1 member
      obtain ⟨w', found', rfl⟩ := (h.mem_listed_iff b t).1 member'
      rw [found] at found'
      cases found'
      rfl

theorem failAll_settles {k : Correlator} (h : k.Coherent) (e : Error) :
    Settles k (fun _ _ => some (.delivered (.error e))) (k.failAll e).2 := by
  have spec := failTokens_spec (k := { k with batches := .empty })
    ⟨h.slot_lt, h.slot_inj, h.awaited⟩ k.waiters.keys e
  have settled := spec.settles h rfl rfl (fun b => by simp) (fun b t => ?_)
  · refine settled.congr fun t w found => ?_
    rw [if_pos ((k.waiters.mem_keys_iff t).2 ⟨w, found⟩)]
  · simp only [listed, Table.get?_empty, Option.getD_none, List.not_mem_nil, false_iff, not_and,
      Decidable.not_not]
    intro member
    obtain ⟨w, found, -⟩ := (h.mem_listed_iff b t).1 member
    exact (k.waiters.mem_keys_iff t).2 ⟨w, found⟩

/-- The calls that wait, each with its batch, can be counted in any list of them. -/
theorem failBatch_fst {k : Correlator} (h : k.Coherent) {l : List (Token × BatchId)}
    (nodup : (l.map (·.1)).Nodup)
    (same : ∀ t b, (t, b) ∈ l ↔ ∃ w, k.waiters.get? t = some w ∧ w.batch = b) (b : BatchId) (e : Error) :
    (k.failBatch b e).1 = l.countP fun entry => entry.2 = b := by
  have spec := failTokens_spec (k := { k with batches := k.batches.erase b })
    ⟨h.slot_lt, h.slot_inj, h.awaited⟩ (k.listed b) e
  have before : k.waiters.size = l.length := by
    rw [Table.size_eq_length_of_mem_iff _ nodup fun t => ?_, List.length_map]
    simp only [List.mem_map, Prod.exists, exists_and_right, exists_eq_right, same]
    exact ⟨fun ⟨_, w, found, _⟩ => ⟨w, found⟩, fun ⟨w, found⟩ => ⟨w.batch, w, found, rfl⟩⟩
  have after : (k.failBatch b e).2.waiters.size = l.countP fun entry => ¬ entry.2 = b := by
    have nodup' : ((l.filter fun entry => ¬ entry.2 = b).map (·.1)).Nodup :=
      nodup.sublist ((List.filter_sublist).map _)
    rw [Table.size_eq_length_of_mem_iff _ nodup' fun t => ?_, List.length_map,
      List.countP_eq_length_filter]
    simp only [(failBatch_settles h b e).waits_iff, List.mem_map, List.mem_filter, Prod.exists,
      exists_and_right, exists_eq_right, same, decide_eq_true_eq]
    constructor
    · rintro ⟨b', ⟨w, found, rfl⟩, ne⟩
      exact ⟨w, found, by rw [if_neg ne]⟩
    · rintro ⟨w, found, stays⟩
      refine ⟨w.batch, ⟨w, found, rfl⟩, ?_⟩
      intro batch
      rw [if_pos batch] at stays
      cases stays
  have counted : (k.failBatch b e).1 + (k.failBatch b e).2.waiters.size = 0 + k.waiters.size :=
    spec.counted
  have split := List.length_eq_countP_add_countP (fun entry : Token × BatchId => entry.2 = b) (l := l)
  have complement : (l.countP fun entry => decide ¬ decide (entry.2 = b) = true) =
      l.countP fun entry => ¬ entry.2 = b := by simp
  omega

theorem failAll_fst {k : Correlator} (h : k.Coherent) (e : Error) :
    (k.failAll e).1 = k.waiters.size := by
  have spec := failTokens_spec (k := { k with batches := .empty })
    ⟨h.slot_lt, h.slot_inj, h.awaited⟩ k.waiters.keys e
  have after : (k.failAll e).2.waiters.size = ([] : List Token).length :=
    Table.size_eq_length_of_mem_iff _ .nil fun t => by
      simp [(failAll_settles h e).waits_iff]
  have counted : (k.failAll e).1 + (k.failAll e).2.waiters.size = 0 + k.waiters.size := spec.counted
  simp only [List.length_nil] at after
  omega

/-! ## Abandoning -/

theorem foldl_post_waiters (m : Mail) (l : List (Token × Waiter)) (k : Correlator) :
    (l.foldl (fun k entry => k.post entry.2.slot m) k).waiters = k.waiters := by
  induction l generalizing k with
  | nil => rfl
  | cons d l ih => rw [List.foldl_cons, ih]; rfl

theorem foldl_post_batches (m : Mail) (l : List (Token × Waiter)) (k : Correlator) :
    (l.foldl (fun k entry => k.post entry.2.slot m) k).batches = k.batches := by
  induction l generalizing k with
  | nil => rfl
  | cons d l ih => rw [List.foldl_cons, ih]; rfl

theorem foldl_post_cache (m : Mail) (l : List (Token × Waiter)) (k : Correlator) :
    (l.foldl (fun k entry => k.post entry.2.slot m) k).cache = k.cache := by
  induction l generalizing k with
  | nil => rfl
  | cons d l ih => rw [List.foldl_cons, ih]; rfl

theorem length_foldl_post_mail (m : Mail) (l : List (Token × Waiter)) (k : Correlator) :
    (l.foldl (fun k entry => k.post entry.2.slot m) k).mail.length = k.mail.length := by
  induction l generalizing k with
  | nil => rfl
  | cons d l ih => rw [List.foldl_cons, ih]; simp

theorem readMail_foldl_post (m : Mail) (l : List (Token × Waiter)) (k : Correlator) {s : Nat}
    (h : s < k.mail.length) :
    (l.foldl (fun k entry => k.post entry.2.slot m) k).readMail s =
      if ∃ entry ∈ l, entry.2.slot = s then m else k.readMail s := by
  induction l generalizing k with
  | nil => simp
  | cons d l ih =>
    rw [List.foldl_cons, ih _ (by simpa using h)]
    by_cases later : ∃ entry ∈ l, entry.2.slot = s
    · obtain ⟨entry, member, slot⟩ := later
      rw [if_pos ⟨entry, member, slot⟩, if_pos ⟨entry, List.mem_cons_of_mem _ member, slot⟩]
    · rw [if_neg later]
      by_cases here : d.2.slot = s
      · rw [if_pos ⟨d, List.mem_cons_self .., here⟩, here, readMail_post_self k m h]
      · have absent : ¬ ∃ entry ∈ d :: l, entry.2.slot = s := by
          rintro ⟨entry, member, slot⟩
          rcases List.mem_cons.1 member with rfl | member
          · exact here slot
          · exact later ⟨entry, member, slot⟩
        rw [if_neg absent, readMail_post_of_ne k m (Ne.symm here)]

theorem readMail_of_length_le {k : Correlator} {s : Nat} (h : k.mail.length ≤ s) :
    k.readMail s = .abandoned := by
  simp [readMail, List.getD_eq_getElem?_getD, List.getElem?_eq_none h]

theorem abandonAll_settles {k : Correlator} (h : k.Coherent) :
    Settles k (fun _ _ => some .abandoned) k.abandonAll := by
  have waiters : k.abandonAll.waiters = .empty := foldl_post_waiters ..
  have batches : k.abandonAll.batches = .empty := foldl_post_batches ..
  have length : k.abandonAll.mail.length = k.mail.length := length_foldl_post_mail ..
  have read : ∀ s, s < k.mail.length → k.abandonAll.readMail s =
      if ∃ entry ∈ k.waiters.entries, entry.2.slot = s then .abandoned else k.readMail s :=
    fun s lt => readMail_foldl_post _ _ { k with waiters := .empty, batches := .empty } lt
  refine ⟨coherent_of_empty waiters batches, ?_, ?_, ?_, length⟩
  · intro t
    rw [waiters]
    cases k.waiters.get? t <;> rfl
  · intro t w m found left
    cases left
    rw [read _ (h.slot_lt t w found), if_pos ⟨(t, w), (k.waiters.get?_eq_some_iff t w).1 found, rfl⟩]
  · intro s free
    by_cases lt : s < k.mail.length
    · rw [read s lt, if_neg]
      rintro ⟨⟨t, w⟩, member, slot⟩
      cases free t w ((k.waiters.get?_eq_some_iff t w).2 member) slot
    · rw [readMail_of_length_le (by omega), readMail_of_length_le (by omega)]

/-! ## Registration -/

/-- What registering `t` does, if nothing waits under it yet. -/
structure Registers (k : Correlator) (t : Token) (w : Waiter) (k' : Correlator) : Prop where
  coherent : k'.Coherent
  waiting : ∀ t', k'.waiters.get? t' = if t' = t then some w else k.waiters.get? t'
  fresh : w.slot = k.mail.length
  kept : ∀ s, s < k.mail.length → k'.readMail s = k.readMail s
  slots : k'.mail.length = k.mail.length + 1
  cache : k'.cache = k.cache

/-- Who waits once `t` waits as `w`. -/
theorem known_of_waiting {k k' : Correlator} {t : Token} {w : Waiter}
    (waiting : ∀ t', k'.waiters.get? t' = if t' = t then some w else k.waiters.get? t')
    {t' : Token} {w' : Waiter} (found : k'.waiters.get? t' = some w') :
    (t' = t ∧ w' = w) ∨ (t' ≠ t ∧ k.waiters.get? t' = some w') := by
  rw [waiting] at found
  by_cases same : t' = t
  · rw [if_pos same, Option.some.injEq] at found
    exact .inl ⟨same, found.symm⟩
  · rw [if_neg same] at found
    exact .inr ⟨same, found⟩

theorem register_fst (k : Correlator) (t : Token) (b : BatchId) (prefill : Prefill) :
    (k.register t b prefill).1 = k.mail.length := rfl

/-- Whatever waited before, who waits once `t` is registered. -/
theorem get?_register (k : Correlator) (t : Token) (b : BatchId) (prefill : Prefill) (t' : Token) :
    (k.register t b prefill).2.waiters.get? t' =
      if t' = t then some ⟨b, k.mail.length, prefill⟩ else k.waiters.get? t' := by
  have inserted : (k.register t b prefill).2.waiters = k.waiters.insert t ⟨b, k.mail.length, prefill⟩ := by
    unfold register
    cases k.waiters.get? t <;> rfl
  rw [inserted, Table.get?_insert]

theorem register_registers {k : Correlator} (h : k.Coherent) {t : Token}
    (free : k.waiters.get? t = none) (b : BatchId) (prefill : Prefill) :
    Registers k t ⟨b, k.mail.length, prefill⟩ (k.register t b prefill).2 := by
  let k' : Correlator := { k with
    waiters := k.waiters.insert t ⟨b, k.mail.length, prefill⟩
    batches := k.batches.insert b (if t ∈ k.listed b then k.listed b else k.listed b ++ [t])
    mail := k.mail ++ [.awaited] }
  have eq : (k.register t b prefill).2 = k' := by
    simp only [register, free]
    rfl
  have waiting : ∀ t', k'.waiters.get? t' =
      if t' = t then some ⟨b, k.mail.length, prefill⟩ else k.waiters.get? t' :=
    fun t' => Table.get?_insert ..
  have kept : ∀ s, s < k.mail.length → k'.readMail s = k.readMail s := fun s lt => by
    simp [readMail, k', List.getD_eq_getElem?_getD, List.getElem?_append_left lt]
  have own : k'.readMail k.mail.length = .awaited := by
    simp [readMail, k', List.getD_eq_getElem?_getD]
  have slots : k'.mail.length = k.mail.length + 1 := by simp [k']
  rw [eq]
  refine ⟨⟨⟨?_, ?_, ?_⟩, ?_, ?_⟩, waiting, rfl, kept, slots, rfl⟩
  · intro t' w' found
    rw [slots]
    rcases known_of_waiting waiting found with ⟨-, rfl⟩ | ⟨-, before⟩
    · exact Nat.lt_succ_self _
    · exact Nat.lt_succ_of_lt (h.slot_lt t' w' before)
  · intro t₁ w₁ t₂ w₂ found₁ found₂ same
    rcases known_of_waiting waiting found₁ with ⟨e₁, rfl⟩ | ⟨-, b₁⟩ <;>
      rcases known_of_waiting waiting found₂ with ⟨e₂, rfl⟩ | ⟨-, b₂⟩
    · rw [e₁, e₂]
    · exact absurd same.symm (Nat.ne_of_lt (h.slot_lt _ _ b₂))
    · exact absurd same (Nat.ne_of_lt (h.slot_lt _ _ b₁))
    · exact h.slot_inj _ _ _ _ b₁ b₂ same
  · intro t' w' found
    rcases known_of_waiting waiting found with ⟨-, rfl⟩ | ⟨-, before⟩
    · exact own
    · rw [kept _ (h.slot_lt t' w' before), h.awaited t' w' before]
  · intro b'
    simp only [k', Table.get?_insert]
    by_cases same : b' = b
    · by_cases member : t ∈ k.listed b
      · simp [same, member, List.ne_nil_of_mem member]
      · simp [same, member]
    · simpa [same] using h.nonempty b'
  · intro b' t'
    have listing : t' ∈ k'.listed b' ↔ t' ∈ k.listed b' ∨ (b' = b ∧ t' = t) := by
      simp only [listed, k', Table.get?_insert]
      by_cases same : b' = b
      · subst same
        by_cases member : t ∈ (k.batches.get? b').getD []
        · simp only [member, if_true, Option.getD_some, true_and]
          exact ⟨.inl, fun h => h.elim id fun e => e ▸ member⟩
        · simp [member]
      · simp [same]
    rw [listing, h.mem_listed_iff, waiting]
    by_cases same : t' = t
    · subst same
      simp [free, eq_comm]
    · simp [same]

end Correlator

end PolicyClient
