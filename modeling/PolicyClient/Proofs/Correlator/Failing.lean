/-
# PolicyClient.Proofs.Correlator.Failing -- calls that end without an answer

Most of what happens to a client ends calls without giving any of them an answer: failures,
withdrawals, a closing session.  `Correlator.Fails` is what all of it has in common.  Calls
may end, none is added; a call that ends finds no answer in its slot; slots of calls that
had ended before do not change, and nothing is remembered.

`Correlator.Ends` is the part that also holds of a result that is taken in.  Both chain, so
a step of several operations is followed by its parts.
-/
import PolicyClient.Proofs.Correlator.Settling

namespace PolicyClient

set_option autoImplicit false

namespace Correlator

/-- Calls may have ended, and none has been added. -/
structure Ends (k k' : Correlator) : Prop where
  coherent : k'.Coherent
  waited : ∀ t w, k'.waiters.get? t = some w → k.waiters.get? t = some w

/-- Calls may have ended, and none of them has an answer. -/
structure Fails (k k' : Correlator) : Prop extends Ends k k' where
  ended : ∀ t w, k.waiters.get? t = some w → k'.waiters.get? t = none →
    ∀ r, k'.readMail w.slot ≠ .delivered (.ok r)
  kept : ∀ s, (∀ t w, k.waiters.get? t = some w → w.slot ≠ s) → k'.readMail s = k.readMail s
  slots : k'.mail.length = k.mail.length
  cache : k'.cache = k.cache

namespace Ends

variable {k k' k'' : Correlator}

theorem refl (h : k.Coherent) : Ends k k := ⟨h, fun _ _ found => found⟩

theorem trans (first : Ends k k') (second : Ends k' k'') : Ends k k'' :=
  ⟨second.coherent, fun t w found => first.waited t w (second.waited t w found)⟩

theorem isLive (h : Ends k k') {t : Token} (live : k'.isLive t = true) : k.isLive t = true := by
  obtain ⟨w, found⟩ := (k'.isLive_iff t).1 live
  exact (k.isLive_iff t).2 ⟨w, h.waited t w found⟩

end Ends

namespace Fails

variable {k k' k'' : Correlator}

theorem refl (h : k.Coherent) : Fails k k where
  toEnds := .refl h
  ended t w found gone := by rw [found] at gone; cases gone
  kept _ _ := rfl
  slots := rfl
  cache := rfl

theorem trans (h : k.Coherent) (first : Fails k k') (second : Fails k' k'') : Fails k k'' where
  toEnds := first.toEnds.trans second.toEnds
  ended t w found gone r := by
    cases between : k'.waiters.get? t with
    | some w' =>
      have same := first.waited t w' between
      rw [found] at same
      cases same
      exact second.ended t w between gone r
    | none =>
      rw [second.kept w.slot fun t' w' found' slot => ?_]
      · exact first.ended t w found between r
      · have same := h.slot_inj t' w' t w (first.waited t' w' found') found slot
        rw [same, between] at found'
        cases found'
  kept s free :=
    (second.kept s fun t w found => free t w (first.waited t w found)).trans (first.kept s free)
  slots := second.slots.trans first.slots
  cache := second.cache.trans first.cache

end Fails

theorem Settles.ends {k k' : Correlator} {fate : Token → Waiter → Option Mail}
    (h : Settles k fate k') : Ends k k' :=
  ⟨h.coherent, fun t w found => ((h.waits_iff t w).1 found).1⟩

/-- Settling fails calls if no fate is an answer and nothing is remembered. -/
theorem Settles.fails {k k' : Correlator} {fate : Token → Waiter → Option Mail}
    (h : Settles k fate k') (cache : k'.cache = k.cache)
    (bare : ∀ t w r, fate t w ≠ some (.delivered (.ok r))) : Fails k k' where
  toEnds := h.ends
  ended t w found gone r answered := by
    cases left : fate t w with
    | none =>
      have stays := (h.waits_iff t w).2 ⟨found, left⟩
      rw [gone] at stays
      cases stays
    | some m =>
      rw [h.posted t w m found left] at answered
      exact bare t w r (answered ▸ left)
  kept s free := h.kept s fun t w found slot => absurd slot (free t w found)
  slots := h.slots
  cache := cache

/-! ## The operations that fail calls -/

@[simp] theorem release_cache (k : Correlator) (t : Token) (w : Waiter) (m : Mail) :
    (k.release t w m).cache = k.cache := by
  simp [release]

theorem only_ne {m : Mail} {t : Token} {left : Waiter → Mail} (bare : ∀ w, left w ≠ m) (t' : Token)
    (w : Waiter) : only t left t' w ≠ some m := by
  unfold only
  split
  · exact fun same => bare w (Option.some.inj same)
  · exact nofun

theorem fail_fails {k : Correlator} (h : k.Coherent) (t : Token) (e : Error) :
    Fails k (k.fail t e).2 := by
  refine (fail_settles h t e).fails ?_ fun t' w r => only_ne (fun _ => by simp) t' w
  cases found : k.waiters.get? t with
  | none => rw [fail_of_absent found]
  | some w => rw [fail_of_waiting found, release_cache]

theorem cancel_fails {k : Correlator} (h : k.Coherent) (t : Token) : Fails k (k.cancel t).2 := by
  refine (cancel_settles h t).fails ?_ fun t' w r => only_ne (fun _ => by simp) t' w
  cases found : k.waiters.get? t with
  | none => rw [cancel_of_absent found]
  | some w => rw [cancel_of_waiting found, release_cache]

theorem failBatch_fails {k : Correlator} (h : k.Coherent) (b : BatchId) (e : Error) :
    Fails k (k.failBatch b e).2 := by
  have spec := failTokens_spec (k := { k with batches := k.batches.erase b })
    ⟨h.slot_lt, h.slot_inj, h.awaited⟩ (k.listed b) e
  refine (failBatch_settles h b e).fails spec.cache fun t w r => ?_
  split <;> simp

theorem failAll_fails {k : Correlator} (h : k.Coherent) (e : Error) : Fails k (k.failAll e).2 := by
  have spec := failTokens_spec (k := { k with batches := .empty })
    ⟨h.slot_lt, h.slot_inj, h.awaited⟩ k.waiters.keys e
  exact (failAll_settles h e).fails spec.cache fun t w r => by simp

theorem abandonAll_fails {k : Correlator} (h : k.Coherent) : Fails k k.abandonAll :=
  (abandonAll_settles h).fails (foldl_post_cache ..) fun t w r => by simp

/-! ## Who waits no more -/

theorem fail_gone {k : Correlator} (h : k.Coherent) (t : Token) (e : Error) :
    (k.fail t e).2.waiters.get? t = none := by
  cases found : (k.fail t e).2.waiters.get? t with
  | none => rfl
  | some w =>
    have left := ((fail_settles h t e).waits_iff t w).1 found |>.2
    simp [only] at left

theorem resolve_gone {k : Correlator} (h : k.Coherent) (t : Token) (r : Answer) :
    (k.resolve t r).2.waiters.get? t = none := by
  cases found : (k.resolve t r).2.waiters.get? t with
  | none => rfl
  | some w =>
    have left := ((resolve_settles h t r).waits_iff t w).1 found |>.2
    simp [only] at left

theorem failBatch_gone {k : Correlator} (h : k.Coherent) (b : BatchId) (e : Error) {t : Token}
    {w : Waiter} (found : (k.failBatch b e).2.waiters.get? t = some w) : w.batch ≠ b := by
  intro batch
  have left := ((failBatch_settles h b e).waits_iff t w).1 found |>.2
  rw [if_pos batch] at left
  cases left

theorem failAll_gone {k : Correlator} (h : k.Coherent) (e : Error) (t : Token) :
    (k.failAll e).2.waiters.get? t = none := by
  cases found : (k.failAll e).2.waiters.get? t with
  | none => rfl
  | some w => cases ((failAll_settles h e).waits_iff t w).1 found |>.2

end Correlator

end PolicyClient
