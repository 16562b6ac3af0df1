/-
# PolicyClient.Proofs.Attempt.Order -- the order of replies is of no account

If nothing is said twice about a token, then in whatever order things are said, the same is heard
of it (`heard_eq_of_perm`).  So the order of replies changes neither what an attempt asks of the
correlator, but for the order it asks in (`ledger_perm_of_perm`), nor how often it finds the
protocol violated (`violations_eq_of_perm`).

The order of asking is of no account either, since each token is asked about once: what a list of
settlements leaves in the slots depends on who is settled how (`foldl_perform_settles`), and on
nothing else (`leaves_eq_of_perm`).
-/
import PolicyClient.Call
import PolicyClient.Proofs.Attempt.Conduct

namespace PolicyClient

set_option autoImplicit false

/-- What is in a list once at most is found wherever it stands. -/
theorem find?_eq_of_perm {α β : Type} [DecidableEq β] {f : α → β} {b : β} {l l' : List α}
    (perm : l.Perm l') (once : (l.map f).count b ≤ 1) : l.find? (fun a => f a = b) = l'.find? (fun a => f a = b) := by
  have filtered := perm.filter fun a => f a = b
  have short : (l.filter fun a => f a = b).length ≤ 1 := by
    rw [List.count, List.countP_map, List.countP_eq_length_filter] at once
    exact once
  rw [← List.head?_filter, ← List.head?_filter]
  cases found : l.filter fun a => f a = b with
  | nil =>
    rw [found] at filtered
    rw [List.nil_perm.1 filtered]
  | cons a rest =>
    obtain rfl : rest = [] := by
      rw [found, List.length_cons] at short
      exact List.eq_nil_of_length_eq_zero (by omega)
    rw [found] at filtered
    rw [List.singleton_perm.1 filtered]

/-! ## What is heard -/

variable {due : List Token} {said said' : List (Token × Word)} {t : Token}

theorem lookup_eq_find? (said : List (Token × Word)) (t : Token) :
    said.lookup t = (said.find? fun word => word.1 = t).map Prod.snd := by
  induction said with
  | nil => rfl
  | cons word said ih =>
    obtain ⟨t', w⟩ := word
    by_cases same : t = t'
    · simp [same]
    · simp [List.lookup_cons, beq_eq_false_iff_ne.2 same, ih, Ne.symm same]

theorem lookup_eq_of_perm (perm : said.Perm said') (once : (said.map Prod.fst).count t ≤ 1) :
    said.lookup t = said'.lookup t := by
  rw [lookup_eq_find?, lookup_eq_find?, find?_eq_of_perm perm once]

/-- What is said once about a token is heard wherever it stands. -/
theorem heard_eq_of_perm (perm : said.Perm said') (once : (said.map Prod.fst).count t ≤ 1) :
    heard said t = heard said' t := by
  rw [heard, heard, lookup_eq_of_perm perm once]

section Order

variable (perm : said.Perm said') (once : ∀ t ∈ due, (said.map Prod.fst).count t ≤ 1)

include perm once

theorem heeded_perm_of_perm : (heeded due said).Perm (heeded due said') := by
  refine (List.perm_ext_iff_of_nodup (heeded_nodup due said).of_map (heeded_nodup due said').of_map).2 ?_
  rintro ⟨t, w⟩
  rw [mem_heeded_iff, mem_heeded_iff]
  exact and_congr_right fun member => by rw [lookup_eq_of_perm perm (once t member)]

theorem unheard_eq_of_perm : unheard due said = unheard due said' :=
  List.filter_congr fun t member => by rw [lookup_eq_of_perm perm (once t member)]

theorem fate_eq_of_perm (stop : Stop) (member : t ∈ due) : fate stop said t = fate stop said' t := by
  rw [fate, fate, heard_eq_of_perm perm (once t member)]

theorem ledger_perm_of_perm (distinct : due.Nodup) (stop : Stop) :
    (ledger due stop said).Perm (ledger due stop said') := by
  have same : (due.filterMap fun t => (fate stop said t).settlement? t) =
      due.filterMap fun t => (fate stop said' t).settlement? t :=
    List.filterMap_congr fun t member => by rw [fate_eq_of_perm perm once stop member]
  refine (ledger_perm distinct stop said).trans ?_
  rw [same]
  exact (ledger_perm distinct stop said').symm

end Order

/-- Replies in another order violate the protocol as often. -/
theorem violations_eq_of_perm {replies replies' : List Reply} (perm : replies.Perm replies')
    (once : ∀ t ∈ due, ((words replies).map Prod.fst).count t ≤ 1) (stop : Stop) :
    violations due stop replies = violations due stop replies' := by
  have reworded : (words replies).Perm (words replies') := perm.flatMap_right _
  have heeds := heeded_perm_of_perm reworded once
  have strayed : strays due (words replies) = strays due (words replies') := by
    rw [strays, strays, reworded.length_eq, heeds.length_eq]
  have breached : breaches due (words replies) = breaches due (words replies') := heeds.countP_eq _
  rw [violations, violations, violationsRead, violationsRead, strayed, breached, perm.countP_eq,
    unheard_eq_of_perm reworded once]

/-! ## What is left in the slots -/

/-- What a settlement leaves for the call that it settles. -/
def Settlement.mail (w : Waiter) : Settlement → Mail
  | .resolve _ r => .delivered (.ok (r.merge w.prefill.decisions))
  | .fail _ e => .delivered (.error e)

/-- What a list of settlements leaves: the first that concerns a call counts. -/
def leaves (asked : List Settlement) (t : Token) (w : Waiter) : Option Mail :=
  (asked.find? fun s => s.token = t).map (·.mail w)

variable {k : Correlator} {asked asked' : List Settlement}

theorem perform_settles (h : k.Coherent) (s : Settlement) : k.Settles (leaves [s]) (s.perform k) := by
  cases s with
  | resolve t r =>
    exact (Correlator.resolve_settles h t r).congr fun t' w _ => by
      by_cases same : t' = t <;>
        simp [leaves, Settlement.token, Settlement.mail, Correlator.only, same, eq_comm]
  | fail t e =>
    exact (Correlator.fail_settles h t e).congr fun t' w _ => by
      by_cases same : t' = t <;>
        simp [leaves, Settlement.token, Settlement.mail, Correlator.only, same, eq_comm]

theorem foldl_perform_settles (h : k.Coherent) (asked : List Settlement) :
    k.Settles (leaves asked) (asked.foldl Settlement.perform k) := by
  induction asked generalizing k with
  | nil => exact .of_none h fun _ _ _ => rfl
  | cons s asked ih =>
    have first := perform_settles h s
    refine (first.trans h (ih first.coherent)).congr fun t w _ => ?_
    by_cases own : s.token = t <;> simp [leaves, own]

/-- Calls that are settled once are settled alike in any order. -/
theorem leaves_eq_of_perm (perm : asked.Perm asked') (nodup : (asked.map Settlement.token).Nodup) :
    leaves asked = leaves asked' := by
  funext t w
  have once := List.nodup_iff_count_le_one.1 nodup t
  rw [leaves, leaves, find?_eq_of_perm perm once]

namespace Correlator.Settles

variable {k k₁ k₂ : Correlator} {fate : Token → Waiter → Option Mail}

/-- What is left for the calls that wait decides what stands in every slot. -/
theorem readMail_eq (first : k.Settles fate k₁) (second : k.Settles fate k₂) (slot : Nat) :
    k₁.readMail slot = k₂.readMail slot := by
  by_cases left : ∃ t w m, k.waiters.get? t = some w ∧ w.slot = slot ∧ fate t w = some m
  · obtain ⟨t, w, m, found, rfl, fated⟩ := left
    rw [first.posted t w m found fated, second.posted t w m found fated]
  · have none : ∀ t w, k.waiters.get? t = some w → w.slot = slot → fate t w = none :=
      fun t w found same => Option.eq_none_iff_forall_ne_some.2 fun m fated => left ⟨t, w, m, found, same, fated⟩
    rw [first.kept slot none, second.kept slot none]

theorem isLive_eq (first : k.Settles fate k₁) (second : k.Settles fate k₂) (t : Token) :
    k₁.isLive t = k₂.isLive t := by
  rw [Bool.eq_iff_iff, isLive_iff, isLive_iff, first.waiting, second.waiting]

end Correlator.Settles

/-- A call has its outcome from its slot. -/
theorem Call.poll_congr {k₁ k₂ : Correlator} (same : ∀ slot, k₁.readMail slot = k₂.readMail slot)
    (call : Call) : call.poll k₁ = call.poll k₂ := by
  unfold poll
  cases call.state <;> simp only [same]

end PolicyClient
