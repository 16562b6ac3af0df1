/-
# PolicyClient.Proofs.Client.Accounts -- the accounts of an attempt stay in order

While replies are read, every request of an attempt that still waits is on one of two
lists: not answered yet, or to be sent again.  `Exchange.Balanced` says so, with what else
the accounts owe to the items of the dispatch: both lists name items only, no token is on
both, and nothing is to be sent again without a reason.

`Exchange.Balanced.read` keeps this over every reply, whatever token it names.  When the
accounts are closed, by the end of the stream or by the deadline, only what is to be sent
again still waits (`Exchange.Closed`), so `Exchange.ending` leaves nothing behind.
`Exchange.Proceeds` bounds what a reply can do to the lists.
-/
import PolicyClient.Attempt
import PolicyClient.Proofs.Correlator.Failing

namespace PolicyClient

set_option autoImplicit false

open Correlator (Ends Fails)

namespace Exchange

/-- The tokens of some items. -/
abbrev named (items : List Item) : List Token := items.map Item.token

/-- The two lists cover the items that still wait, and are apart. -/
structure Tallied (items : List Item) (x : Exchange) : Prop where
  coherent : x.correlator.Coherent
  unanswered : ∀ t ∈ x.attempt.unanswered, t ∈ named items
  retry : ∀ t ∈ x.attempt.retry, t ∈ named items
  apart : ∀ t ∈ x.attempt.unanswered, t ∉ x.attempt.retry
  due : ∀ t ∈ named items, x.correlator.isLive t = true →
    t ∈ x.attempt.unanswered ∨ t ∈ x.attempt.retry

/-- The accounts are in order. -/
structure Balanced (items : List Item) (x : Exchange) : Prop extends Tallied items x where
  reason : x.attempt.retry ≠ [] → x.attempt.lastError ≠ none

/-- The accounts are closed: what still waits is to be sent again. -/
structure Closed (items : List Item) (x : Exchange) : Prop where
  coherent : x.correlator.Coherent
  due : ∀ t ∈ named items, x.correlator.isLive t = true → t ∈ x.attempt.retry
  reason : x.attempt.retry ≠ [] → x.attempt.lastError ≠ none

/-- Tokens only move off the unanswered ones, and to be sent again come only these. -/
structure Proceeds (x x' : Exchange) : Prop where
  unanswered : ∀ t ∈ x'.attempt.unanswered, t ∈ x.attempt.unanswered
  retry : ∀ t ∈ x'.attempt.retry, t ∈ x.attempt.retry ∨ t ∈ x.attempt.unanswered

namespace Proceeds

variable {x x' x'' : Exchange}

theorem refl (x : Exchange) : Proceeds x x := ⟨fun _ => id, fun _ => .inl⟩

theorem trans (first : Proceeds x x') (second : Proceeds x' x'') : Proceeds x x'' where
  unanswered t member := first.unanswered t (second.unanswered t member)
  retry t member := (second.retry t member).elim (first.retry t)
    fun open_ => .inr (first.unanswered t open_)

end Proceeds

/-! ## One token -/

variable {items : List Item} {x : Exchange}

theorem mem_strike_iff (x : Exchange) (t t' : Token) :
    t' ∈ (x.strike t).attempt.unanswered ↔ t' ∈ x.attempt.unanswered ∧ t' ≠ t := by
  simp [strike]

/-- A token that waits no more may be struck off. -/
theorem Tallied.strike_ended (h : Tallied items x) {t : Token} {k : Correlator} {s : Stats}
    (ends : Ends x.correlator k) (gone : k.waiters.get? t = none) :
    Tallied items ⟨(x.strike t).attempt, k, s⟩ where
  coherent := ends.coherent
  unanswered t' member := h.unanswered t' ((mem_strike_iff x t t').1 member).1
  retry := h.retry
  apart t' member := h.apart t' ((mem_strike_iff x t t').1 member).1
  due t' item live := by
    have other : t' ≠ t := fun same => by
      rw [same, (k.isLive_eq_false_iff t).2 gone] at live
      cases live
    rcases h.due t' item (ends.isLive live) with unanswered | retry
    · exact .inl ((mem_strike_iff x t t').2 ⟨unanswered, other⟩)
    · exact .inr retry

/-- A token may move from one list to the other. -/
theorem Tallied.strike_retry (h : Tallied items x) {t : Token} (member : t ∈ x.attempt.unanswered) :
    Tallied items { x.strike t with
      attempt.retry := x.attempt.retry ++ [t]
      attempt.unanswered := (x.strike t).attempt.unanswered
      attempt.lastError := x.attempt.lastError } where
  coherent := h.coherent
  unanswered t' member' := h.unanswered t' ((mem_strike_iff x t t').1 member').1
  retry t' member' := by
    rcases List.mem_append.1 member' with before | new
    · exact h.retry t' before
    · rw [List.mem_singleton.1 new]
      exact h.unanswered t member
  apart t' member' later := by
    obtain ⟨open_, other⟩ := (mem_strike_iff x t t').1 member'
    rcases List.mem_append.1 later with before | new
    · exact h.apart t' open_ before
    · exact other (List.mem_singleton.1 new)
  due t' item live := by
    by_cases same : t' = t
    · exact .inr (List.mem_append_right _ (List.mem_singleton.2 same))
    · rcases h.due t' item live with open_ | retry
      · exact .inl ((mem_strike_iff x t t').2 ⟨open_, same⟩)
      · exact .inr (List.mem_append_left _ retry)

/-! ## One reply -/

theorem Tallied.countViolation (h : Tallied items x) : Tallied items x.countViolation :=
  ⟨h.coherent, h.unanswered, h.retry, h.apart, h.due⟩

theorem proceeds_countViolation (x : Exchange) : Proceeds x x.countViolation :=
  ⟨fun _ => id, fun _ => .inl⟩

theorem Tallied.readResult (h : Tallied items x) (t : Token) (r : Answer) :
    Tallied items (x.readResult t r) := by
  unfold Exchange.readResult
  split
  · exact h.strike_ended (Correlator.resolve_settles h.coherent t r).ends
      (Correlator.resolve_gone h.coherent t r)
  · exact h.countViolation

theorem proceeds_readResult (x : Exchange) (t : Token) (r : Answer) : Proceeds x (x.readResult t r) := by
  unfold Exchange.readResult
  split
  · exact ⟨fun t' member => ((mem_strike_iff x t t').1 member).1, fun _ => .inl⟩
  · exact proceeds_countViolation x

/-- What the failure of one request does to an exchange. -/
structure Suffers (e : Error) (items : List Item) (x x' : Exchange) : Prop where
  tallied : Tallied items x'
  proceeds : Proceeds x x'
  fails : Fails x.correlator x'.correlator
  lastError : x'.attempt.lastError = x.attempt.lastError
  retry : e.isRetryable = false → x'.attempt.retry = x.attempt.retry

theorem readFailure_suffers (h : Tallied items x) (e : Error) (t : Token) :
    Suffers e items x (readFailure e x t) := by
  have struck : ∀ t' ∈ (x.strike t).attempt.unanswered, t' ∈ x.attempt.unanswered :=
    fun t' member => ((mem_strike_iff x t t').1 member).1
  unfold readFailure
  by_cases member : t ∈ x.attempt.unanswered
  · rw [if_pos member]
    have fails := Correlator.fail_fails h.coherent t e
    have gone := Correlator.fail_gone h.coherent t e
    by_cases again : e.isRetryable = true
    · rw [if_pos again]
      refine ⟨h.strike_retry member, ⟨struck, fun t' later => ?_⟩, .refl h.coherent, rfl,
        fun final => by rw [again] at final; cases final⟩
      rcases List.mem_append.1 later with before | new
      · exact .inl before
      · exact .inr (List.mem_singleton.1 new ▸ member)
    · rw [if_neg again]
      split
      · exact ⟨h.strike_ended fails.toEnds gone, ⟨struck, fun _ => .inl⟩, fails, rfl, fun _ => rfl⟩
      · exact ⟨h.strike_ended fails.toEnds gone, ⟨struck, fun _ => .inl⟩, fails, rfl, fun _ => rfl⟩
  · rw [if_neg member]
    exact ⟨h.countViolation, proceeds_countViolation x, .refl h.coherent, rfl, fun _ => rfl⟩

theorem foldl_readFailure_suffers (e : Error) (tokens : List Token) (h : Tallied items x) :
    Suffers e items x (tokens.foldl (readFailure e) x) := by
  induction tokens generalizing x with
  | nil => exact ⟨h, .refl x, .refl h.coherent, rfl, fun _ => rfl⟩
  | cons t rest ih =>
    have first := readFailure_suffers h e t
    have later := ih first.tallied
    exact ⟨later.tallied, first.proceeds.trans later.proceeds,
      first.fails.trans h.coherent later.fails, later.lastError.trans first.lastError,
      fun final => (later.retry final).trans (first.retry final)⟩

theorem mem_readFailure_iff (e : Error) (x : Exchange) (t t' : Token) :
    t' ∈ (readFailure e x t).attempt.unanswered ↔ t' ∈ x.attempt.unanswered ∧ t' ≠ t := by
  unfold readFailure
  by_cases member : t ∈ x.attempt.unanswered
  · rw [if_pos member]
    split
    · exact mem_strike_iff x t t'
    · split <;> exact mem_strike_iff x t t'
  · rw [if_neg member]
    exact ⟨fun open_ => ⟨open_, fun same => member (same ▸ open_)⟩, And.left⟩

theorem readFailure_settles (h : x.correlator.Coherent) (e : Error) (t : Token) :
    x.correlator.Settles
      (fun t' _ => if t' = t ∧ t ∈ x.attempt.unanswered ∧ e.isRetryable = false then
        some (.delivered (.error e)) else none)
      (readFailure e x t).correlator := by
  unfold readFailure
  by_cases member : t ∈ x.attempt.unanswered
  · rw [if_pos member]
    by_cases again : e.isRetryable = true
    · rw [if_pos again]
      exact .of_none h fun t' w _ => by simp [again]
    · rw [if_neg again]
      have failed := Correlator.fail_settles h t e
      split
      · exact failed.congr fun t' w _ => by simp [Correlator.only, member, again]
      · exact failed.congr fun t' w _ => by simp [Correlator.only, member, again]
  · rw [if_neg member]
    exact .of_none h fun t' w _ => by simp [member]

/-- Who fails when a failure is read: the tokens that it names and that are unanswered, unless
they are to be sent again. -/
theorem foldl_readFailure_settles (e : Error) (tokens : List Token) (h : x.correlator.Coherent) :
    x.correlator.Settles
      (fun t _ => if t ∈ tokens ∧ t ∈ x.attempt.unanswered ∧ e.isRetryable = false then
        some (.delivered (.error e)) else none)
      (tokens.foldl (readFailure e) x).correlator := by
  induction tokens generalizing x with
  | nil => exact .of_none h fun t w _ => if_neg fun named => List.not_mem_nil named.1
  | cons t rest ih =>
    have first := readFailure_settles h e t
    refine (first.trans h (ih first.coherent)).congr fun t' w _ => ?_
    by_cases same : t' = t <;> simp [same, mem_readFailure_iff]

/-- What a reply that is no result leaves for a call that waits: a failure, if it names the call
while that is unanswered and it is no use to send it again. -/
theorem read_either (h : x.correlator.Coherent) {reply : Reply} {x' : Exchange}
    (read : x.read reply = .ok x') (other : ∀ t r, reply ≠ .result t r) {t : Token} {w : Waiter}
    (found : x.correlator.waiters.get? t = some w) :
    x'.correlator.waiters.get? t = some w ∨
      (x'.correlator.waiters.get? t = none ∧ ∃ tokens e, reply = .failed tokens e ∧ t ∈ tokens ∧
        t ∈ x.attempt.unanswered ∧ e.isFatal = false ∧ e.isRetryable = false ∧
        x'.correlator.readMail w.slot = .delivered (.error e)) := by
  cases reply with
  | result t r => exact absurd rfl (other t r)
  | unmatched detail =>
    cases read
    exact .inl found
  | failed tokens e =>
    have settles := foldl_readFailure_settles e tokens h
    simp only [Exchange.read] at read
    split at read
    · cases read
    · rename_i lasting
      have correlator : x'.correlator = (tokens.foldl (readFailure e) x).correlator := by
        cases read
        split <;> rfl
      rw [correlator]
      refine (settles.either found).imp_right fun ⟨gone, left⟩ => ⟨gone, tokens, e, rfl, ?_⟩
      split at left
      · rename_i fails
        exact ⟨fails.1, fails.2.1, Bool.eq_false_iff.2 lasting, fails.2.2, (Option.some.inj left).symm⟩
      · cases left

/-- **A reply keeps the accounts in order**, and moves tokens off the unanswered ones only. -/
theorem Balanced.read (h : Balanced items x) {reply : Reply} {x' : Exchange}
    (read : x.read reply = .ok x') : Balanced items x' ∧ Proceeds x x' := by
  cases reply with
  | result t r =>
    cases read
    refine ⟨⟨h.toTallied.readResult t r, ?_⟩, proceeds_readResult x t r⟩
    unfold Exchange.readResult
    split
    · exact h.reason
    · exact h.reason
  | unmatched detail =>
    cases read
    exact ⟨⟨h.toTallied.countViolation, h.reason⟩, proceeds_countViolation x⟩
  | failed tokens e =>
    have suffers := foldl_readFailure_suffers e tokens h.toTallied
    have tallied := suffers.tallied
    simp only [Exchange.read] at read
    split at read
    · cases read
    · cases read
      by_cases again : e.isRetryable = true
      · simp only [again, if_true]
        exact ⟨⟨⟨tallied.coherent, tallied.unanswered, tallied.retry, tallied.apart, tallied.due⟩,
          fun _ => nofun⟩, ⟨suffers.proceeds.unanswered, suffers.proceeds.retry⟩⟩
      · simp only [again, if_false, Bool.false_eq_true]
        refine ⟨⟨tallied, ?_⟩, suffers.proceeds⟩
        rw [suffers.retry (by simpa using again), suffers.lastError]
        exact h.reason

/-- A reply that is no result gives no answer to anybody. -/
theorem Tallied.read_fails (h : Tallied items x) {reply : Reply} {x' : Exchange}
    (read : x.read reply = .ok x') (other : ∀ t r, reply ≠ .result t r) :
    Fails x.correlator x'.correlator := by
  cases reply with
  | result t r => exact absurd rfl (other t r)
  | unmatched detail =>
    cases read
    exact .refl h.coherent
  | failed tokens e =>
    have fails := (foldl_readFailure_suffers e tokens h).fails
    simp only [Exchange.read] at read
    split at read
    · cases read
    · cases read
      split
      · exact fails
      · exact fails

theorem readResult_ends (h : x.correlator.Coherent) (t : Token) (r : Answer) :
    Ends x.correlator (x.readResult t r).correlator := by
  unfold Exchange.readResult
  split
  · exact (Correlator.resolve_settles h t r).ends
  · exact .refl h

/-! ## Closing the accounts -/

/-- Fails a request that has got no answer. -/
def leaveUnanswered (x : Exchange) (t : Token) : Exchange :=
  (x.strike t).countViolation.fail t (.protocolViolation (.unanswered t))

theorem endOfStream_eq (x : Exchange) :
    x.endOfStream = x.attempt.unanswered.foldl leaveUnanswered x := rfl

theorem foldl_leaveUnanswered (tokens : List Token) (h : x.correlator.Coherent) :
    let x' := tokens.foldl leaveUnanswered x
    Fails x.correlator x'.correlator ∧
      x'.attempt.retry = x.attempt.retry ∧ x'.attempt.lastError = x.attempt.lastError := by
  induction tokens generalizing x with
  | nil => exact ⟨.refl h, rfl, rfl⟩
  | cons t rest ih =>
    have first : Fails x.correlator (x.leaveUnanswered t).correlator :=
      Correlator.fail_fails h t _
    obtain ⟨fails, retry, lastError⟩ := ih first.coherent
    exact ⟨first.trans h fails, retry, lastError⟩

theorem foldl_leaveUnanswered_settles (tokens : List Token) (h : x.correlator.Coherent) :
    x.correlator.Settles
      (fun t _ => if t ∈ tokens then some (.delivered (.error (.protocolViolation (.unanswered t)))) else none)
      (tokens.foldl leaveUnanswered x).correlator := by
  induction tokens generalizing x with
  | nil => exact .of_none h fun t w _ => if_neg List.not_mem_nil
  | cons t rest ih =>
    have first : x.correlator.Settles _ (x.leaveUnanswered t).correlator :=
      Correlator.fail_settles h t (.protocolViolation (.unanswered t))
    refine (first.trans h (ih first.coherent)).congr fun t' w _ => ?_
    by_cases same : t' = t <;> simp [Correlator.only, same]

/-- What has got no answer at the end of the stream fails for that. -/
theorem endOfStream_settles (h : x.correlator.Coherent) :
    x.correlator.Settles
      (fun t _ => if t ∈ x.attempt.unanswered then
        some (.delivered (.error (.protocolViolation (.unanswered t)))) else none)
      x.endOfStream.correlator :=
  foldl_leaveUnanswered_settles x.attempt.unanswered h

theorem endOfStream_fails (h : x.correlator.Coherent) :
    Fails x.correlator x.endOfStream.correlator :=
  (foldl_leaveUnanswered x.attempt.unanswered h).1

theorem retry_endOfStream (h : x.correlator.Coherent) :
    x.endOfStream.attempt.retry = x.attempt.retry :=
  (foldl_leaveUnanswered x.attempt.unanswered h).2.1

theorem Balanced.endOfStream (h : Balanced items x) : Closed items x.endOfStream := by
  obtain ⟨fails, retry, lastError⟩ := foldl_leaveUnanswered x.attempt.unanswered h.coherent
  rw [← endOfStream_eq] at fails retry lastError
  refine ⟨fails.coherent, ?_, by rw [retry, lastError]; exact h.reason⟩
  intro t item live
  rw [retry]
  refine (h.due t item (fails.isLive live)).resolve_left fun unanswered => ?_
  obtain ⟨w, found⟩ := (Correlator.isLive_iff _ t).1 live
  have left := ((endOfStream_settles h.coherent).waits_iff t w).1 found |>.2
  simp [unanswered] at left

theorem Balanced.passDeadline (h : Balanced items x) (timeout : Duration) :
    Closed items (x.passDeadline timeout) where
  coherent := h.coherent
  due t item live := (h.due t item live).elim (List.mem_append_right _) (List.mem_append_left _)
  reason _ := nofun

/-- With the accounts closed, an attempt that has settled leaves nobody waiting. -/
theorem Closed.of_settled (h : Closed items x) (settled : x.ending items = .settled) :
    ∀ t ∈ named items, x.correlator.isLive t = false := by
  have none : x.attempt.retry = [] := by
    unfold ending at settled
    cases last : x.attempt.lastError with
    | none => exact Decidable.byContradiction fun some => h.reason some last
    | some e =>
      rw [last] at settled
      by_cases empty : x.attempt.retry.isEmpty = true
      · exact List.isEmpty_iff.1 empty
      · simp [empty] at settled
  refine fun t item => Bool.eq_false_iff.2 fun live => ?_
  have retry := h.due t item live
  rw [none] at retry
  cases retry

/-- With the accounts closed, what is to be sent again are the items that still wait. -/
theorem Closed.of_retry (h : Closed items x) {rest : List Item} {e : Error}
    (again : x.ending items = .retry rest e) :
    rest = items.filter (fun i => x.attempt.retry.contains i.token) ∧
      ∀ i ∈ items, x.correlator.isLive i.token = true → i ∈ rest := by
  have kept : rest = items.filter fun i => x.attempt.retry.contains i.token := by
    unfold ending at again
    split at again
    · split at again
      · cases again
      · cases again
        rfl
    · cases again
  refine ⟨kept, ?_⟩
  intro i member live
  rw [kept]
  exact List.mem_filter.2 ⟨member,
    List.contains_iff_mem.2 (h.due i.token (List.mem_map_of_mem member) live)⟩

end Exchange

end PolicyClient
