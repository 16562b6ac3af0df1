/-
# PolicyClient.Proofs.Client.Retrying -- what an attempt puts off, and what it is done with

While replies are read, only a failure that is worth another attempt moves requests to be sent
again, and only those it names that are unanswered (`Exchange.mem_retry_read`).

Of a request that has failed for good, or is unanswered when the replies end, the attempt is
done for good: nobody owes it an answer any more (`Client.Sound.not_owes_of_failed`,
`Client.Sound.not_owes_of_streamEnd`).  Whatever move a dispatch makes, it goes on with some
of its items, in order (`Client.Moves.items`).
-/
import PolicyClient.Proofs.Run.Progress

namespace PolicyClient

set_option autoImplicit false

open Exchange (named)

/-! ## What a reply puts off -/

namespace Exchange

variable {items : List Item} {x x' : Exchange}

theorem mem_retry_readFailure {e : Error} {t t' : Token} (member : t' ∈ (readFailure e x t).attempt.retry) :
    t' ∈ x.attempt.retry ∨ (t' = t ∧ t ∈ x.attempt.unanswered ∧ e.isRetryable = true) := by
  unfold readFailure at member
  by_cases open_ : t ∈ x.attempt.unanswered
  · rw [if_pos open_] at member
    by_cases again : e.isRetryable = true
    · rw [if_pos again] at member
      refine (List.mem_append.1 member).imp_right fun new => ?_
      exact ⟨List.mem_singleton.1 new, open_, again⟩
    · rw [if_neg again] at member
      split at member
      · exact .inl member
      · exact .inl member
  · rw [if_neg open_] at member
    exact .inl member

theorem mem_retry_foldl_readFailure {e : Error} {tokens : List Token} {t : Token}
    (member : t ∈ (tokens.foldl (readFailure e) x).attempt.retry) :
    t ∈ x.attempt.retry ∨ (t ∈ tokens ∧ t ∈ x.attempt.unanswered ∧ e.isRetryable = true) := by
  induction tokens generalizing x with
  | nil => exact .inl member
  | cons first rest ih =>
    rcases ih member with before | ⟨later, open_, again⟩
    · rcases mem_retry_readFailure before with earlier | ⟨rfl, open_, again⟩
      · exact .inl earlier
      · exact .inr ⟨List.mem_cons_self .., open_, again⟩
    · exact .inr ⟨List.mem_cons_of_mem _ later, ((mem_readFailure_iff e x first t).1 open_).1, again⟩

/-- What a failure names is unanswered no more. -/
theorem mem_foldl_readFailure_iff (e : Error) (tokens : List Token) (x : Exchange) (t : Token) :
    t ∈ (tokens.foldl (readFailure e) x).attempt.unanswered ↔ t ∈ x.attempt.unanswered ∧ t ∉ tokens := by
  induction tokens generalizing x with
  | nil => simp
  | cons first rest ih =>
    rw [List.foldl_cons, ih, mem_readFailure_iff, List.mem_cons, not_or, and_assoc]

/-- Only a failure that is worth another attempt puts off what it names. -/
theorem mem_retry_read {reply : Reply} (read : x.read reply = .ok x') {t : Token}
    (member : t ∈ x'.attempt.retry) : t ∈ x.attempt.retry ∨ (t ∈ x.attempt.unanswered ∧
      ∃ tokens e, reply = .failed tokens e ∧ t ∈ tokens ∧ e.isFatal = false ∧ e.isRetryable = true) := by
  cases reply with
  | result t' answer =>
    cases read
    unfold readResult at member
    split at member
    · exact .inl member
    · exact .inl member
  | unmatched detail =>
    cases read
    exact .inl member
  | failed tokens e =>
    simp only [Exchange.read] at read
    split at read
    · cases read
    · rename_i lasting
      have folded : t ∈ (tokens.foldl (readFailure e) x).attempt.retry := by
        cases read
        split at member
        · exact member
        · exact member
      rcases mem_retry_foldl_readFailure folded with before | ⟨names, open_, again⟩
      · exact .inl before
      · exact .inr ⟨open_, tokens, e, rfl, names, Bool.eq_false_iff.2 lasting, again⟩

end Exchange

/-! ## Who is done with a request -/

namespace Client

variable {c : Client}

/-- Nobody owes an answer for an item of `d` when the dispatch itself does not any more. -/
theorem Sound.not_owes (h : c.Sound) {d : Dispatch} (member : d ∈ c.dispatches) {t : Token}
    (item : t ∈ named d.items) {c' : Client} (openBatch : c'.openBatch = c.openBatch)
    (others : ∀ e ∈ c'.dispatches, (e ∈ c.dispatches ∧ e.id ≠ d.id) ∨ ¬ e.owes t) : ¬ c'.owes t := by
  have held : (t, d.id) ∈ c.holdings := (c.mem_holdings_iff t d.id).2 (.inr ⟨d, member, item, rfl⟩)
  rintro (filling | ⟨e, under, owed⟩)
  · rw [openBatch] at filling
    have filled : (t, c.openBatch.id) ∈ c.holdings := (c.mem_holdings_iff t _).2 (.inl ⟨filling, rfl⟩)
    exact h.not_open member (h.holder_unique filled held)
  · rcases others e under with ⟨before, other⟩ | freed
    · have elsewhere : (t, e.id) ∈ c.holdings :=
        (c.mem_holdings_iff t e.id).2 (.inr ⟨e, before, h.item_of_owes before owed, rfl⟩)
      exact other (h.holder_unique elsewhere held)
    · exact freed owed

/-- A failure for good leaves nothing owed. -/
theorem Sound.not_owes_of_failed (h : c.Sound) {b : BatchId} {t : Token} (awaits : c.awaits b t = true)
    {tokens : List Token} (names : t ∈ tokens) {e : Error} (final : e.isRetryable = false) :
    ¬ (c.onReply b (.failed tokens e)).owes t := by
  obtain ⟨d, deadline, a, found, phase, open_⟩ := (c.awaits_iff b t).1 awaits
  obtain ⟨member, -⟩ := mem_of_dispatch? found
  have balanced := h.accounts d member deadline a phase c.stats
  have item := balanced.unanswered t open_
  simp only [Client.onReply, found, phase]
  cases read : Exchange.read ⟨a, c.correlator, c.stats⟩ (.failed tokens e) with
  | error fatal =>
    refine h.not_owes member item (onEnding_seesThrough ..).openBatch fun e' under => ?_
    rcases mem_onEnding under with ⟨_, _, ending, -⟩ | other
    · cases ending
    · exact .inl other
  | ok x =>
    refine h.not_owes member item rfl fun e' under => ?_
    refine (mem_keep _ under).symm.imp_right ?_
    rintro rfl
    simp only [Exchange.read] at read
    split at read
    · cases read
    · cases read
      rw [if_neg (by simp [final])]
      have same := (Exchange.foldl_readFailure_suffers e tokens balanced.toTallied).retry final
      rintro (still | again)
      · exact ((Exchange.mem_foldl_readFailure_iff e tokens _ t).1 still).2 names
      · rw [same] at again
        exact balanced.apart t open_ again

/-- The end of the replies leaves nothing owed that is unanswered then. -/
theorem Sound.not_owes_of_streamEnd (h : c.Sound) {b : BatchId} {t : Token} (awaits : c.awaits b t = true) :
    ¬ (c.onStreamEnd b).owes t := by
  obtain ⟨d, deadline, a, found, phase, open_⟩ := (c.awaits_iff b t).1 awaits
  obtain ⟨member, -⟩ := mem_of_dispatch? found
  have balanced := h.accounts d member deadline a phase c.stats
  simp only [Client.onStreamEnd, found, phase]
  refine h.not_owes member (balanced.unanswered t open_) (onEnding_seesThrough ..).openBatch fun e' under => ?_
  rcases mem_onEnding under with ⟨rest, e, ending, -, wait, -, rfl⟩ | other
  · right
    intro owed
    obtain ⟨-, -, rfl⟩ := Exchange.retry_of_ending ending
    obtain ⟨i, kept, rfl⟩ := List.mem_map.1 owed
    have again := List.contains_iff_mem.1 (List.mem_filter.1 kept).2
    rw [Exchange.retry_endOfStream balanced.coherent] at again
    exact balanced.apart i.token open_ again
  · exact .inl other

/-- A dispatch goes on with some of its items, in order. -/
theorem Moves.items {event : Event} {d d' : Dispatch} (moves : c.Moves event d d') :
    d'.items.Sublist d.items := by
  cases moves with
  | connects | begins => exact List.filter_sublist
  | sends | reads => exact .refl _
  | backsOff d event rest e fails =>
    cases fails with
    | unconnected => exact .refl _
    | streamEnd | overdue => exact List.filter_sublist

end Client

end PolicyClient
