/-
# PolicyClient.Proofs.Attempt.Conduct -- an attempt does what the words ask for

While replies are read the accounts of an attempt, the correlator and the counters change in
step.  What they come to is known from the words alone (`Exchange.told`): nobody has to look at
the correlator, and the calls that are made of it are the same whoever waits.

`Exchange.read_eq` says so of one reply, `Exchange.foldl_hear` of a stream of them.  A stream
stops in one of two ways (`Stop`), and what is unheard then is failed or put off.  With the
accounts closed every request has its fate (`fate`), and `Accounted` says what that makes of the
items: some are settled, each by one call, and the others are to be sent again.
-/
import PolicyClient.Proofs.Attempt.Words
import PolicyClient.Proofs.Client.Accounts

namespace PolicyClient

set_option autoImplicit false

open Exchange (named)

namespace Stats

/-- Counts `n` violations. -/
def violated (s : Stats) (n : Nat) : Stats :=
  { s with protocolViolations := s.protocolViolations + UInt64.ofNat n }

theorem recordViolation_eq (s : Stats) : s.recordViolation = s.violated 1 := rfl

@[simp] theorem violated_zero (s : Stats) : s.violated 0 = s := by simp [violated]

@[simp] theorem violated_violated (s : Stats) (m n : Nat) :
    (s.violated m).violated n = s.violated (m + n) := by
  simp [violated, UInt64.ofNat_add, UInt64.add_assoc]

end Stats

namespace Exchange

/-! ## Words -/

/-- Takes in one word. -/
def heed (x : Exchange) : Token × Word → Exchange
  | (t, .answer r) => x.readResult t r
  | (t, .failure e) => readFailure e x t

/-- What has come of an exchange when all this is said. -/
def told (x : Exchange) (said : List (Token × Word)) : Exchange where
  attempt := { x.attempt with
    unanswered := unheard x.attempt.unanswered said
    retry := x.attempt.retry ++ deferrals x.attempt.unanswered said }
  correlator := (settlements x.attempt.unanswered said).foldl Settlement.perform x.correlator
  stats := x.stats.violated (strays x.attempt.unanswered said + breaches x.attempt.unanswered said)

theorem told_nil (x : Exchange) : x.told [] = x := by
  simp [told, deferrals, settlements, strays, breaches, heeded]

theorem told_append (x : Exchange) (first later : List (Token × Word)) :
    x.told (first ++ later) = (x.told first).told later := by
  simp only [told, unheard_append, deferrals_append, settlements_append, strays_append,
    breaches_append, List.append_assoc, List.foldl_append, Stats.violated_violated]
  congr 2
  omega

/-- A word on a token that is not outstanding is counted, and that is all. -/
theorem told_stray (x : Exchange) {t : Token} (absent : t ∉ x.attempt.unanswered) (w : Word) :
    x.told [(t, w)] = x.countViolation := by
  have passed : heeded x.attempt.unanswered [(t, w)] = [] := by simp [heeded, absent]
  have rest : unheard x.attempt.unanswered [(t, w)] = x.attempt.unanswered := by
    rw [unheard_cons, unheard_nil, filter_ne_of_not_mem absent]
  simp [told, deferrals, settlements, strays, breaches, passed, rest, countViolation,
    Stats.recordViolation_eq]

/-- A word on an outstanding token strikes it off, and does what its fate asks for. -/
theorem told_due (x : Exchange) {t : Token} (member : t ∈ x.attempt.unanswered) (w : Word) :
    x.told [(t, w)] =
      { attempt := { (x.strike t).attempt with
          retry := x.attempt.retry ++ if w.fate.isDeferred then [t] else [] }
        correlator := (w.fate.settlement? t).elim x.correlator (Settlement.perform x.correlator)
        stats := if w.isBreach then x.stats.recordViolation else x.stats } := by
  have counts : heeded x.attempt.unanswered [(t, w)] = [(t, w)] := by simp [heeded, member]
  have rest : unheard x.attempt.unanswered [(t, w)] = (x.strike t).attempt.unanswered := by
    rw [unheard_cons, unheard_nil]
    rfl
  have fated : settlements x.attempt.unanswered [(t, w)] = (w.fate.settlement? t).toList := by
    simp only [settlements, counts, List.filterMap_cons, List.filterMap_nil]
    cases w.fate.settlement? t <;> rfl
  simp only [told, deferrals, fated, strays, breaches, counts, rest]
  congr 1
  · cases again : w.fate.isDeferred <;> simp [again, strike]
  · cases w.fate.settlement? t <;> rfl
  · cases breach : w.isBreach <;> simp [breach, Stats.recordViolation_eq]

theorem heed_eq (x : Exchange) (word : Token × Word) : x.heed word = x.told [word] := by
  obtain ⟨t, w⟩ := word
  by_cases member : t ∈ x.attempt.unanswered
  · rw [told_due x member]
    cases w with
    | answer r => simp [heed, readResult, member, Word.fate, Word.isBreach, Settlement.perform, strike]
    | failure e =>
      by_cases again : e.isRetryable = true
      · have kind := Error.kind_of_isRetryable again
        simp [heed, readFailure, member, again, Word.fate, Word.isBreach, kind, strike]
      · by_cases breach : e.kind = .protocol
        · simp [heed, readFailure, member, again, Word.fate, Word.isBreach, breach, Settlement.perform,
            strike, fail, countViolation]
        · simp [heed, readFailure, member, again, Word.fate, Word.isBreach, breach, Settlement.perform,
            strike, fail]
  · rw [told_stray x member]
    cases w <;> simp [heed, readResult, readFailure, member]

theorem foldl_heed (x : Exchange) (said : List (Token × Word)) : said.foldl heed x = x.told said := by
  induction said generalizing x with
  | nil => exact (told_nil x).symm
  | cons word said ih =>
    rw [List.foldl_cons, ih, heed_eq, ← told_append]
    rfl

/-! ## Replies -/

/-- What has come of an exchange when a reply is read that lets the attempt go on. -/
def hear (x : Exchange) (reply : Reply) : Exchange :=
  let x := x.told reply.words
  { x with
    attempt.lastError := reply.setback?.or x.attempt.lastError
    stats := x.stats.violated reply.isUnmatched.toNat }

theorem read_eq (x : Exchange) {reply : Reply} (lasting : reply.fatal? = none) :
    x.read reply = .ok (x.hear reply) := by
  cases reply with
  | result t r =>
    have heeds := heed_eq x (t, .answer r)
    simp only [heed] at heeds
    simp [read, hear, heeds, Reply.words, Reply.setback?, Reply.isUnmatched]
  | unmatched detail =>
    simp [read, hear, Reply.words, Reply.setback?, Reply.isUnmatched, told_nil, countViolation,
      Stats.recordViolation_eq]
  | failed tokens e =>
    have heeds := foldl_heed x (tokens.map fun t => (t, .failure e))
    rw [List.foldl_map] at heeds
    have passing : e.isFatal = false := by simpa [Reply.fatal?] using lasting
    simp only [read, passing, Bool.false_eq_true, if_false, hear, Reply.words, ← heeds]
    by_cases again : e.isRetryable = true <;> simp [again, Reply.setback?, Reply.isUnmatched, heed]

theorem read_fatal (x : Exchange) {reply : Reply} {e : Error} (fatal : reply.fatal? = some e) :
    x.read reply = .error e := by
  cases reply with
  | result | unmatched => cases fatal
  | failed tokens e' =>
    obtain ⟨isFatal, rfl⟩ : e'.isFatal = true ∧ e' = e := by simpa [Reply.fatal?] using fatal
    simp [read, isFatal]

/-- What has come of an exchange when all these replies are read. -/
theorem foldl_hear (x : Exchange) (replies : List Reply) :
    replies.foldl hear x = { x.told (words replies) with
      attempt.lastError := replies.foldl (fun last reply => reply.setback?.or last) x.attempt.lastError
      stats := (x.told (words replies)).stats.violated (replies.countP Reply.isUnmatched) } := by
  induction replies generalizing x with
  | nil => simp [words, told_nil]
  | cons reply replies ih =>
    rw [List.foldl_cons, ih, words_cons, told_append]
    simp only [told, hear, Stats.violated_violated, List.foldl_cons, List.countP_cons]
    congr 2
    cases reply.isUnmatched
    · simp
    · simp; omega

/-- What is put off is put off for an error after which it may be sent again. -/
structure Excused (x : Exchange) : Prop where
  again : ∀ e, x.attempt.lastError = some e → e.isRetryable = true
  reason : x.attempt.retry ≠ [] → x.attempt.lastError ≠ none

theorem isRetryable_of_setback {reply : Reply} {e : Error} (setback : reply.setback? = some e) :
    e.isRetryable = true := by
  cases reply with
  | result | unmatched => cases setback
  | failed tokens e' =>
    obtain ⟨again, rfl⟩ : e'.isRetryable = true ∧ e' = e := by simpa [Reply.setback?] using setback
    exact again

/-- A reply that puts something off names an error after which it may be sent again. -/
theorem setback_of_deferrals {due : List Token} {reply : Reply} (off : deferrals due reply.words ≠ []) :
    reply.setback? ≠ none := by
  obtain ⟨t, deferred⟩ := List.exists_mem_of_ne_nil _ off
  obtain ⟨⟨t, w⟩, member, rfl⟩ := List.mem_map.1 deferred
  obtain ⟨counts, fate⟩ := List.mem_filter.1 member
  have spoken : (t, w) ∈ reply.words := (heeded_sublist due reply.words).subset counts
  cases reply with
  | result t' r =>
    cases List.mem_singleton.1 spoken
    cases fate
  | unmatched detail => cases spoken
  | failed tokens e =>
    obtain ⟨t', -, same⟩ := List.mem_map.1 spoken
    cases same
    have again : e.isRetryable = true := by
      by_contra final
      simp [Word.fate, final] at fate
    simp [Reply.setback?, again]

theorem Excused.hear {x : Exchange} (h : x.Excused) (reply : Reply) : (x.hear reply).Excused where
  again e last := by
    rcases Option.or_eq_some_iff.1 last with setback | ⟨-, before⟩
    · exact isRetryable_of_setback setback
    · exact h.again e before
  reason off none := by
    have off : x.attempt.retry ++ deferrals x.attempt.unanswered reply.words ≠ [] := off
    obtain ⟨setback, before⟩ := Option.or_eq_none_iff.1 none
    by_cases earlier : x.attempt.retry = []
    · have now : deferrals x.attempt.unanswered reply.words ≠ [] := fun nothing =>
        off (List.append_eq_nil_iff.2 ⟨earlier, nothing⟩)
      exact setback_of_deferrals now setback
    · exact h.reason earlier before

theorem Excused.foldl_hear {x : Exchange} (h : x.Excused) (replies : List Reply) :
    (replies.foldl Exchange.hear x).Excused := by
  induction replies generalizing x with
  | nil => exact h
  | cons reply replies ih => exact ih (h.hear reply)

end Exchange

/-! ## The end of the stream, and the deadline -/

/-- How the reading of replies stops, unless for a fatal error. -/
inductive Stop
  | streamEnd
  | deadline

namespace Stop

/-- What becomes of a request that nothing has been said about. -/
def fate (t : Token) : Stop → Fate
  | .streamEnd => .failed (.protocolViolation (.unanswered t))
  | .deadline => .deferred

/-- How many violations it is that nothing has been said about `n` requests. -/
def violations (n : Nat) : Stop → Nat
  | .streamEnd => n
  | .deadline => 0

end Stop

namespace Exchange

/-- Closes the accounts. -/
def close (x : Exchange) (timeout : Duration) : Stop → Exchange
  | .streamEnd => x.endOfStream
  | .deadline => x.passDeadline timeout

theorem foldl_leaveUnanswered_eq (x : Exchange) (tokens : List Token) :
    tokens.foldl leaveUnanswered x =
      { attempt := { x.attempt with unanswered := x.attempt.unanswered.filter (· ∉ tokens) }
        correlator := (tokens.map fun t => Settlement.fail t (.protocolViolation (.unanswered t))).foldl
          Settlement.perform x.correlator
        stats := x.stats.violated tokens.length } := by
  induction tokens generalizing x with
  | nil => simp
  | cons t tokens ih =>
    rw [List.foldl_cons, ih]
    simp only [leaveUnanswered, strike, countViolation, fail, Stats.recordViolation_eq,
      Stats.violated_violated, List.filter_filter, List.map_cons, List.foldl_cons, Settlement.perform]
    congr 2
    · simp [Bool.and_comm]
    · simp [Nat.add_comm]

theorem close_correlator (x : Exchange) (timeout : Duration) (stop : Stop) :
    (x.close timeout stop).correlator =
      (x.attempt.unanswered.filterMap fun t => (stop.fate t).settlement? t).foldl
        Settlement.perform x.correlator := by
  cases stop with
  | streamEnd => simp [close, endOfStream_eq, foldl_leaveUnanswered_eq, Stop.fate]
  | deadline => simp [close, passDeadline, Stop.fate]

theorem close_stats (x : Exchange) (timeout : Duration) (stop : Stop) :
    (x.close timeout stop).stats = x.stats.violated (stop.violations x.attempt.unanswered.length) := by
  cases stop with
  | streamEnd => simp [close, endOfStream_eq, foldl_leaveUnanswered_eq, Stop.violations]
  | deadline => simp [close, passDeadline, Stop.violations]

theorem close_retry (x : Exchange) (timeout : Duration) (stop : Stop) :
    (x.close timeout stop).attempt.retry =
      x.attempt.retry ++ x.attempt.unanswered.filter fun t => (stop.fate t).isDeferred := by
  cases stop with
  | streamEnd => simp [close, endOfStream_eq, foldl_leaveUnanswered_eq, Stop.fate]
  | deadline => simp [close, passDeadline, Stop.fate]

theorem Excused.close {x : Exchange} (h : x.Excused) (timeout : Duration) (stop : Stop) :
    (x.close timeout stop).Excused := by
  cases stop with
  | streamEnd =>
    rw [Exchange.close, endOfStream_eq, foldl_leaveUnanswered_eq]
    exact ⟨h.again, h.reason⟩
  | deadline =>
    refine ⟨fun e last => ?_, fun _ => nofun⟩
    cases last
    rfl

end Exchange

/-! ## The whole attempt -/

/-- What becomes of a request: what is said of it first decides, and if nothing is said, the
way in which the reading stops. -/
def fate (stop : Stop) (said : List (Token × Word)) (t : Token) : Fate := (heard said t).getD (stop.fate t)

/-- All that an attempt asks of the correlator. -/
def ledger (due : List Token) (stop : Stop) (said : List (Token × Word)) : List Settlement :=
  settlements due said ++ (unheard due said).filterMap fun t => (stop.fate t).settlement? t

/-- How often replies violate the protocol: words on tokens that are not outstanding, outstanding
tokens that fail because the protocol is broken, and replies that answer no request. -/
def violationsRead (due : List Token) (replies : List Reply) : Nat :=
  strays due (words replies) + breaches due (words replies) + replies.countP Reply.isUnmatched

/-- How often an attempt finds the protocol violated: while it reads, and at the end of the stream
by the tokens that nothing has been said about. -/
def violations (due : List Token) (stop : Stop) (replies : List Reply) : Nat :=
  violationsRead due replies + stop.violations (unheard due (words replies)).length

/-- The requests of an attempt are accounted for: every item is settled by one of these calls or
put off, and the fate of its token decides. -/
structure Accounted (items : List Item) (fate : Token → Fate) (calls : List Settlement)
    (rest : List Item) : Prop where
  /-- No token but those of the items, and each of them in one place. -/
  split : (calls.map Settlement.token ++ named rest).Perm (named items)
  called : calls.Perm (items.filterMap fun i => (fate i.token).settlement? i.token)
  putOff : rest = items.filter fun i => (fate i.token).isDeferred

/-- How an attempt ends that puts `rest` off: it is settled if that is nothing, and else it is to
be made again with `rest`, for an error that allows it. -/
inductive PutsOff : List Item → AttemptEnding → Prop
  | settled : PutsOff [] .settled
  | retry (rest : List Item) (some : rest ≠ []) (e : Error) (again : e.isRetryable = true) :
    PutsOff rest (.retry rest e)

variable {items : List Item}

/-- What is called for, in the order of the tokens that are due. -/
theorem ledger_perm {due : List Token} (distinct : due.Nodup) (stop : Stop) (said : List (Token × Word)) :
    (ledger due stop said).Perm (due.filterMap fun t => (fate stop said t).settlement? t) := by
  refine ((settlements_perm distinct said).append_right _).trans ?_
  clear distinct
  induction due with
  | nil => exact .refl _
  | cons t due ih =>
    cases first : said.lookup t with
    | none =>
      simp only [unheard, heard, fate, first, List.filterMap_cons, List.filter_cons, Option.map_none,
        Option.bind_none, Option.isNone_none, if_true, Option.getD_none] at ih ⊢
      cases (stop.fate t).settlement? t with
      | none => exact ih
      | some s => exact List.perm_middle.trans (ih.cons s)
    | some w =>
      simp only [unheard, heard, fate, first, List.filterMap_cons, List.filter_cons, Option.map_some,
        Option.bind_some, Option.isNone_some, if_false, Option.getD_some, Bool.false_eq_true] at ih ⊢
      cases w.fate.settlement? t with
      | none => exact ih
      | some s => exact ih.cons s

/-- Whatever their fates, items are settled or kept. -/
theorem settled_kept_perm (items : List Item) (fate : Token → Fate) :
    ((items.filterMap fun i => (fate i.token).settlement? i.token).map Settlement.token ++
      named (items.filter fun i => (fate i.token).isDeferred)).Perm (named items) := by
  induction items with
  | nil => exact .refl _
  | cons i items ih =>
    cases fated : fate i.token with
    | answered r => simpa [List.filterMap_cons, fated, Settlement.token] using ih
    | failed e => simpa [List.filterMap_cons, fated, Settlement.token] using ih
    | deferred =>
      simp only [List.filterMap_cons, List.filter_cons, fated, Fate.settlement?_deferred,
        Fate.isDeferred_deferred, if_true, List.map_cons]
      exact List.perm_middle.trans (ih.cons _)

theorem accounted_ledger (distinct : (named items).Nodup) (stop : Stop) (said : List (Token × Word)) :
    Accounted items (fate stop said) (ledger (named items) stop said)
      (items.filter fun i => (fate stop said i.token).isDeferred) := by
  have called := ledger_perm distinct stop said
  rw [List.filterMap_map] at called
  exact ⟨((called.map _).append_right _).trans (settled_kept_perm items _), called, rfl⟩

/-! ## What the accounts come to -/

namespace Exchange

/-- An attempt as it begins, over the correlator and the counters it works on. -/
def opening (items : List Item) (k : Correlator) (s : Stats) : Exchange :=
  ⟨{ unanswered := named items }, k, s⟩

/-- An attempt that reads these replies, up to where the reading stops. -/
def conduct (x : Exchange) (replies : List Reply) (timeout : Duration) (stop : Stop) : Exchange :=
  (replies.foldl hear x).close timeout stop

variable (items : List Item) (k : Correlator) (s : Stats) (replies : List Reply) (timeout : Duration)
  (stop : Stop)

theorem conduct_correlator :
    ((opening items k s).conduct replies timeout stop).correlator =
      (ledger (named items) stop (words replies)).foldl Settlement.perform k := by
  rw [conduct, close_correlator, foldl_hear]
  simp only [opening, told, ledger, List.foldl_append]

theorem conduct_stats :
    ((opening items k s).conduct replies timeout stop).stats =
      s.violated (violations (named items) stop replies) := by
  rw [conduct, close_stats, foldl_hear]
  simp only [opening, told, violations, violationsRead, Stats.violated_violated]

theorem mem_conduct_retry (t : Token) :
    t ∈ ((opening items k s).conduct replies timeout stop).attempt.retry ↔
      t ∈ named items ∧ (fate stop (words replies) t).isDeferred = true := by
  rw [conduct, close_retry, foldl_hear]
  simp only [opening, told, List.nil_append, List.mem_append, List.mem_filter, mem_deferrals_iff,
    mem_unheard_iff, fate, heard]
  cases (words replies).lookup t <;> simp [Fate.isDeferred_iff]

/-- The items whose tokens are to be sent again are those that the attempt leaves. -/
theorem filter_conduct_retry :
    (items.filter fun i =>
      ((opening items k s).conduct replies timeout stop).attempt.retry.contains i.token) =
      items.filter fun i => (fate stop (words replies) i.token).isDeferred := by
  refine List.filter_congr fun i member => ?_
  have item : i.token ∈ named items := List.mem_map_of_mem member
  rw [Bool.eq_iff_iff, List.contains_iff_mem, mem_conduct_retry]
  exact and_iff_right item

/-- An attempt whose accounts are in order concludes with the items that it puts off. -/
theorem Excused.putsOff {x : Exchange} (h : x.Excused) {items : List Item}
    (put : ∀ t ∈ x.attempt.retry, t ∈ named items) :
    PutsOff (items.filter fun i => x.attempt.retry.contains i.token) (x.ending items) := by
  by_cases off : x.attempt.retry = []
  · have settled : x.ending items = .settled := by
      unfold ending
      split <;> simp [off]
    rw [settled, off]
    simpa using PutsOff.settled
  · obtain ⟨e, last⟩ := Option.ne_none_iff_exists'.1 (h.reason off)
    have ends : x.ending items = .retry (items.filter fun i => x.attempt.retry.contains i.token) e := by
      simp [ending, last, off]
    rw [ends]
    refine .retry _ ?_ e (h.again e last)
    obtain ⟨t, member⟩ := List.exists_mem_of_ne_nil _ off
    obtain ⟨i, held, rfl⟩ := List.mem_map.1 (put t member)
    exact List.ne_nil_of_mem (List.mem_filter.2 ⟨held, List.contains_iff_mem.2 member⟩)

theorem conduct_putsOff :
    PutsOff (items.filter fun i => (fate stop (words replies) i.token).isDeferred)
      (((opening items k s).conduct replies timeout stop).ending items) := by
  have opened : (opening items k s).Excused := ⟨fun _ last => (nomatch last), fun off => absurd rfl off⟩
  have excused : ((opening items k s).conduct replies timeout stop).Excused :=
    (opened.foldl_hear replies).close timeout stop
  rw [← filter_conduct_retry items k s replies timeout stop]
  exact excused.putsOff fun t member =>
    ((mem_conduct_retry items k s replies timeout stop t).1 member).1

end Exchange

end PolicyClient
