/-
# PolicyClient.Proofs.Attempt.Words -- what replies say, and which of it counts

A reply says something about each request it names: an answer, or a failure.  Taken one by
one these are the words of a stream of replies (`words`), and of all the words on one token
only the first can count, and only if the token is due.  `heeded` picks these out.  Two facts
say all about it: a word is heeded if and only if it is the first on a token that is due
(`mem_heeded_iff`), and no token is heeded twice (`heeded_nodup`).

What the heeded words ask for is written down without a correlator: which requests are settled
and how (`Word.fate`, `settlements`), which are put off (`deferrals`), and which words break the
protocol (`strays`, `breaches`).
-/
import Mathlib.Data.List.Nodup
import Mathlib.Data.List.Perm.Basic
import PolicyClient.Attempt

namespace PolicyClient

set_option autoImplicit false

/-! ## Words -/

/-- What a reply says about one request. -/
inductive Word
  | answer (answer : Answer)
  | failure (error : Error)

namespace Reply

/-- What a reply says, request by request. -/
def words : Reply → List (Token × Word)
  | .result t answer => [(t, .answer answer)]
  | .failed tokens e => tokens.map fun t => (t, .failure e)
  | .unmatched _ => []

/-- The tokens that a reply names, as often as it names them. -/
def tokens (reply : Reply) : List Token := reply.words.map Prod.fst

@[simp] theorem tokens_failed (tokens : List Token) (e : Error) : (failed tokens e).tokens = tokens := by
  simp [Reply.tokens, words, Function.comp_def]

def isUnmatched : Reply → Bool
  | .unmatched _ => true
  | _ => false

/-- The error for which nothing more is read. -/
def fatal? : Reply → Option Error
  | .failed _ e => if e.isFatal then some e else none
  | _ => none

/-- The error for which requests are put off. -/
def setback? : Reply → Option Error
  | .failed _ e => if e.isRetryable then some e else none
  | _ => none

end Reply

/-- All that a stream of replies says. -/
def words (replies : List Reply) : List (Token × Word) := replies.flatMap Reply.words

@[simp] theorem words_cons (reply : Reply) (replies : List Reply) :
    words (reply :: replies) = reply.words ++ words replies := List.flatMap_cons

theorem map_fst_words (replies : List Reply) :
    (words replies).map Prod.fst = replies.flatMap Reply.tokens := List.map_flatMap

/-! ## Fates -/

theorem Error.kind_of_isRetryable {e : Error} (again : e.isRetryable = true) : e.kind = .transient := by
  cases e with
  | unavailable => cases again
  | _ => exact of_decide_eq_true again

/-- What becomes of a request in one attempt. -/
inductive Fate
  | answered (answer : Answer)
  | failed (error : Error)
  /-- It is to be sent again. -/
  | deferred

namespace Fate

def isDeferred : Fate → Bool
  | .deferred => true
  | _ => false

@[simp] theorem isDeferred_answered (answer : Answer) : (answered answer).isDeferred = false := rfl

@[simp] theorem isDeferred_failed (e : Error) : (failed e).isDeferred = false := rfl

@[simp] theorem isDeferred_deferred : deferred.isDeferred = true := rfl

theorem isDeferred_iff (fate : Fate) : fate.isDeferred = true ↔ fate = .deferred := by
  cases fate <;> simp

end Fate

namespace Word

/-- What becomes of the request that a word is heeded on. -/
def fate : Word → Fate
  | .answer r => .answered r
  | .failure e => if e.isRetryable then .deferred else .failed e

/-- Whether the word admits that the protocol is broken. -/
def isBreach : Word → Bool
  | .answer _ => false
  | .failure e => e.kind = .protocol

end Word

/-- What an attempt asks of the correlator. -/
inductive Settlement
  | resolve (token : Token) (answer : Answer)
  | fail (token : Token) (error : Error)

namespace Settlement

def token : Settlement → Token
  | .resolve t _ => t
  | .fail t _ => t

def perform (k : Correlator) : Settlement → Correlator
  | .resolve t answer => (k.resolve t answer).2
  | .fail t e => (k.fail t e).2

end Settlement

namespace Fate

/-- The settlement that gives a request its fate; a request that is put off has none. -/
def settlement? (t : Token) : Fate → Option Settlement
  | .answered r => some (.resolve t r)
  | .failed e => some (.fail t e)
  | .deferred => none

@[simp] theorem settlement?_answered (t : Token) (r : Answer) :
    (answered r).settlement? t = some (.resolve t r) := rfl

@[simp] theorem settlement?_failed (t : Token) (e : Error) :
    (failed e).settlement? t = some (.fail t e) := rfl

@[simp] theorem settlement?_deferred (t : Token) : deferred.settlement? t = none := rfl

end Fate

/-! ## What counts -/

/-- The words that count when these tokens are due: on each of them the first one. -/
def heeded : List Token → List (Token × Word) → List (Token × Word)
  | _, [] => []
  | due, (t, w) :: said =>
    if t ∈ due then (t, w) :: heeded (due.filter (· ≠ t)) said else heeded due said

/-- The tokens of these that nothing is said about. -/
def unheard (due : List Token) (said : List (Token × Word)) : List Token :=
  due.filter fun t => (said.lookup t).isNone

variable {due : List Token} {said : List (Token × Word)} {t : Token} {w : Word}

theorem mem_unheard_iff : t ∈ unheard due said ↔ t ∈ due ∧ said.lookup t = none := by
  rw [unheard, List.mem_filter, Option.isNone_iff_eq_none]

@[simp] theorem unheard_nil (due : List Token) : unheard due [] = due :=
  List.filter_eq_self.2 fun _ _ => rfl

theorem filter_ne_of_not_mem (absent : t ∉ due) : due.filter (· ≠ t) = due :=
  List.filter_eq_self.2 fun t' member => by
    simpa using fun same : t' = t => absent (same ▸ member)

theorem unheard_cons (due : List Token) (t : Token) (w : Word) (said : List (Token × Word)) :
    unheard due ((t, w) :: said) = unheard (due.filter (· ≠ t)) said := by
  rw [unheard, unheard, List.filter_filter]
  refine List.filter_congr fun t' _ => ?_
  by_cases same : t' = t
  · simp [same]
  · simp [List.lookup_cons, same, beq_eq_false_iff_ne.2 same]

theorem heeded_cons (due : List Token) (t : Token) (w : Word) (said : List (Token × Word)) :
    heeded due ((t, w) :: said) =
      (if t ∈ due then [(t, w)] else []) ++ heeded (due.filter (· ≠ t)) said := by
  rw [heeded]
  split
  · rfl
  · rename_i absent
    rw [filter_ne_of_not_mem absent]
    rfl

theorem unheard_append (due : List Token) (first later : List (Token × Word)) :
    unheard due (first ++ later) = unheard (unheard due first) later := by
  induction first generalizing due with
  | nil => rw [List.nil_append, unheard_nil]
  | cons word first ih =>
    obtain ⟨t, w⟩ := word
    rw [List.cons_append, unheard_cons, ih, unheard_cons]

/-- What counts later are the first words on what is still unheard then. -/
theorem heeded_append (due : List Token) (first later : List (Token × Word)) :
    heeded due (first ++ later) = heeded due first ++ heeded (unheard due first) later := by
  induction first generalizing due with
  | nil => rw [List.nil_append, unheard_nil]; rfl
  | cons word first ih =>
    obtain ⟨t, w⟩ := word
    rw [List.cons_append, heeded_cons, ih, heeded_cons, unheard_cons, List.append_assoc]

/-- **Of all words on a token that is due the first is heeded**, and no word on any other. -/
theorem mem_heeded_iff : (t, w) ∈ heeded due said ↔ t ∈ due ∧ said.lookup t = some w := by
  induction said generalizing due with
  | nil => simp [heeded]
  | cons word said ih =>
    obtain ⟨t', w'⟩ := word
    rw [heeded_cons, List.mem_append, ih, List.mem_filter, List.lookup_cons]
    by_cases same : t = t'
    · subst same
      by_cases member : t ∈ due <;> simp [member, eq_comm]
    · by_cases member : t' ∈ due <;> simp [member, same, beq_eq_false_iff_ne.2 same]

theorem heeded_nodup (due : List Token) (said : List (Token × Word)) :
    ((heeded due said).map Prod.fst).Nodup := by
  induction said generalizing due with
  | nil => exact List.nodup_nil
  | cons word said ih =>
    obtain ⟨t, w⟩ := word
    rw [heeded]
    split
    · refine List.nodup_cons.2 ⟨fun again => ?_, ih _⟩
      obtain ⟨⟨t', w'⟩, member, rfl⟩ := List.mem_map.1 again
      have left := (mem_heeded_iff.1 member).1
      simp at left
    · exact ih due

theorem heeded_sublist (due : List Token) (said : List (Token × Word)) :
    (heeded due said).Sublist said := by
  induction said generalizing due with
  | nil => exact .refl _
  | cons word said ih =>
    obtain ⟨t, w⟩ := word
    rw [heeded]
    split
    · exact (ih _).cons_cons _
    · exact (ih _).cons _

/-- What is heeded, in the order of the tokens that are due. -/
theorem heeded_perm (distinct : due.Nodup) (said : List (Token × Word)) :
    (heeded due said).Perm (due.filterMap fun t => (said.lookup t).map (t, ·)) := by
  have nodup : (due.filterMap fun t => (said.lookup t).map (t, ·)).Nodup := by
    refine distinct.filterMap fun t t' word first first' => ?_
    obtain ⟨w, -, rfl⟩ := Option.map_eq_some_iff.1 first
    obtain ⟨w', -, same⟩ := Option.map_eq_some_iff.1 first'
    exact (Prod.mk.inj same).1.symm
  refine (List.perm_ext_iff_of_nodup (heeded_nodup due said).of_map nodup).2 fun ⟨t, w⟩ => ?_
  rw [mem_heeded_iff, List.mem_filterMap]
  constructor
  · rintro ⟨member, first⟩
    exact ⟨t, member, by rw [first]; rfl⟩
  · rintro ⟨t', member, first⟩
    obtain ⟨w', first, same⟩ := Option.map_eq_some_iff.1 first
    cases same
    exact ⟨member, first⟩

/-! ## What heeded words ask for -/

/-- What is asked of the correlator. -/
def settlements (due : List Token) (said : List (Token × Word)) : List Settlement :=
  (heeded due said).filterMap fun word => word.2.fate.settlement? word.1

/-- What is put off. -/
def deferrals (due : List Token) (said : List (Token × Word)) : List Token :=
  ((heeded due said).filter fun word => word.2.fate.isDeferred).map Prod.fst

/-- How many words name a token that is not outstanding when they are read: all but the heeded
ones. -/
def strays (due : List Token) (said : List (Token × Word)) : Nat :=
  said.length - (heeded due said).length

/-- How many outstanding tokens fail because the protocol is broken. -/
def breaches (due : List Token) (said : List (Token × Word)) : Nat :=
  (heeded due said).countP fun word => word.2.isBreach

/-- What is said first of a request decides. -/
def heard (said : List (Token × Word)) (t : Token) : Option Fate := (said.lookup t).map Word.fate

theorem mem_deferrals_iff : t ∈ deferrals due said ↔ t ∈ due ∧ heard said t = some .deferred := by
  simp only [deferrals, List.mem_map, List.mem_filter, Fate.isDeferred_iff, Prod.exists,
    exists_and_right, exists_eq_right, mem_heeded_iff, heard, Option.map_eq_some_iff]
  constructor
  · rintro ⟨w, ⟨member, first⟩, fate⟩
    exact ⟨member, w, first, fate⟩
  · rintro ⟨member, w, first, fate⟩
    exact ⟨w, ⟨member, first⟩, fate⟩

/-- **What is due is settled as it is heard of**, each token once. -/
theorem settlements_perm (distinct : due.Nodup) (said : List (Token × Word)) :
    (settlements due said).Perm (due.filterMap fun t => (heard said t).bind (·.settlement? t)) := by
  refine ((heeded_perm distinct said).filterMap _).trans (.of_eq ?_)
  rw [List.filterMap_filterMap]
  refine List.filterMap_congr fun t _ => ?_
  rw [heard]
  cases said.lookup t <;> rfl

theorem deferrals_append (due : List Token) (first later : List (Token × Word)) :
    deferrals due (first ++ later) = deferrals due first ++ deferrals (unheard due first) later := by
  simp only [deferrals, heeded_append, List.filter_append, List.map_append]

theorem settlements_append (due : List Token) (first later : List (Token × Word)) :
    settlements due (first ++ later) = settlements due first ++ settlements (unheard due first) later := by
  simp only [settlements, heeded_append, List.filterMap_append]

theorem breaches_append (due : List Token) (first later : List (Token × Word)) :
    breaches due (first ++ later) = breaches due first + breaches (unheard due first) later := by
  simp only [breaches, heeded_append, List.countP_append]

theorem strays_append (due : List Token) (first later : List (Token × Word)) :
    strays due (first ++ later) = strays due first + strays (unheard due first) later := by
  have heeds := (heeded_sublist due first).length_le
  have heeds' := (heeded_sublist (unheard due first) later).length_le
  simp only [strays, heeded_append, List.length_append]
  omega

end PolicyClient
