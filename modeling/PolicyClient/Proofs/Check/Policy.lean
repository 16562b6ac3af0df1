/-
# PolicyClient.Proofs.Check.Policy -- evaluating a request alone

A policy decides every action on its own.  Its answer to a request holds these decisions
and nothing else (`Policy.answer`).  So the answer to what is left of a request, with the
decisions on the rest merged into it, is the answer to the whole of it
(`Policy.answer_remaining_merge`).
-/
import Mathlib.Data.List.Induction
import PolicyClient.Correlator
import PolicyClient.Proofs.Check.Question
import PolicyClient.Proofs.Table.Lookup

namespace PolicyClient

set_option autoImplicit false

/-! ## Tables of decisions -/

namespace Table

variable {κ β : Type} [Ord κ] [Std.TransOrd κ] [Std.LawfulEqOrd κ] [DecidableEq κ]

/-- What is there already counts, and what is added counts where nothing is there. -/
theorem get?_foldl_insertIfNew (t known : Table κ β) (k : κ) :
    (known.entries.foldl (fun t e => t.insertIfNew e.1 e.2) t).get? k = (t.get? k).or (known.get? k) := by
  obtain ⟨entries, ordered⟩ := known
  show (entries.foldl (fun t e => t.insertIfNew e.1 e.2) t).get? k = (t.get? k).or (Entries.get? k entries)
  induction entries generalizing t with
  | nil => simp [Entries.get?]
  | cons e rest ih =>
    rw [List.foldl_cons, ih _ (List.pairwise_cons.1 ordered).2, get?_insertIfNew]
    by_cases same : k = e.1
    · subst same
      cases held : t.get? e.1 <;> simp [Entries.get?]
    · have other : compare k e.1 ≠ .eq := fun eq => same (Std.LawfulEqCmp.eq_of_compare eq)
      simp [Entries.get?, same, other]

/-- A table of values that are computed from their keys. -/
theorem get?_ofList_map (g : κ → β) (keys : List κ) (k : κ) :
    (ofList (keys.map fun k => (k, g k))).get? k = if k ∈ keys then some (g k) else none := by
  induction keys using List.reverseRecOn with
  | nil => rfl
  | append_singleton keys last ih =>
    rw [List.map_append, List.map_singleton, get?_ofList_append, ih]
    by_cases same : k = last
    · simp [same]
    · simp [same]

end Table

theorem Answer.get?_merge (r : Answer) (known : Table Action Decision) (a : Action) :
    (r.merge known).decisions.get? a = (r.decisions.get? a).or (known.get? a) :=
  Table.get?_foldl_insertIfNew r.decisions known a

/-! ## Policies -/

/-- What is decided about an action of a principal on a resource. -/
abbrev Policy := Principal → Resource → Option AuxData → Action → Decision

namespace Policy

def on (f : Policy) (q : Request) (a : Action) : Decision := f q.principal q.resource q.auxData a

/-- The policy does not tell subjects apart that have one canonical form. -/
def Canonical (f : Policy) : Prop := ∀ q q' : Request, q.SameSubject q' → ∀ a, f.on q a = f.on q' a

/-- The decision on every action of the request, and nothing else. -/
def answer (f : Policy) (q : Request) : Answer := .ofDecisions (q.actions.map fun a => (a, f.on q a))

theorem get?_answer (f : Policy) (q : Request) (a : Action) :
    (f.answer q).decisions.get? a = if a ∈ q.actions then some (f.on q a) else none :=
  Table.get?_ofList_map (f.on q) q.actions a

theorem decision?_answer (f : Policy) (q : Request) (a : Action) :
    (f.answer q).decision? a.name = if a ∈ q.actions then some (f.on q a) else none := by
  rw [← get?_answer]
  simp [Answer.decision?, Answer.hasValidationErrors, answer, Answer.ofDecisions]

/-- An answer without errors and outputs is what it decides. -/
theorem eq_answer (f : Policy) (q : Request) {r : Answer}
    (decisions : ∀ a, r.decisions.get? a = if a ∈ q.actions then some (f.on q a) else none)
    (validationErrors : r.validationErrors = []) (outputs : r.outputs = .empty) : r = f.answer q := by
  have same : r.decisions = (f.answer q).decisions := Table.ext_get? fun a => by rw [decisions, get?_answer]
  cases r
  cases same
  cases validationErrors
  cases outputs
  rfl

end Policy

/-! ## What is known of a request beforehand -/

/-- What is left to ask of a request: the actions that are not decided yet. -/
def Prefill.remaining (p : Prefill) (request : Request) : Request :=
  request.restrict fun a => !p.decisions.contains a

theorem Prefill.remaining_empty (request : Request) : ({} : Prefill).remaining request = request := by
  have all : request.actions.filter (fun a => !(Table.empty : Table Action Decision).contains a) =
      request.actions := List.filter_eq_self.2 fun a _ => rfl
  simp [remaining, Request.restrict, all]

/-- What is known decides as the policy does, and asks about the request. -/
structure Prefill.Agrees (p : Prefill) (f : Policy) (q : Request) : Prop where
  decided : ∀ a d, p.decisions.get? a = some d → a ∈ q.actions ∧ d = f.on q a
  asked : ∀ a k, (a, k) ∈ p.asked → a ∈ q.actions ∧ k = .of q a

namespace Policy

/-- **Asking for the rest of a request** and merging is as good as asking for all of it. -/
theorem answer_remaining_merge {f : Policy} {q : Request} {p : Prefill} (agrees : p.Agrees f q) :
    (f.answer (p.remaining q)).merge p.decisions = f.answer q := by
  apply f.eq_answer q
  · intro a
    rw [Answer.get?_merge, get?_answer]
    cases known : p.decisions.get? a with
    | none =>
      have open_ : p.decisions.contains a = false := (p.decisions.contains_eq_false_iff a).2 known
      simp [Prefill.remaining, Request.restrict, open_, on]
    | some d =>
      have decided : p.decisions.contains a = true := (p.decisions.contains_eq_true_iff a).2 ⟨d, known⟩
      obtain ⟨member, rfl⟩ := agrees.decided a d known
      simp [Prefill.remaining, Request.restrict, decided, member]
  · rfl
  · rfl

/-- With nothing left to ask, what is known is the answer. -/
theorem answer_of_decided {f : Policy} {q : Request} {p : Prefill} (agrees : p.Agrees f q)
    (all : ∀ a ∈ q.actions, ∃ d, p.decisions.get? a = some d) : { decisions := p.decisions } = f.answer q := by
  apply f.eq_answer q
  · intro a
    by_cases member : a ∈ q.actions
    · obtain ⟨d, known⟩ := all a member
      rw [if_pos member]
      show p.decisions.get? a = _
      rw [known, (agrees.decided a d known).2]
    · rw [if_neg member]
      show p.decisions.get? a = none
      cases known : p.decisions.get? a with
      | none => rfl
      | some d => exact absurd (agrees.decided a d known).1 member
  · rfl
  · rfl

end Policy

end PolicyClient
