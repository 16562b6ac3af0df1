/-
# PolicyClient.Proofs.Cache.Splitting -- what is found and what is asked

A request that names no action twice is split exactly (`Prefill.Splits`): each of its actions
is either decided by the cache or left to be asked, and what is left to be asked is the same
question about the actions that are not decided, in their order, each with the fingerprint that
this question has (`Client.consult_splits`).

Look-ups may make a store forget, so what they find is not what the store would find afterwards.
What carries the proof is that every action is looked up once, and goes by what was found then
(`Prefill.Shares`).
-/
import PolicyClient.Proofs.Cache.Lookup
import PolicyClient.Proofs.Check.Entries
import PolicyClient.Proofs.Check.Policy

namespace PolicyClient

set_option autoImplicit false

/-- A request that calls have made names no action twice. -/
theorem Composition.distinct {c : Composition} {r : Request} (made : c.request = .ok r) : r.actions.Nodup := by
  have once : ∀ {principal resource q}, Request.ofActions principal resource c.actions = .ok q →
      q.actions.Nodup := by
    intro principal resource q asked
    have parts := Request.ofActions_eq_ok asked
    unfold Request.ofActions at asked
    split at asked
    · cases asked
    · split at asked
      · cases asked
      · rename_i unrepeated
        rw [parts]
        exact ((Request.firstRepeated?_eq_none_iff [] c.actions).1 unrepeated).1
  unfold Composition.request at made
  obtain ⟨principal, -, made⟩ := ok_of_bind made
  obtain ⟨resource, -, made⟩ := ok_of_bind made
  obtain ⟨q, asked, made⟩ := ok_of_bind made
  split at made
  · cases made
    exact once asked
  · obtain ⟨auxData, -, made⟩ := ok_of_bind made
    cases made
    show q.actions.Nodup
    exact once asked

namespace Prefill

/-- The first `actions` of a request are decided or asked, each by what was found for it. -/
structure Shares (p : Prefill) (request : Request) (actions : List Action) : Prop where
  decided : ∀ a, p.decisions.contains a = true → a ∈ actions
  asked : p.asked =
    (actions.filter fun a => !p.decisions.contains a).map fun a => (a, Fingerprint.of request a)

/-- What is known of a request beforehand shares its actions out, and what is left of it is
asked under its own fingerprints. -/
structure Splits (p : Prefill) (request : Request) : Prop where
  apart : ∀ a ∈ p.decisions.keys, a ∉ p.asked.map Prod.fst
  together : ∀ a, a ∈ request.actions ↔ a ∈ p.decisions.keys ∨ a ∈ p.asked.map Prod.fst
  asked : p.asked =
    (p.remaining request).actions.map fun a => (a, Fingerprint.of (p.remaining request) a)

variable {p : Prefill} {request : Request}

theorem mem_keys_decisions_iff (p : Prefill) (a : Action) :
    a ∈ p.decisions.keys ↔ p.decisions.contains a = true :=
  (p.decisions.mem_keys_iff a).trans (p.decisions.contains_eq_true_iff a).symm

/-! ## One action more -/

theorem Shares.found {actions : List Action} (h : p.Shares request actions) {action : Action}
    (new : action ∉ actions) (d : Decision) :
    Shares { p with decisions := p.decisions.insert action d } request (actions ++ [action]) := by
  have contains : ∀ a, (p.decisions.insert action d).contains a =
      (decide (a = action) || p.decisions.contains a) := by
    intro a
    rw [Table.contains, Table.get?_insert, Table.contains]
    by_cases same : a = action <;> simp [same]
  constructor
  · intro a known
    rw [contains, Bool.or_eq_true, decide_eq_true_eq] at known
    rcases known with rfl | before
    · exact List.mem_append_right _ (List.mem_singleton_self _)
    · exact List.mem_append_left _ (h.decided a before)
  · have others : ∀ a ∈ actions, (!(p.decisions.insert action d).contains a) = !p.decisions.contains a := by
      intro a member
      have other : a ≠ action := fun same => new (same ▸ member)
      rw [contains, decide_eq_false other, Bool.false_or]
    have known : (!(p.decisions.insert action d).contains action) = false := by
      rw [contains, decide_eq_true rfl, Bool.true_or, Bool.not_true]
    rw [List.filter_append, List.filter_congr others, List.filter_singleton, known]
    simpa using h.asked

theorem Shares.missed {actions : List Action} (h : p.Shares request actions) {action : Action}
    (new : action ∉ actions) :
    Shares { p with asked := p.asked ++ [(action, .of request action)] } request (actions ++ [action]) := by
  constructor
  · intro a known
    exact List.mem_append_left _ (h.decided a known)
  · have unknown : (!p.decisions.contains action) = true := by
      rw [Bool.not_eq_true']
      exact eq_false_of_ne_true fun known => new (h.decided action known)
    rw [h.asked, List.filter_append, List.filter_singleton, unknown, List.map_append]
    rfl

/-- With every action shared out the request is split. -/
theorem Shares.splits (h : p.Shares request request.actions) : p.Splits request := by
  have left : ∀ a, a ∈ p.asked.map Prod.fst ↔ a ∈ request.actions ∧ p.decisions.contains a = false := by
    intro a
    rw [h.asked, List.map_map]
    simp
  refine ⟨?_, ?_, h.asked⟩
  · intro a decided asked
    have open_ := ((left a).1 asked).2
    rw [(p.mem_keys_decisions_iff a).1 decided] at open_
    cases open_
  · intro a
    rw [left, mem_keys_decisions_iff]
    constructor
    · intro member
      cases known : p.decisions.contains a with
      | true => exact .inl rfl
      | false => exact .inr ⟨member, rfl⟩
    · rintro (decided | ⟨member, -⟩)
      · exact h.decided a decided
      · exact member

/-! ## What is left to ask -/

/-- What is left of a request is the same question about the actions that are not decided. -/
theorem remaining_eq (p : Prefill) (request : Request) : p.remaining request =
    { request with actions := request.actions.filter fun a => decide (a ∉ p.decisions.keys) } := by
  have same : (fun a => !p.decisions.contains a) = fun a => decide (a ∉ p.decisions.keys) := by
    funext a
    cases known : p.decisions.contains a <;> simp [mem_keys_decisions_iff, known]
  rw [remaining, Request.restrict, same]

theorem Splits.remaining_ne_nil (h : p.Splits request) (some : p.asked ≠ []) :
    (p.remaining request).actions ≠ [] := by
  intro none
  rw [h.asked, none] at some
  exact some rfl

/-- **A whole answer comes of the two parts.**  An answer that decides all that was asked, and has
no validation errors, decides all of the request once what was known is merged into it. -/
theorem Splits.decides_merge (h : p.Splits request) {answer : Answer} (valid : answer.validationErrors = [])
    (whole : ∀ a ∈ (p.remaining request).actions, ∃ d, answer.decisions.get? a = some d) :
    ∀ a ∈ request.actions, ∃ d, (answer.merge p.decisions).decision? a.name = some d := by
  intro a member
  have still : (answer.merge p.decisions).validationErrors = [] := valid
  rw [Answer.decision?_name still, Answer.get?_merge]
  rcases (h.together a).1 member with decided | asked
  · obtain ⟨known, held⟩ := (p.decisions.mem_keys_iff a).1 decided
    cases answer.decisions.get? a with
    | some d => exact ⟨d, rfl⟩
    | none => exact ⟨known, held⟩
  · have open_ : a ∈ (p.remaining request).actions := by
      rw [h.asked, List.map_map] at asked
      simpa using asked
    obtain ⟨d, told⟩ := whole a open_
    rw [told]
    exact ⟨d, rfl⟩

end Prefill

namespace Client

/-! ## Asking for every action of a request -/

/-- An action that the store does not decide is asked. -/
theorem fst_consultNext_of_missing {request : Request} {known : Prefill × DecisionStore Fingerprint}
    {action : Action} (missing : known.2.find? (.of request action) = none) :
    (consultNext request known action).1 =
      { known.1 with asked := known.1.asked ++ [(action, .of request action)] } := by
  have answer := known.2.get?_fst (.of request action)
  rw [missing] at answer
  unfold consultNext
  generalize known.2.get? (.of request action) = looked at answer
  obtain ⟨_, next⟩ := looked
  cases answer
  rfl

theorem shares_next {request : Request} {actions : List Action} {known : Prefill × DecisionStore Fingerprint}
    (h : known.1.Shares request actions) {action : Action} (new : action ∉ actions) :
    (consultNext request known action).1.Shares request (actions ++ [action]) := by
  cases found : known.2.find? (.of request action) with
  | some d =>
    rw [fst_consultNext found]
    exact h.found new d
  | none =>
    rw [fst_consultNext_of_missing found]
    exact h.missed new

theorem foldl_shares {request : Request} {actions rest : List Action}
    {known : Prefill × DecisionStore Fingerprint} (h : known.1.Shares request actions)
    (distinct : (actions ++ rest).Nodup) :
    (rest.foldl (consultNext request) known).1.Shares request (actions ++ rest) := by
  induction rest generalizing actions known with
  | nil => simpa using h
  | cons action rest ih =>
    rw [List.append_cons] at distinct ⊢
    have new : action ∉ actions := by
      have first := (List.nodup_append.1 distinct).1
      intro member
      exact (List.nodup_append.1 first).2.2 action member action (List.mem_singleton_self _) rfl
    rw [List.foldl_cons]
    exact ih (shares_next h new) distinct

/-- **Consulting a store splits the request.** -/
theorem consult_splits (store : DecisionStore Fingerprint) {request : Request}
    (distinct : request.actions.Nodup) : (consult store request).1.Splits request := by
  have nothing : Prefill.Shares (({} : Prefill), store).1 request [] := ⟨fun a known => (nomatch known), rfl⟩
  have shared := foldl_shares nothing distinct
  rw [consult_eq]
  exact shared.splits

end Client

end PolicyClient
