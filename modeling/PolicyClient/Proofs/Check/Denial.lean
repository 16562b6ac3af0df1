/-
# PolicyClient.Proofs.Check.Denial -- an answer allows only what was allowed

An answer comes from an entry of a response.  What is known of the request beforehand is merged
into it, perhaps several times, and outputs of rules may be added (`Answer.Supplement`).

The entry names actions: those with a name that is not empty, each with an effect
(`Wire.ResultEntry.effect?`).  Whatever supplements the answer, a named action is allowed by the
effect 1 alone, any other action by the first of the merged tables that decides it; and nothing
is decided, nothing listed and nothing remembered while the entry complains about an attribute
(`Answer.allows_only_allowed`).
-/
import PolicyClient.Proofs.Cache.Lookup
import PolicyClient.Proofs.Check.Policy
import PolicyClient.Wire.Conversion

namespace PolicyClient

set_option autoImplicit false

/-- What the entry says about an action.  The empty text names no action. -/
def Wire.ResultEntry.effect? (e : Wire.ResultEntry) (name : String) : Option Int :=
  if name = "" then none else e.effects.get? name

namespace Answer

/-- What is added to an answer. -/
inductive Supplement
  /-- The output of a rule. -/
  | output (rule : String) (value : Value)
  /-- Decisions that are known already. -/
  | known (decisions : Table Action Decision)

namespace Supplement

def isOutput : Supplement → Bool
  | output _ _ => true
  | known _ => false

/-- The decision that it brings on an action. -/
def decision? (a : Action) : Supplement → Option Decision
  | output _ _ => none
  | known decisions => decisions.get? a

def apply (r : Answer) : Supplement → Answer
  | output rule value => r.withOutput rule value
  | known decisions => r.merge decisions

/-- The earliest decision on the action of this name. -/
def earliest? (all : List Supplement) (name : String) : Option Decision :=
  (Action.ofName? name).bind fun a => all.findSome? (decision? a)

end Supplement

/-- The answer with all of these added, in order. -/
def supplemented (r : Answer) (all : List Supplement) : Answer := all.foldl Supplement.apply r

/-! ## What a supplement changes -/

theorem validationErrors_supplemented (r : Answer) (all : List Supplement) :
    (r.supplemented all).validationErrors = r.validationErrors := by
  induction all generalizing r with
  | nil => rfl
  | cons first rest ih =>
    refine (ih (first.apply r)).trans ?_
    cases first with
    | output rule value => rfl
    | known decisions => rfl

/-- What an answer decides itself counts before everything that is added. -/
theorem get?_supplemented (r : Answer) (all : List Supplement) (a : Action) :
    (r.supplemented all).decisions.get? a =
      (r.decisions.get? a).or (all.findSome? (Supplement.decision? a)) := by
  induction all generalizing r with
  | nil => exact Option.or_none.symm
  | cons first rest ih =>
    refine (ih (first.apply r)).trans ?_
    cases first with
    | output rule value => rfl
    | known decisions =>
      rw [Supplement.apply, get?_merge, Option.or_assoc, List.findSome?_cons, Supplement.decision?]
      cases decisions.get? a with
      | none => rfl
      | some d => rfl

/-- Outputs that are there stay, and those that are added come to them. -/
theorem outputs_supplemented_eq_empty_iff (r : Answer) (all : List Supplement) :
    (r.supplemented all).outputs = .empty ↔ r.outputs = .empty ∧ ∀ s ∈ all, s.isOutput = false := by
  induction all generalizing r with
  | nil => exact ⟨fun none => ⟨none, nofun⟩, And.left⟩
  | cons first rest ih =>
    refine (ih (first.apply r)).trans ?_
    rw [List.forall_mem_cons, ← and_assoc]
    refine and_congr_left fun _ => ?_
    cases first with
    | output rule value =>
      exact ⟨fun none => absurd none (Table.insert_ne_empty r.outputs rule value), fun ⟨_, other⟩ => nomatch other⟩
    | known decisions => exact ⟨fun none => ⟨none, rfl⟩, And.left⟩

/-! ## What an entry decides -/

/-- An action is decided by the effect that the entry gives under its name. -/
theorem get?_ofEntry (e : Wire.ResultEntry) (a : Action) :
    (ofEntry e).decisions.get? a = (e.effect? a.name).map Decision.ofEffect := by
  have distinct : ((e.effects.entries.filterMap fun entry =>
      (Action.ofName? entry.1).map fun action => (action, Decision.ofEffect entry.2)).map (·.1)).Nodup := by
    refine List.pairwise_map.2 (List.pairwise_filterMap.2 ((List.pairwise_map.1 e.effects.nodup_keys).imp ?_))
    intro entry entry' apart decided found decided' found' same
    obtain ⟨action, name, rfl⟩ := Option.map_eq_some_iff.1 found
    obtain ⟨action', name', rfl⟩ := Option.map_eq_some_iff.1 found'
    rw [Action.ofName?_eq_some_iff] at name name'
    exact apart (by rw [← name, ← name', show action = action' from same])
  refine Option.ext fun d => ?_
  rw [ofEntry, Table.get?_ofList_eq_some_iff distinct, Wire.ResultEntry.effect?, if_neg a.nonempty]
  simp only [List.mem_filterMap, Option.map_eq_some_iff, Table.get?_eq_some_iff, Prod.mk.injEq, Prod.exists,
    Action.ofName?_eq_some_iff]
  constructor
  · rintro ⟨name, effect, member, action, rfl, rfl, rfl⟩
    exact ⟨effect, member, rfl⟩
  · rintro ⟨effect, member, rfl⟩
    exact ⟨a.name, effect, member, a, rfl, rfl, rfl⟩

theorem outputs_ofEntry_eq_empty_iff (e : Wire.ResultEntry) : (ofEntry e).outputs = .empty ↔ e.outputs = [] := by
  rw [ofEntry, Table.ofList_eq_empty_iff, List.map_eq_nil_iff]

theorem validationErrors_ofEntry_eq_nil_iff (e : Wire.ResultEntry) :
    (ofEntry e).validationErrors = [] ↔ e.validationErrors = [] := by
  rw [ofEntry, List.map_eq_nil_iff]

/-! ## Merging twice -/

theorem merge_merge_self (r : Answer) (known : Table Action Decision) :
    (r.merge known).merge known = r.merge known := by
  have same : ((r.merge known).merge known).decisions = (r.merge known).decisions := Table.ext_get? fun a => by
    rw [get?_merge (r.merge known), get?_merge, Option.or_assoc, Option.or_self]
  exact congrArg (fun decisions => { r with decisions }) same

/-! ## What an answer says -/

variable (e : Wire.ResultEntry) (all : List Supplement)

/-- The answer of an entry with all that is added to it. -/
abbrev told : Answer := (ofEntry e).supplemented all

theorem validationErrors_told : (told e all).validationErrors = [] ↔ e.validationErrors = [] := by
  rw [validationErrors_supplemented, validationErrors_ofEntry_eq_nil_iff]

theorem decision?_told_of_invalid (invalid : e.validationErrors ≠ []) (name : String) :
    (told e all).decision? name = none := by
  have held := mt (validationErrors_told e all).1 invalid
  simp [decision?, hasValidationErrors, held]

theorem decision?_told (valid : e.validationErrors = []) (name : String) :
    (told e all).decision? name =
      ((e.effect? name).map Decision.ofEffect).or (Supplement.earliest? all name) := by
  have held := (validationErrors_told e all).2 valid
  by_cases empty : name = ""
  · subst empty
    simp [decision?, hasValidationErrors, held, Supplement.earliest?, Wire.ResultEntry.effect?, Action.ofName?]
  · obtain ⟨a, rfl⟩ : ∃ a : Action, a.name = name := ⟨⟨name, empty⟩, rfl⟩
    rw [decision?_name held, get?_supplemented, get?_ofEntry, Supplement.earliest?, Action.ofName?_name,
      Option.bind_some]

theorem isCacheable_told_iff : (told e all).isCacheable = true ↔
    e.validationErrors = [] ∧ e.outputs = [] ∧ ∀ s ∈ all, s.isOutput = false := by
  rw [isCacheable_iff, validationErrors_told, outputs_supplemented_eq_empty_iff, outputs_ofEntry_eq_empty_iff]

theorem isAllowed_told_iff (name : String) : (told e all).isAllowed name = true ↔
    e.validationErrors = [] ∧
      (e.effect? name = some 1 ∨ (e.effect? name = none ∧ Supplement.earliest? all name = some .allow)) := by
  rw [isAllowed, decide_eq_true_iff]
  by_cases valid : e.validationErrors = []
  · rw [decision?_told e all valid]
    cases named : e.effect? name with
    | none => simp [valid]
    | some effect => by_cases one : effect = 1 <;> simp [valid, one, Decision.ofEffect]
  · simp [decision?_told_of_invalid e all valid, valid]

/-- The decisions are listed by name, each action once. -/
theorem decisionList_sorted (r : Answer) : r.decisionList.Pairwise fun a b => a.1.name < b.1.name := by
  rw [decisionList]
  split
  · exact .nil
  · exact r.decisions.ordered.imp fun lt => compareOfLessAndEq_eq_lt.1 lt

theorem mem_decisionList_iff (r : Answer) (a : Action) (d : Decision) :
    (a, d) ∈ r.decisionList ↔ r.decision? a.name = some d := by
  rw [decisionList, decision?, Action.ofName?_name, Option.bind_some]
  split
  · simp
  · exact (r.decisions.get?_eq_some_iff a d).symm

/-- **An answer allows only what was allowed.**  Whatever is added to the answer of an entry, it allows
an action exactly when the entry is free of complaints and gives the action the effect 1, or does not
name it and the earliest decision that was merged allows it.  Any other effect denies.  A complaint
silences the answer altogether; without one the decisions are listed by name, those of the entry
before those that were merged.  Only an answer without complaints and outputs is remembered, and
merging once more what has been merged changes nothing. -/
theorem allows_only_allowed :
    (∀ name, (told e all).isAllowed name = true ↔ e.validationErrors = [] ∧
      (e.effect? name = some 1 ∨ (e.effect? name = none ∧ Supplement.earliest? all name = some .allow))) ∧
    (∀ name effect, e.validationErrors = [] → e.effect? name = some effect → effect ≠ 1 →
      (told e all).decision? name = some .deny) ∧
    (e.validationErrors ≠ [] → (∀ name, (told e all).decision? name = none) ∧
      (told e all).decisionList = [] ∧ (told e all).isCacheable = false) ∧
    (e.validationErrors = [] → ((told e all).decisionList.Pairwise fun a b => a.1.name < b.1.name) ∧
      ∀ a d, (a, d) ∈ (told e all).decisionList ↔
        ((e.effect? a.name).map Decision.ofEffect).or (Supplement.earliest? all a.name) = some d) ∧
    ((told e all).isCacheable = true ↔
      e.validationErrors = [] ∧ e.outputs = [] ∧ ∀ s ∈ all, s.isOutput = false) ∧
    ∀ known, ((told e all).merge known).merge known = (told e all).merge known := by
  refine ⟨isAllowed_told_iff e all, ?_, ?_, ?_, isCacheable_told_iff e all, merge_merge_self _⟩
  · intro name effect valid named other
    rw [decision?_told e all valid, named]
    simp [Decision.ofEffect, other]
  · intro invalid
    have held : (told e all).hasValidationErrors = true := by
      simpa [hasValidationErrors] using mt (validationErrors_told e all).1 invalid
    refine ⟨decision?_told_of_invalid e all invalid, by rw [decisionList, if_pos held], ?_⟩
    rw [← Bool.not_eq_true, isCacheable_told_iff]
    exact fun cacheable => invalid cacheable.1
  · intro valid
    refine ⟨decisionList_sorted _, fun a d => ?_⟩
    rw [mem_decisionList_iff, decision?_told e all valid]

/-- An entry that allows the empty name and printing, and says something else of erasing. -/
def oddEffects : Wire.ResultEntry := { effects := .ofList [("", 1), ("erase", 7), ("print", 1)] }

def erase : Action := ⟨"erase", by decide⟩

def share : Action := ⟨"share", by decide⟩

/-- Erasing and sharing were allowed before; later sharing is denied. -/
def allowedBefore : List Supplement :=
  [.known (.ofList [(erase, .allow), (share, .allow)]), .known (.ofList [(share, .deny)])]

/-- The answer denies erasing, allows printing, and allows sharing, as was known first; the empty name
is not allowed. -/
theorem odd_effects_told : oddEffects.validationErrors = [] ∧
    (told oddEffects allowedBefore).decision? "erase" = some .deny ∧
    (told oddEffects allowedBefore).isAllowed "print" = true ∧
    (told oddEffects allowedBefore).isAllowed "share" = true ∧
    (told oddEffects allowedBefore).isAllowed "" ≠ true := by
  obtain ⟨allowed, denied, -⟩ := allows_only_allowed oddEffects allowedBefore
  refine ⟨rfl, denied "erase" 7 rfl (by decide) (by decide), (allowed "print").2 ⟨rfl, .inl (by decide)⟩,
    (allowed "share").2 ⟨rfl, .inr ⟨by decide, by decide⟩⟩, mt (allowed "").1 (by decide)⟩

end Answer

end PolicyClient
