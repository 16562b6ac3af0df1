/-
# PolicyClient.Proofs.Check.Entries -- what is wrong with what is to be asked

Names of actions make a question unless one of them is empty, there is none, or one stands twice.
`Request.Fault` says which of these is found and what error it is.  A question cannot be put
together exactly for a fault (`Request.ofNames_eq_error_iff`), and else asks what the names say
(`Request.Asks`).

Of the entries of an inquiry the first with a fault makes all of them fail
(`Request.ofEntries_eq_error_iff`).
-/
import Mathlib.Data.List.Forall2
import Mathlib.Data.List.Nodup
import PolicyClient.Proofs.Check.Identity

namespace PolicyClient

set_option autoImplicit false

/-! ## Making one after the other -/

section Making

variable {ε α β : Type} {f : α → Except ε β} {x : α}

theorem mapM_cons_ok {y : β} (first : f x = .ok y) (l : List α) : (x :: l).mapM f = (l.mapM f).map (y :: ·) := by
  rw [List.mapM_cons, first]
  cases others : l.mapM f <;> rfl

theorem mapM_cons_error {e : ε} (first : f x = .error e) (l : List α) : (x :: l).mapM f = .error e := by
  rw [List.mapM_cons, first]
  rfl

theorem map_eq_ok_iff {γ : Type} (g : β → γ) (made : Except ε β) (z : γ) :
    made.map g = .ok z ↔ ∃ y, made = .ok y ∧ z = g y := by
  cases made <;> simp [Except.map, eq_comm]

theorem map_eq_error_iff {γ : Type} (g : β → γ) (made : Except ε β) (e : ε) :
    made.map g = .error e ↔ made = .error e := by
  cases made <;> simp [Except.map]

variable (f)

theorem mapM_eq_ok_iff (l : List α) (made : List β) :
    l.mapM f = .ok made ↔ List.Forall₂ (fun x y => f x = .ok y) l made := by
  induction l generalizing made with
  | nil => cases made <;> simp [pure, Except.pure]
  | cons x l ih =>
    rw [List.forall₂_cons_left_iff]
    cases first : f x with
    | error e => simp [mapM_cons_error first]
    | ok y =>
      rw [mapM_cons_ok first, map_eq_ok_iff]
      simp [ih]

/-- The first that cannot be made is what is wrong with all. -/
theorem mapM_eq_error_iff (l : List α) (e : ε) :
    l.mapM f = .error e ↔ ∃ early x late, l = early ++ x :: late ∧ (∀ y ∈ early, ∀ e', f y ≠ .error e') ∧
      f x = .error e := by
  induction l with
  | nil => simp [pure, Except.pure]
  | cons x l ih =>
    cases first : f x with
    | error e' =>
      rw [mapM_cons_error first, Except.error.injEq]
      constructor
      · rintro rfl
        exact ⟨[], x, l, rfl, nofun, first⟩
      · rintro ⟨early, y, late, split, passed, failed⟩
        cases early with
        | nil =>
          cases split
          cases first.symm.trans failed
          rfl
        | cons x' early =>
          cases split
          exact absurd first (passed x (List.mem_cons_self ..) e')
    | ok y =>
      rw [mapM_cons_ok first, map_eq_error_iff, ih]
      constructor
      · rintro ⟨early, z, late, rfl, passed, failed⟩
        refine ⟨x :: early, z, late, rfl, List.forall_mem_cons.2 ⟨fun e' => ?_, passed⟩, failed⟩
        rw [first]
        nofun
      · rintro ⟨early, z, late, split, passed, failed⟩
        cases early with
        | nil =>
          cases split
          cases first.symm.trans failed
        | cons x' early =>
          cases split
          exact ⟨early, z, late, rfl, (List.forall_mem_cons.1 passed).2, failed⟩

end Making

/-! ## Names -/

namespace Action

theorem name_injective : Function.Injective Action.name := fun _ _ => ext_name

theorem ofName_eq_ok_iff (name : String) (a : Action) : ofName name = .ok a ↔ a.name = name := by
  rw [← ofName?_eq_some_iff, ofName]
  cases ofName? name <;> simp

theorem ofName_eq_error_iff (name : String) (e : Error) :
    ofName name = .error e ↔ name = "" ∧ e = .invalidArgument .emptyAction := by
  unfold ofName ofName?
  by_cases empty : name = ""
  · simp [empty, eq_comm]
  · simp [empty]

theorem map_name_of_mapM {names : List String} {actions : List Action}
    (made : names.mapM ofName = .ok actions) : actions.map Action.name = names := by
  rw [mapM_eq_ok_iff] at made
  induction made with
  | nil => rfl
  | cons first _ ih => rw [List.map_cons, (ofName_eq_ok_iff _ _).1 first, ih]

theorem mapM_ofName_of_named {names : List String} (named : "" ∉ names) :
    ∃ actions, names.mapM ofName = .ok actions ∧ actions.map Action.name = names := by
  cases made : names.mapM ofName with
  | ok actions => exact ⟨actions, rfl, map_name_of_mapM made⟩
  | error e =>
    obtain ⟨early, name, late, rfl, -, failed⟩ := (mapM_eq_error_iff _ _ _).1 made
    obtain ⟨rfl, -⟩ := (ofName_eq_error_iff name e).1 failed
    exact absurd (List.mem_append_right _ (List.mem_cons_self ..)) named

end Action

namespace Request

theorem firstRepeated?_eq_none_iff (seen actions : List Action) :
    firstRepeated? seen actions = none ↔ actions.Nodup ∧ ∀ a ∈ actions, a ∉ seen := by
  induction actions generalizing seen with
  | nil => simp [firstRepeated?]
  | cons a actions ih =>
    by_cases again : a ∈ seen
    · simp [firstRepeated?, again]
    · rw [firstRepeated?, if_neg again, ih, List.nodup_cons]
      constructor
      · rintro ⟨distinct, apart⟩
        refine ⟨⟨fun later => apart a later (List.mem_cons_self ..), distinct⟩, ?_⟩
        intro b member
        rcases List.mem_cons.1 member with rfl | later
        · exact again
        · exact fun before => apart b later (List.mem_cons_of_mem _ before)
      · rintro ⟨⟨once, distinct⟩, apart⟩
        refine ⟨distinct, fun b later => ?_⟩
        rw [List.mem_cons, not_or]
        exact ⟨fun same => once (same ▸ later), apart b (List.mem_cons_of_mem _ later)⟩

/-- The first action that is repeated is the first that stands among the earlier ones. -/
theorem firstRepeated?_eq_some_iff (seen actions : List Action) (a : Action) :
    firstRepeated? seen actions = some a ↔ ∃ early late, actions = early ++ a :: late ∧
      firstRepeated? seen early = none ∧ (a ∈ seen ∨ a ∈ early) := by
  induction actions generalizing seen with
  | nil => simp [firstRepeated?]
  | cons b actions ih =>
    by_cases again : b ∈ seen
    · rw [firstRepeated?, if_pos again, Option.some.injEq]
      constructor
      · rintro rfl
        exact ⟨[], actions, rfl, rfl, .inl again⟩
      · rintro ⟨early, late, split, distinct, -⟩
        cases early with
        | nil => exact (List.cons.inj split).1
        | cons c early =>
          cases split
          rw [firstRepeated?, if_pos again] at distinct
          cases distinct
    · rw [firstRepeated?, if_neg again, ih]
      constructor
      · rintro ⟨early, late, rfl, distinct, before⟩
        refine ⟨b :: early, late, rfl, ?_, ?_⟩
        · rw [firstRepeated?, if_neg again]
          exact distinct
        · rw [List.mem_cons] at before ⊢
          tauto
      · rintro ⟨early, late, split, distinct, before⟩
        cases early with
        | nil =>
          cases split
          exact absurd (before.resolve_right (List.not_mem_nil)) again
        | cons c early =>
          cases split
          rw [firstRepeated?, if_neg again] at distinct
          refine ⟨early, late, rfl, distinct, ?_⟩
          rw [List.mem_cons] at before ⊢
          tauto

/-- The same, by the names of the actions. -/
theorem firstRepeated?_iff_names (actions : List Action) (a : Action) :
    firstRepeated? [] actions = some a ↔ ∃ early late, actions.map Action.name = early ++ a.name :: late ∧
      early.Nodup ∧ a.name ∈ early := by
  rw [firstRepeated?_eq_some_iff]
  constructor
  · rintro ⟨early, late, rfl, distinct, before⟩
    have once := ((firstRepeated?_eq_none_iff _ _).1 distinct).1
    refine ⟨early.map Action.name, late.map Action.name, by simp, once.map Action.name_injective, ?_⟩
    exact List.mem_map_of_mem (before.resolve_left List.not_mem_nil)
  · rintro ⟨early, late, split, distinct, before⟩
    obtain ⟨first, rest, rfl, rfl, others⟩ := List.map_eq_append_iff.1 split
    obtain ⟨b, later, rfl, same, -⟩ := List.map_eq_cons_iff.1 others
    cases Action.name_injective same
    refine ⟨first, later, rfl, ?_, .inr ?_⟩
    · rw [firstRepeated?_eq_none_iff]
      exact ⟨distinct.of_map _, fun _ _ => List.not_mem_nil⟩
    · exact (List.mem_map_of_injective Action.name_injective).1 before

/-- What is wrong with the names of actions on a resource, and the error that tells it. -/
inductive Fault (resource : Resource) (names : List String) : Error → Prop
  | unnamed (empty : "" ∈ names) : Fault resource names (.invalidArgument .emptyAction)
  | none (nothing : names = []) :
    Fault resource names (.invalidArgument (.noActions resource.kind resource.id))
  /-- This is the first name that stands a second time. -/
  | repeated (early late : List String) (name : String) (split : names = early ++ name :: late)
      (named : "" ∉ names) (distinct : early.Nodup) (again : name ∈ early) :
    Fault resource names (.invalidArgument (.duplicateAction name))

/-- The question puts what an entry says, for this principal. -/
structure Asks (principal : Principal) (entry : Resource × List String) (q : Request) : Prop where
  principal : q.principal = principal
  resource : q.resource = entry.1
  actions : q.actions.map Action.name = entry.2
  auxData : q.auxData = none

variable {principal : Principal} {resource : Resource} {names : List String}

theorem ofActions_eq_error_iff {actions : List Action} (named : "" ∉ actions.map Action.name) (e : Error) :
    ofActions principal resource actions = .error e ↔ Fault resource (actions.map Action.name) e := by
  unfold ofActions
  cases actions with
  | nil =>
    simp only [List.isEmpty_nil, if_true, Except.error.injEq]
    constructor
    · rintro rfl
      exact .none rfl
    · intro fault
      cases fault with
      | unnamed empty => exact absurd empty named
      | none => rfl
      | repeated early late name split => simp at split
  | cons first rest =>
    have found {name : String} {early late : List String}
        (split : (first :: rest).map Action.name = early ++ name :: late) (distinct : early.Nodup)
        (again : name ∈ early) : ∃ a : Action, a.name = name ∧ firstRepeated? [] (first :: rest) = some a := by
      have member : name ∈ (first :: rest).map Action.name := by
        rw [split]
        exact List.mem_append_left _ again
      obtain ⟨a, -, rfl⟩ := List.mem_map.1 member
      exact ⟨a, rfl, (firstRepeated?_iff_names _ _).2 ⟨early, late, split, distinct, again⟩⟩
    simp only [List.isEmpty_cons, Bool.false_eq_true, if_false]
    cases repeats : firstRepeated? [] (first :: rest) with
    | some a =>
      simp only [Except.error.injEq]
      constructor
      · rintro rfl
        obtain ⟨early, late, split, distinct, again⟩ := (firstRepeated?_iff_names _ _).1 repeats
        exact .repeated early late a.name split named distinct again
      · intro fault
        cases fault with
        | unnamed empty => exact absurd empty named
        | none nothing => cases nothing
        | repeated early late name split _ distinct again =>
          obtain ⟨b, rfl, repeats'⟩ := found split distinct again
          cases repeats.symm.trans repeats'
          rfl
    | none =>
      refine ⟨nofun, fun fault => ?_⟩
      cases fault with
      | unnamed empty => exact absurd empty named
      | none nothing => cases nothing
      | repeated early late name split _ distinct again =>
        obtain ⟨b, -, repeats'⟩ := found split distinct again
        cases repeats.symm.trans repeats'

/-- A question that cannot be put together has a fault, and the other way round. -/
theorem ofNames_eq_error_iff (e : Error) :
    ofNames principal resource names = .error e ↔ Fault resource names e := by
  by_cases empty : "" ∈ names
  · obtain ⟨early, late, split, before⟩ := List.eq_append_cons_of_mem empty
    have failed : names.mapM Action.ofName = .error (.invalidArgument .emptyAction) := by
      rw [mapM_eq_error_iff]
      refine ⟨early, "", late, split, fun name member e' failed => ?_, rfl⟩
      obtain ⟨rfl, -⟩ := (Action.ofName_eq_error_iff name e').1 failed
      exact before member
    rw [ofNames, failed]
    change (Except.error _ : Except Error Request) = .error e ↔ _
    rw [Except.error.injEq]
    constructor
    · rintro rfl
      exact .unnamed empty
    · intro fault
      cases fault with
      | unnamed => rfl
      | none nothing =>
        rw [nothing] at empty
        cases empty
      | repeated early late name split named => exact absurd empty named
  · obtain ⟨actions, made, rfl⟩ := Action.mapM_ofName_of_named empty
    rw [ofNames, made]
    exact ofActions_eq_error_iff empty e

theorem asks_of_ofNames {q : Request} (made : ofNames principal resource names = .ok q) :
    q.Asks principal (resource, names) := by
  obtain ⟨actions, named, asked⟩ := ok_of_bind made
  cases ofActions_eq_ok asked
  exact ⟨rfl, rfl, Action.map_name_of_mapM named, rfl⟩

/-! ## Entries -/

/-- The first entry with a fault is what is wrong with all. -/
theorem ofEntries_eq_error_iff (principal : Principal) (entries : List (Resource × List String)) (e : Error) :
    ofEntries principal entries = .error e ↔ ∃ early entry late, entries = early ++ entry :: late ∧
      (∀ earlier ∈ early, ∀ e', ¬ Fault earlier.1 earlier.2 e') ∧ Fault entry.1 entry.2 e := by
  simp only [ofEntries, mapM_eq_error_iff, ne_eq, ofNames_eq_error_iff]

theorem asks_of_ofEntries {entries : List (Resource × List String)} {questions : List Request}
    (made : ofEntries principal entries = .ok questions) :
    List.Forall₂ (fun entry q => q.Asks principal entry) entries questions :=
  ((mapM_eq_ok_iff _ _ _).1 made).imp fun _ _ => asks_of_ofNames

end Request

end PolicyClient
