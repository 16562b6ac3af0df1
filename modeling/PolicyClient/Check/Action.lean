/-
# PolicyClient.Check.Action -- what a principal wants to do

Actions are an open vocabulary; the only rule is that a name is not empty.  They are
ordered by name.
-/
import PolicyClient.Error

namespace PolicyClient

set_option autoImplicit false

/-- The name of an action. -/
structure Action where
  name : String
  nonempty : name ≠ ""

namespace Action

@[ext] theorem ext_name {a b : Action} (h : a.name = b.name) : a = b := by
  cases a; cases b; cases h; rfl

instance : DecidableEq Action := fun a b =>
  decidable_of_iff (a.name = b.name) ⟨ext_name, fun h => h ▸ rfl⟩

instance : Ord Action := Ord.byKey Action.name

instance : Std.TransOrd Action := Ord.byKey_trans Action.name

instance : Std.LawfulEqOrd Action := Ord.byKey_lawfulEq Action.name ext_name

/-- The action of this name; the empty text names none. -/
def ofName? (name : String) : Option Action :=
  if h : name = "" then none else some ⟨name, h⟩

/-- The action of this name. -/
def ofName (name : String) : Except Error Action :=
  match ofName? name with
  | some a => .ok a
  | none => .error (.invalidArgument .emptyAction)

@[simp] theorem ofName?_name (a : Action) : ofName? a.name = some a := by
  simp [ofName?, a.nonempty]

theorem ofName?_eq_some_iff {name : String} {a : Action} : ofName? name = some a ↔ a.name = name := by
  constructor
  · intro h
    unfold ofName? at h
    split at h
    · cases h
    · cases h; rfl
  · rintro rfl
    exact a.ofName?_name

end Action

end PolicyClient
