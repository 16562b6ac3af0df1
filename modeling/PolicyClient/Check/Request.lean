/-
# PolicyClient.Check.Request -- one authorization question

May a principal perform each of some actions on a resource?  A request names at least one
action and names none twice (`Request.ofActions`).
-/
import PolicyClient.Check.Action
import PolicyClient.Check.AuxData
import PolicyClient.Check.Principal
import PolicyClient.Check.Resource

namespace PolicyClient

set_option autoImplicit false

/-- One question: each of `actions`, in the order given. -/
structure Request where
  principal : Principal
  resource : Resource
  actions : List Action
  auxData : Option AuxData

namespace Request

/-- The first action that stands a second time in the list, given those already seen. -/
def firstRepeated? (seen : List Action) : List Action → Option Action
  | [] => none
  | a :: rest => if a ∈ seen then some a else firstRepeated? (a :: seen) rest

/-- The question about these actions. -/
def ofActions (principal : Principal) (resource : Resource) (actions : List Action) :
    Except Error Request :=
  if actions.isEmpty then
    .error (.invalidArgument (.noActions resource.kind resource.id))
  else match firstRepeated? [] actions with
    | some a => .error (.invalidArgument (.duplicateAction a.name))
    | none => .ok ⟨principal, resource, actions, none⟩

/-- The question about the actions of these names. -/
def ofNames (principal : Principal) (resource : Resource) (names : List String) :
    Except Error Request := do
  let actions ← names.mapM Action.ofName
  ofActions principal resource actions

/-- One question for each resource with the names of some actions.  The first of them that cannot be
put together is what is wrong with all. -/
def ofEntries (principal : Principal) (entries : List (Resource × List String)) :
    Except Error (List Request) :=
  entries.mapM fun (resource, names) => ofNames principal resource names

def withAuxData (r : Request) (a : AuxData) : Request := { r with auxData := some a }

/-- The same question about those actions only that `keep` accepts. -/
def restrict (r : Request) (keep : Action → Bool) : Request :=
  { r with actions := r.actions.filter keep }

/-- Equality of all parts, numbers compared as numbers. -/
def same (r s : Request) : Bool :=
  r.principal.same s.principal && r.resource.same s.resource && r.actions == s.actions &&
    r.auxData == s.auxData

/-- Byte form of who is asking: principal and auxiliary data. -/
def encodeAsker (r : Request) : List UInt8 :=
  r.principal.encode ++ AuxData.encodeOptional r.auxData

/-- Requests with equal keys may travel in one call. -/
def groupKey (r : Request) : Digest := Digest.of r.encodeAsker

end Request

end PolicyClient
