/-
# PolicyClient.Wire.Conversion -- questions and answers as messages

What is absent in the domain is the empty text on the wire, and domain texts that may be
absent are never empty, so nothing is lost on the way out.  On the way in an unset value
is null, an entry for the action with the empty name is dropped, and of two outputs of
one rule the later counts.
-/
import PolicyClient.Check.Answer
import PolicyClient.Check.Request
import PolicyClient.Wire.Message

namespace PolicyClient

set_option autoImplicit false

/-! ## Values -/

namespace Value

mutual

def toWire : Value → Wire.Value
  | null => .null
  | bool b => .bool b
  | number n => .number n
  | text s => .text s
  | list items => .list (itemsToWire items)
  | map fields => .struct (fieldsToWire fields)

def itemsToWire : List Value → List Wire.Value
  | [] => []
  | v :: rest => toWire v :: itemsToWire rest

def fieldsToWire : List (String × Value) → List (String × Wire.Value)
  | [] => []
  | (k, v) :: rest => (k, toWire v) :: fieldsToWire rest

end

mutual

def ofWire : Wire.Value → Value
  | .unset | .null => null
  | .bool b => bool b
  | .number n => number n
  | .text s => text s
  | .list items => list (itemsOfWire items)
  | .struct fields => ofEntries (fieldsOfWire fields)

def itemsOfWire : List Wire.Value → List Value
  | [] => []
  | v :: rest => ofWire v :: itemsOfWire rest

def fieldsOfWire : List (String × Wire.Value) → List (String × Value)
  | [] => []
  | (k, v) :: rest => (k, ofWire v) :: fieldsOfWire rest

end

end Value

/-! ## Questions -/

def Principal.toWire (p : Principal) : Wire.Principal :=
  { id := p.id
    policyVersion := p.policyVersion.getD ""
    roles := p.roleNames
    attributes := Value.fieldsToWire p.attributes.entries
    scope := p.scope.getD "" }

def Resource.toWire (r : Resource) : Wire.Resource :=
  { kind := r.kind
    policyVersion := r.policyVersion.getD ""
    id := r.id
    attributes := Value.fieldsToWire r.attributes.entries
    scope := r.scope.getD "" }

def AuxData.toWire (a : AuxData) : Wire.AuxData := ⟨a.token, a.keySet.getD ""⟩

namespace Request

/-- The entry that asks about this request's resource and actions. -/
def toEntry (r : Request) : Wire.ResourceEntry := ⟨r.actions.map Action.name, r.resource.toWire⟩

/-- What this request adds to the size of a call, counting its principal and auxiliary
data as if no other request shared them. -/
def estimatedSize (r : Request) : Nat :=
  r.toEntry.encode.length + r.principal.toWire.encode.length +
    (r.auxData.elim 0 fun a => a.toWire.encode.length)

end Request

/-! ## Answers -/

def ValidationError.ofWire (e : Wire.ValidationError) : ValidationError :=
  ⟨e.path, e.message, .ofNumber e.source⟩

/-- The answer that an entry of a response gives. -/
def Answer.ofEntry (e : Wire.ResultEntry) : Answer :=
  { decisions := Table.ofList (e.effects.entries.filterMap fun (name, effect) =>
      (Action.ofName? name).map fun action => (action, Decision.ofEffect effect))
    validationErrors := e.validationErrors.map ValidationError.ofWire
    outputs := Table.ofList (e.outputs.map fun o =>
      (o.rule, (o.value.map Value.ofWire).getD .null)) }

end PolicyClient
