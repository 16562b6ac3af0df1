/-
# PolicyClient.Check.Resource -- what is being accessed

A resource has a kind, an id and attributes; kind and id are not empty.  One that does
not exist yet stands under a fixed id.
-/
import PolicyClient.Check.Draft

namespace PolicyClient

set_option autoImplicit false

/-- The object being accessed. -/
structure Resource where
  kind : String
  id : String
  attributes : Attributes
  policyVersion : Option String
  scope : Option String

namespace Resource

/-- The id of a resource that does not exist yet. -/
def newId : String := "_NEW_"

/-- The resource of this kind with the id and attributes of a draft. -/
def ofDraft (kind : String) (d : Draft) : Except Error Resource :=
  if kind = "" then .error (.invalidArgument .emptyResourceKind)
  else if d.id = "" then .error (.invalidArgument .emptyResourceId)
  else .ok ⟨kind, d.id, d.attributes, nonempty? d.policyVersion, nonempty? d.scope⟩

/-- A resource of this kind that does not exist yet. -/
def newInstance (kind : String) : Except Error Resource := ofDraft kind { id := newId }

/-- Equality of all parts, numbers compared as numbers. -/
def same (r s : Resource) : Bool :=
  r.kind == s.kind && r.id == s.id &&
    Value.sameFields r.attributes.entries s.attributes.entries &&
    r.policyVersion == s.policyVersion && r.scope == s.scope

/-- Byte form: kind, id, attributes, policy version, scope. -/
def encode (r : Resource) : List UInt8 :=
  Encoding.text r.kind ++ Encoding.text r.id ++ r.attributes.encode ++
    Encoding.optionalText r.policyVersion ++ Encoding.optionalText r.scope

end Resource

end PolicyClient
