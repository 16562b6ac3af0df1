/-
# PolicyClient.Check.Principal -- who is asking

A principal has an id, at least one role, and attributes; no name among these is empty.
An empty policy version or scope is the same as none.
-/
import PolicyClient.Check.Draft

namespace PolicyClient

set_option autoImplicit false

/-- The identity that requests access. -/
structure Principal where
  id : String
  roles : Table String Unit
  attributes : Attributes
  policyVersion : Option String
  scope : Option String

namespace Principal

/-- The principal of a draft, if its names are complete. -/
def ofDraft (d : Draft) : Except Error Principal :=
  if d.id = "" then .error (.invalidArgument .emptyPrincipalId)
  else if d.roles.isEmpty then .error (.invalidArgument (.noRoles d.id))
  else if d.roles.contains "" then .error (.invalidArgument .emptyRole)
  else .ok ⟨d.id, d.roles, d.attributes, nonempty? d.policyVersion, nonempty? d.scope⟩

def roleNames (p : Principal) : List String := p.roles.keys

/-- Equality of all parts, numbers compared as numbers. -/
def same (p q : Principal) : Bool :=
  p.id == q.id && p.roleNames == q.roleNames &&
    Value.sameFields p.attributes.entries q.attributes.entries &&
    p.policyVersion == q.policyVersion && p.scope == q.scope

/-- Byte form: id, roles, attributes, policy version, scope. -/
def encode (p : Principal) : List UInt8 :=
  Encoding.text p.id ++
    (Encoding.count p.roleNames.length ++ p.roleNames.flatMap Encoding.text) ++
    p.attributes.encode ++ Encoding.optionalText p.policyVersion ++ Encoding.optionalText p.scope

end Principal

end PolicyClient
