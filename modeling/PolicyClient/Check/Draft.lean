/-
# PolicyClient.Check.Draft -- a principal or resource being put together

A draft collects names and attributes in any order and checks nothing.  Roles form a set,
and of two values for one attribute the later one counts.
-/
import PolicyClient.Error
import PolicyClient.Value

namespace PolicyClient

set_option autoImplicit false

/-- The text, unless it is empty. -/
def nonempty? (s : Option String) : Option String := s.filter (· ≠ "")

/-- What a principal or a resource is built from, before anything is checked. -/
structure Draft where
  id : String
  roles : Table String Unit := .empty
  attributes : Attributes := .empty
  policyVersion : Option String := none
  scope : Option String := none

namespace Draft

def withRole (d : Draft) (role : String) : Draft := { d with roles := d.roles.insert role () }

def withRoles (d : Draft) (roles : List String) : Draft := roles.foldl withRole d

/-- Sets an attribute, in place of any value it had. -/
def withAttribute (d : Draft) (name : String) (value : Value) : Draft :=
  { d with attributes := d.attributes.insert name value }

def withAttributes (d : Draft) (entries : List (String × Value)) : Draft :=
  { d with attributes := d.attributes.insertAll entries }

def withPolicyVersion (d : Draft) (version : String) : Draft :=
  { d with policyVersion := some version }

def withScope (d : Draft) (scope : String) : Draft := { d with scope := some scope }

end Draft

end PolicyClient
