/-
# PolicyClient.Remote.Metadata -- headers that go with every call

A header has a name of token characters, compared without regard to case, and a value of
visible text.  Names that end in `-bin` are for values of another form and are refused.
Of two headers with one name the later is sent.
-/
import PolicyClient.Error

namespace PolicyClient

set_option autoImplicit false

namespace Remote

/-- A checked header: a name in lower case, and a value. -/
structure Header where
  name : String
  value : String
deriving DecidableEq, Inhabited, Repr

namespace Header

/-- The longest name. -/
def maxNameLength : Nat := 65535

/-- Characters of header names. -/
def isTokenChar (c : Char) : Bool :=
  c.isAlphanum || "!#$%&'*+-.^_`|~".toList.contains c

/-- Characters of header values: all but controls, the tab excepted. -/
def isValueChar (c : Char) : Bool :=
  c = '\t' || (32 ≤ c.toNat && c.toNat ≠ 127)

def isName (name : String) : Bool :=
  !name.isEmpty && name.length ≤ maxNameLength && name.toList.all isTokenChar &&
    !"-bin".toList.isSuffixOf (name.toList.map Char.toLower)

def isValue (value : String) : Bool := value.toList.all isValueChar

/-- A header of this name and value. -/
def of (name value : String) : Except Error Header :=
  if !isName name then .error (.invalidArgument (.headerName name))
  else if !isValue value then .error (.invalidArgument (.headerValue name))
  else .ok ⟨String.ofList (name.toList.map Char.toLower), value⟩

end Header

/-- The headers that a call carries, by name. -/
def sentHeaders (headers : List Header) : Table String String :=
  Table.ofList (headers.map fun h => (h.name, h.value))

end Remote

end PolicyClient
