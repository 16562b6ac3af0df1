/-
# PolicyClient.Wire.Nesting -- messages that stand too deep inside each other

A reader takes no more than `nestingLimit` messages inside each other.  The entries of a
map are messages, and so are values, lists and structures.  `overflow?` goes through a
message in the order of its fields, with `depth` messages that may still open inside it,
and gives the trail of the first message for which there is no room: the fields that lead
to it, from the innermost outwards.
-/
import PolicyClient.Wire.Message

namespace PolicyClient

set_option autoImplicit false

namespace Wire

/-- Fields from the innermost outwards. -/
abbrev Trail := List String

/-- What a reader says of a message without room. -/
def Trail.message (trail : Trail) : String :=
  "failed to decode Protobuf message: " ++ String.join (trail.map (· ++ ": ")) ++
    "recursion limit reached"

/-- A message in `field`, with `depth` messages that may still open; `inside` goes through
it. -/
def inField (field : String) (depth : Nat) (inside : (depth : Nat) → Option Trail) :
    Option Trail :=
  match depth with
  | 0 => some [field]
  | inner + 1 => (inside inner).map (· ++ [field])

namespace Value

mutual

def overflow? : Value → (depth : Nat) → Option Trail
  | struct fields, depth => inField "Value.kind" depth (fieldsOverflow? "Struct.fields" fields)
  | list items, depth => inField "Value.kind" depth (itemsOverflow? items)
  | _, _ => none

/-- The entries of the map `field`.  An unset value is not written. -/
def fieldsOverflow? (field : String) : List (String × Value) → (depth : Nat) → Option Trail
  | [], _ => none
  | (_, v) :: rest, depth =>
    let entry := match depth with
      | 0 => some [field]
      | 1 => if v.isUnset then none else some [field]
      | inner + 2 => (overflow? v inner).map (· ++ [field])
    entry.or (fieldsOverflow? field rest depth)

def itemsOverflow? : List Value → (depth : Nat) → Option Trail
  | [], _ => none
  | v :: rest, depth =>
    (inField "ListValue.values" depth (overflow? v)).or (itemsOverflow? rest depth)

end

end Value

/-! ## Calls -/

def Principal.overflow? (p : Principal) : (depth : Nat) → Option Trail :=
  Value.fieldsOverflow? "Principal.attr" p.attributes

def Resource.overflow? (r : Resource) : (depth : Nat) → Option Trail :=
  Value.fieldsOverflow? "Resource.attr" r.attributes

def ResourceEntry.overflow? (e : ResourceEntry) (depth : Nat) : Option Trail :=
  inField "ResourceEntry.resource" depth e.resource.overflow?

/-- The first message of a call that a reader has no room for. -/
def CheckCall.overflow? (c : CheckCall) : Option Trail :=
  (inField "CheckResourcesRequest.principal" nestingLimit c.principal.overflow?).or
    (c.resources.findSome? fun e =>
      inField "CheckResourcesRequest.resources" nestingLimit e.overflow?)

/-! ## Responses -/

def OutputEntry.overflow? (o : OutputEntry) (depth : Nat) : Option Trail :=
  o.value.bind fun v => inField "OutputEntry.val" depth v.overflow?

def ResultEntry.overflow? (e : ResultEntry) (depth : Nat) : Option Trail :=
  e.outputs.findSome? fun o => inField "ResultEntry.outputs" depth o.overflow?

/-- The first message of a response that a reader has no room for. -/
def CheckResponse.overflow? (r : CheckResponse) : Option Trail :=
  r.results.findSome? fun e =>
    inField "CheckResourcesResponse.results" nestingLimit e.overflow?

end Wire

end PolicyClient
