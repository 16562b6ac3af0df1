/-
# PolicyClient.Wire.Message -- the messages of the CheckResources call

One call asks about several resources for one principal; the response holds one entry per
resource, in the same order.  A text that is absent on the wire is the empty text, so the
messages have no optional texts.

Each message type has its byte form beside it.  Fields stand in the order of their tags.
-/
import PolicyClient.Binary64
import PolicyClient.Table
import PolicyClient.Wire.Field

namespace PolicyClient

set_option autoImplicit false

namespace Wire

/-- The method that answers checks. -/
def checkResourcesPath : String := "/cerbos.svc.v1.CerbosService/CheckResources"

/-- How many messages may stand inside each other. -/
def nestingLimit : Nat := 100

/-! ## Values -/

/-- A value on the wire; `unset` is a value message that says nothing. -/
inductive Value
  | unset
  | null
  | number (n : Binary64)
  | text (s : String)
  | bool (b : Bool)
  /-- Fields in key order. -/
  | struct (fields : List (String × Value))
  | list (items : List Value)
deriving Inhabited, Repr

namespace Value

def isUnset : Value → Bool
  | unset => true
  | _ => false

mutual

def encode : Value → List UInt8
  | unset => []
  | null => key 1 .varint ++ [0]
  | number n => key 2 .eightBytes ++ littleEndian 8 n.bits.toNat
  | text s => textAlways 3 s
  | bool b => boolAlways 4 b
  | struct fields => delimited 5 (encodeFields 1 fields)
  | list items => delimited 6 (encodeItems items)

/-- The entries of a map, each a message of the field `tag` with a key and a value. -/
def encodeFields (tag : Nat) : List (String × Value) → List UInt8
  | [] => []
  | (k, v) :: rest =>
    let value := if v.isUnset then [] else delimited 2 (encode v)
    delimited tag (textField 1 k ++ value) ++ encodeFields tag rest

def encodeItems : List Value → List UInt8
  | [] => []
  | v :: rest => delimited 1 (encode v) ++ encodeItems rest

end

end Value

/-! ## The call -/

structure Principal where
  id : String
  policyVersion : String
  roles : List String
  attributes : List (String × Value)
  scope : String

def Principal.encode (p : Principal) : List UInt8 :=
  textField 1 p.id ++ textField 2 p.policyVersion ++ p.roles.flatMap (textAlways 3) ++
    Value.encodeFields 4 p.attributes ++ textField 5 p.scope

structure Resource where
  kind : String
  policyVersion : String
  id : String
  attributes : List (String × Value)
  scope : String

def Resource.encode (r : Resource) : List UInt8 :=
  textField 1 r.kind ++ textField 2 r.policyVersion ++ textField 3 r.id ++
    Value.encodeFields 4 r.attributes ++ textField 5 r.scope

/-- A token to verify, and the key set to verify it with. -/
structure AuxData where
  token : String
  keySet : String
deriving DecidableEq

def AuxData.encode (a : AuxData) : List UInt8 := delimited 1 (textField 1 a.token ++ textField 2 a.keySet)

/-- The actions asked about one resource. -/
structure ResourceEntry where
  actions : List String
  resource : Resource

def ResourceEntry.encode (e : ResourceEntry) : List UInt8 :=
  e.actions.flatMap (textAlways 1) ++ delimited 2 e.resource.encode

/-- Everything asked in one call. -/
structure CheckCall where
  requestId : String
  principal : Principal
  resources : List ResourceEntry
  auxData : Option AuxData
  includeMeta : Bool := false

def CheckCall.encode (c : CheckCall) : List UInt8 :=
  textField 1 c.requestId ++ delimited 2 c.principal.encode ++
    c.resources.flatMap (fun e => delimited 3 e.encode) ++
    (c.auxData.elim [] fun a => delimited 4 a.encode) ++ boolField 5 c.includeMeta

/-! ## The response -/

/-- The resource an entry says it is about. -/
structure ResultResource where
  id : String := ""
  kind : String := ""
  policyVersion : String := ""
  scope : String := ""
deriving DecidableEq, Inhabited, Repr

/-- A complaint about an attribute; `source` is a number. -/
structure ValidationError where
  path : String := ""
  message : String := ""
  source : Int := 0
deriving DecidableEq, Inhabited, Repr

/-- The output of a rule. -/
structure OutputEntry where
  rule : String := ""
  value : Option Value := none
deriving Inhabited, Repr

/-- The answer about one resource. -/
structure ResultEntry where
  resource : Option ResultResource := none
  /-- Effect numbers by action name. -/
  effects : Table String Int := .empty
  validationErrors : List ValidationError := []
  outputs : List OutputEntry := []
deriving Inhabited

/-- The answer to a call. -/
structure CheckResponse where
  requestId : String := ""
  results : List ResultEntry := []
  callId : String := ""
deriving Inhabited

end Wire

end PolicyClient
