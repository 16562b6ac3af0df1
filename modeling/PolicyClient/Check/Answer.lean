/-
# PolicyClient.Check.Answer -- decisions

An `Answer` holds a decision per action, and what else was reported: errors of schema
validation and outputs of rules.  Validation errors concern the whole request: while
there are any, the answer gives no decision and allows nothing (`decision?`,
`isAllowed`).
-/
import PolicyClient.Check.Action
import PolicyClient.Value

namespace PolicyClient

set_option autoImplicit false

/-- Whether an action is permitted. -/
inductive Decision
  | allow
  | deny
deriving DecidableEq, Inhabited, Repr

namespace Decision

def isAllowed (d : Decision) : Bool := d = allow

/-- Effect 1 allows; every other effect denies. -/
def ofEffect (effect : Int) : Decision := if effect = 1 then allow else deny

def name : Decision → String
  | allow => "allow"
  | deny => "deny"

def ofName? (name : String) : Option Decision :=
  if name = "allow" then some allow else if name = "deny" then some deny else none

end Decision

/-- Which side of a request a validation error is about. -/
inductive ErrorSource
  | principal
  | resource
  | unspecified
deriving DecidableEq, Inhabited, Repr

namespace ErrorSource

/-- 1 stands for the principal, 2 for the resource. -/
def ofNumber (n : Int) : ErrorSource :=
  if n = 1 then principal else if n = 2 then resource else unspecified

def name : ErrorSource → String
  | principal => "principal"
  | resource => "resource"
  | unspecified => "unspecified"

/-- The side of this name; other names tell of none. -/
def ofName (name : String) : ErrorSource :=
  if name = "principal" then principal else if name = "resource" then resource else unspecified

end ErrorSource

/-- An attribute that does not fit its schema. -/
structure ValidationError where
  path : String
  message : String
  source : ErrorSource
deriving DecidableEq, Inhabited, Repr

/-- The answer to one request. -/
structure Answer where
  decisions : Table Action Decision := .empty
  validationErrors : List ValidationError := []
  outputs : Table String Value := .empty
deriving Inhabited

namespace Answer

def ofDecisions (decisions : List (Action × Decision)) : Answer :=
  { decisions := Table.ofList decisions }

/-- The answer to a request whose attributes do not fit their schema. -/
def invalid (errors : List ValidationError) : Answer := { validationErrors := errors }

/-- Adds the output of a rule, in place of any it had. -/
def withOutput (r : Answer) (rule : String) (value : Value) : Answer :=
  { r with outputs := r.outputs.insert rule value }

def hasValidationErrors (r : Answer) : Bool := !r.validationErrors.isEmpty

/-- The decision on an action; none if the action has none or the request is invalid. -/
def decision? (r : Answer) (action : String) : Option Decision :=
  if r.hasValidationErrors then none
  else (Action.ofName? action).bind r.decisions.get?

/-- Whether an action is explicitly allowed. -/
def isAllowed (r : Answer) (action : String) : Bool := r.decision? action = some .allow

/-- Every action with its decision, in order of actions; nothing if the request is
invalid. -/
def decisionList (r : Answer) : List (Action × Decision) :=
  if r.hasValidationErrors then [] else r.decisions.entries

/-- Only plain decisions may be remembered. -/
def isCacheable (r : Answer) : Bool := r.validationErrors.isEmpty && r.outputs.isEmpty

/-- Adds decisions on actions that have none yet. -/
def merge (r : Answer) (known : Table Action Decision) : Answer :=
  { r with decisions := known.entries.foldl (fun t e => t.insertIfNew e.1 e.2) r.decisions }

end Answer

end PolicyClient
