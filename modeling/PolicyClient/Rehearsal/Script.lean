/-
# PolicyClient.Rehearsal.Script -- what a rehearsed peer says, and when

A rehearsal runs a client against a peer whose every answer is laid down beforehand.  A
`Rule` answers single requests, a `Script` is a list of lines spoken one after the other
to a batch.  Both come down to `Frame`s: waits, replies, and silence without end.
-/
import PolicyClient.Batch

namespace PolicyClient

set_option autoImplicit false

namespace Rehearsal

/-- One element of a reply stream.  The stream ends after the last frame. -/
inductive Frame
  | wait (d : Duration)
  | reply (r : Reply)
  /-- Nothing more comes, and the stream does not end. -/
  | hang

/-- How single requests are answered. -/
inductive Rule
  /-- `read` and `delete` are allowed. -/
  | policy
  | allow
  | deny
  /-- Allowed if the resource id ends in an even digit. -/
  | even
  /-- Allowed to read, and allowed everything to the owner of the resource. -/
  | owner
  /-- An answer without decisions. -/
  | empty
  /-- No answer, and none to what comes after. -/
  | hang
  /-- No answer. -/
  | silent
  | fixed (answer : Answer)

namespace Rule

/-- The rules without parts, by name. -/
def ofName? (name : String) : Option Rule :=
  [("policy", policy), ("allow", allow), ("deny", deny), ("even", even), ("owner", owner),
    ("empty", empty), ("hang", hang), ("none", silent)].lookup name

/-- Whether one action of a request is allowed. -/
def allows (rule : Rule) (request : Request) (action : Action) : Bool :=
  match rule with
  | policy => action.name = "read" || action.name = "delete"
  | allow => true
  | even =>
    match request.resource.id.toList.getLast? with
    | some c => c.isDigit && c.toNat % 2 = 0
    | none => false
  | owner =>
    action.name = "read" ||
      ((request.resource.attributes.get? "owner").bind Value.asText?) = some request.principal.id
  | _ => false

/-- The answer to a request. -/
def answer (rule : Rule) (request : Request) : Answer :=
  match rule with
  | fixed answer => answer
  | empty | hang | silent => {}
  | rule => Answer.ofDecisions (request.actions.map fun a =>
      (a, if rule.allows request a then .allow else .deny))

/-- What the peer says to items.  Silence without end falls even where there are none. -/
def frames (rule : Rule) (items : List Item) : List Frame :=
  match rule with
  | hang => [.hang]
  | silent => []
  | rule => items.map fun item => .reply (.result item.token (rule.answer item.request))

end Rule

/-- Which items of a batch a line is about. -/
inductive Selection
  | positions (indices : List Nat)
  | reversed
  | all

/-- The selected items; positions outside the batch select nothing. -/
def Selection.items (s : Selection) (batch : Batch) : List Item :=
  match s with
  | positions indices => indices.filterMap fun i => batch.items[i]?
  | reversed => batch.items.reverse
  | all => batch.items

/-- One line of a script. -/
inductive Line
  | wait (d : Duration)
  | answer (items : Selection) (rule : Rule)
  | fail (items : Selection) (error : Error)
  | result (token : Token) (answer : Answer)
  | failTokens (tokens : List Token) (error : Error)
  | unmatched (detail : String)
  | hang

/-- Lines spoken in turn. -/
abbrev Script := List Line

def Line.frames (batch : Batch) : Line → List Frame
  | wait d => [.wait d]
  | answer items rule => rule.frames (items.items batch)
  | fail items error => [.reply (.failed ((items.items batch).map Item.token) error)]
  | result token r => [.reply (.result token r)]
  | failTokens tokens error => [.reply (.failed tokens error)]
  | unmatched detail => [.reply (.unmatched detail)]
  | hang => [.hang]

namespace Script

/-- Answers all items by one rule. -/
def ofRule (rule : Rule) : Script := [.answer .all rule]

def frames (s : Script) (batch : Batch) : List Frame := s.flatMap (Line.frames batch)

end Script

end Rehearsal

end PolicyClient
