/-
# PolicyClient.Document -- structured documents

A document is null, a truth value, a number, a text, a list, or an object of named
fields.  The readers here take one apart: each gives nothing for a document of the wrong
shape.
-/
import PolicyClient.Duration

namespace PolicyClient

set_option autoImplicit false

/-- A structured document.  Whole numbers and fractions are told apart as they were
written; the keys of an object differ. -/
inductive Document
  | null
  | bool (b : Bool)
  | integer (i : Int)
  | float (x : Binary64)
  | text (s : String)
  | list (items : List Document)
  | object (fields : List (String × Document))
deriving Inhabited, Repr

namespace Document

/-- Looks up fields by name, provided the document has no others.  In a list the fields
stand in the order of `names`. -/
def fields? (names : List String) : Document → Option (String → Option Document)
  | object fields =>
    if fields.all fun f => names.contains f.1 then some fun name => fields.lookup name else none
  | list items =>
    if items.length ≤ names.length then some fun name => (names.zip items).lookup name else none
  | _ => none

/-- A whole number below `2 ^ bits` that is not negative. -/
def natural? (bits : Nat) : Document → Option Nat
  | integer i => if 0 ≤ i ∧ i < Nat.pow 2 bits then some i.toNat else none
  | _ => none

def number? : Document → Option Binary64
  | integer i => some (.ofInt i)
  | float x => some x
  | _ => none

def text? : Document → Option String
  | text s => some s
  | _ => none

/-- Seconds and nanoseconds, both required.  Nanoseconds may carry into the seconds, which
must stay below 2^64. -/
def duration? (d : Document) : Option Duration := do
  let field ← d.fields? ["secs", "nanos"]
  let secs ← (← field "secs").natural? 64
  let nanos ← (← field "nanos").natural? 32
  let whole := Duration.ofParts secs nanos
  if whole.seconds < Nat.pow 2 64 then some whole else none

end Document

end PolicyClient
