/-
# PolicyClient.Wire.Reader -- reading a response

A message is read field by field into what was read before: a later text or number
replaces an earlier one, a repeated field is appended to, and a nested message that comes
again is read into the one already there.  Unknown fields are passed over.  A known field
with a payload of the wrong layout makes the whole response unreadable, and so do more
than `nestingLimit` messages inside each other.

`depth` is how many messages may still open inside the present one.  The entries of a map
are messages too; of two entries for one key the later counts.
-/
import PolicyClient.Wire.Message

namespace PolicyClient

set_option autoImplicit false

namespace Wire

/-- Passes over an unknown field, which takes one level of nesting as well. -/
def skipUnknown? {α : Type} (depth : Nat) (unchanged : α) : Option α :=
  if depth = 0 then none else some unchanged

/-- Entry list with `v` under `k`. -/
abbrev insertField (k : String) (v : Value) (fields : List (String × Value)) :
    List (String × Value) := Entries.insert k v fields

mutual

/-- Reads fields of a value.  The value has one kind: a field of another kind replaces
it, one of the same kind is read into it. -/
def readValue? : (depth : Nat) → Value → List UInt8 → Option Value
  | depth, start, bytes => do
    let fields ← Field.split? [] depth bytes
    fields.foldlM (fun v field =>
      match field.tag with
      | 1 => field.payload.int32?.map fun _ => .null
      | 2 => field.payload.bits64?.map fun n => .number ⟨UInt64.ofNat n⟩
      | 3 => field.payload.text?.map .text
      | 4 => field.payload.bool?.map .bool
      | 5 => match depth, field.payload.message? with
        | inner + 1, some content =>
          (readStruct? inner (match v with | .struct fs => fs | _ => []) content).map .struct
        | _, _ => none
      | 6 => match depth, field.payload.message? with
        | inner + 1, some content =>
          (readItems? inner (match v with | .list items => items | _ => []) content).map .list
        | _, _ => none
      | _ => skipUnknown? depth v) start

/-- Reads the entries of a structure. -/
def readStruct? : (depth : Nat) → List (String × Value) → List UInt8 →
    Option (List (String × Value))
  | depth, start, bytes => do
    let fields ← Field.split? [1] depth bytes
    fields.foldlM (fun fs field =>
      match field.tag with
      | 1 => match depth, field.payload.message? with
        | inner + 1, some content => do
          let parts ← Field.split? [] inner content
          let (k, v) ← parts.foldlM (fun (entry : String × Value) part =>
            match part.tag with
            | 1 => part.payload.text?.map fun k => (k, entry.2)
            | 2 => match inner, part.payload.message? with
              | innermost + 1, some content =>
                (readValue? innermost entry.2 content).map fun v => (entry.1, v)
              | _, _ => none
            | _ => skipUnknown? inner entry) ("", .unset)
          return insertField k v fs
        | _, _ => none
      | _ => skipUnknown? depth fs) start

/-- Reads the items of a list. -/
def readItems? : (depth : Nat) → List Value → List UInt8 → Option (List Value)
  | depth, start, bytes => do
    let fields ← Field.split? [] depth bytes
    fields.foldlM (fun items field =>
      match field.tag with
      | 1 => match depth, field.payload.message? with
        | inner + 1, some content => (readValue? inner .unset content).map fun v => items ++ [v]
        | _, _ => none
      | _ => skipUnknown? depth items) start

end

/-- Reads a nested message with `read` at one level further in. -/
def nested? {α : Type} (depth : Nat) (payload : Payload)
    (read : (inner : Nat) → List UInt8 → Option α) : Option α :=
  match depth, payload.message? with
  | inner + 1, some content => read inner content
  | _, _ => none

def readResultResource? (depth : Nat) (start : ResultResource) (bytes : List UInt8) :
    Option ResultResource := do
  let fields ← Field.split? [] depth bytes
  fields.foldlM (fun r field =>
    match field.tag with
    | 1 => field.payload.text?.map fun s => { r with id := s }
    | 2 => field.payload.text?.map fun s => { r with kind := s }
    | 3 => field.payload.text?.map fun s => { r with policyVersion := s }
    | 4 => field.payload.text?.map fun s => { r with scope := s }
    | _ => skipUnknown? depth r) start

def readValidationError? (depth : Nat) (bytes : List UInt8) : Option ValidationError := do
  let fields ← Field.split? [] depth bytes
  fields.foldlM (fun e field =>
    match field.tag with
    | 1 => field.payload.text?.map fun s => { e with path := s }
    | 2 => field.payload.text?.map fun s => { e with message := s }
    | 3 => field.payload.int32?.map fun n => { e with source := n }
    | _ => skipUnknown? depth e) {}

def readOutput? (depth : Nat) (bytes : List UInt8) : Option OutputEntry := do
  let fields ← Field.split? [] depth bytes
  fields.foldlM (fun (o : OutputEntry) field =>
    match field.tag with
    | 1 => field.payload.text?.map fun s => { o with rule := s }
    | 2 => nested? depth field.payload fun inner content =>
        (readValue? inner (o.value.getD .unset) content).map fun v => { o with value := some v }
    | _ => skipUnknown? depth o) {}

/-- Reads an entry of the effects: an action name and an effect number. -/
def readEffect? (depth : Nat) (bytes : List UInt8) : Option (String × Int) := do
  let fields ← Field.split? [] depth bytes
  fields.foldlM (fun (entry : String × Int) field =>
    match field.tag with
    | 1 => field.payload.text?.map fun s => (s, entry.2)
    | 2 => field.payload.int32?.map fun n => (entry.1, n)
    | _ => skipUnknown? depth entry) ("", 0)

def readResult? (depth : Nat) (bytes : List UInt8) : Option ResultEntry := do
  let fields ← Field.split? [2] depth bytes
  fields.foldlM (fun (e : ResultEntry) field =>
    match field.tag with
    | 1 => nested? depth field.payload fun inner content =>
        (readResultResource? inner (e.resource.getD {}) content).map fun r =>
          { e with resource := some r }
    | 2 => nested? depth field.payload fun inner content =>
        (readEffect? inner content).map fun (name, effect) =>
          { e with effects := e.effects.insert name effect }
    | 3 => nested? depth field.payload fun inner content =>
        (readValidationError? inner content).map fun v =>
          { e with validationErrors := e.validationErrors ++ [v] }
    | 5 => nested? depth field.payload fun inner content =>
        (readOutput? inner content).map fun o => { e with outputs := e.outputs ++ [o] }
    | _ => skipUnknown? depth e) {}

/-- The response that bytes write. -/
def CheckResponse.decode? (bytes : List UInt8) : Option CheckResponse := do
  let fields ← Field.split? [] nestingLimit bytes
  fields.foldlM (fun (r : CheckResponse) field =>
    match field.tag with
    | 1 => field.payload.text?.map fun s => { r with requestId := s }
    | 2 => nested? nestingLimit field.payload fun inner content =>
        (readResult? inner content).map fun e => { r with results := r.results ++ [e] }
    | 3 => field.payload.text?.map fun s => { r with callId := s }
    | _ => skipUnknown? nestingLimit r) {}

end Wire

end PolicyClient
