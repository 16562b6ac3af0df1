/-
# PolicyClient.Wire.Field -- messages as sequences of tagged fields

A message is a sequence of fields, each a key followed by a payload.  The key holds the
field's tag and how the payload is laid out.  Writers for the layouts in use stand first;
`Field.split?` takes a message apart again.

Groups, an old layout that no known field uses, are passed over as a whole.  Nested
groups count towards the nesting that a reader allows, which `depth` bounds.
-/
import PolicyClient.Text.Bytes
import PolicyClient.Wire.Varint

namespace PolicyClient

set_option autoImplicit false

namespace Wire

/-! ## Writing -/

/-- How a payload is laid out, by its number in the key. -/
inductive Layout
  | varint
  | eightBytes
  | delimited
  | groupStart
  | groupEnd
  | fourBytes
deriving DecidableEq, Repr

namespace Layout

def number : Layout → Nat
  | varint => 0
  | eightBytes => 1
  | delimited => 2
  | groupStart => 3
  | groupEnd => 4
  | fourBytes => 5

def ofNumber? : Nat → Option Layout
  | 0 => some varint
  | 1 => some eightBytes
  | 2 => some delimited
  | 3 => some groupStart
  | 4 => some groupEnd
  | 5 => some fourBytes
  | _ => none

end Layout

/-- The key of a field. -/
def key (tag : Nat) (layout : Layout) : List UInt8 := Varint.encode (8 * tag + layout.number)

/-- A field of bytes: their number, then the bytes. -/
def delimited (tag : Nat) (bytes : List UInt8) : List UInt8 :=
  key tag .delimited ++ (Varint.encode bytes.length ++ bytes)

/-- A text that stands even if it is empty. -/
def textAlways (tag : Nat) (s : String) : List UInt8 := delimited tag (Text.bytes s)

/-- A text; the empty text is left out. -/
def textField (tag : Nat) (s : String) : List UInt8 := if s = "" then [] else textAlways tag s

/-- A truth value that stands even if it is false. -/
def boolAlways (tag : Nat) (b : Bool) : List UInt8 := key tag .varint ++ [if b then 1 else 0]

/-- A truth value; false is left out. -/
def boolField (tag : Nat) (b : Bool) : List UInt8 := if b then boolAlways tag b else []

/-- `n` in `width` bytes, lowest first. -/
def littleEndian : (width : Nat) → (n : Nat) → List UInt8
  | 0, _ => []
  | width + 1, n => UInt8.ofNat n :: littleEndian width (n / 256)

/-! ## Reading -/

/-- The number that bytes write, lowest first. -/
def ofLittleEndian : List UInt8 → Nat
  | [] => 0
  | b :: rest => b.toNat + 256 * ofLittleEndian rest

/-- What a field holds. -/
inductive Payload
  | varint (n : Nat)
  | eightBytes (n : Nat)
  | fourBytes
  | delimited (bytes : List UInt8)
  | group
deriving DecidableEq, Repr

/-- A tag and its payload. -/
structure Field where
  tag : Nat
  payload : Payload
deriving DecidableEq, Repr

namespace Field

/-- Reads a key.  A tag is never zero and the key fits 32 bits. -/
def key? (bytes : List UInt8) : Option (Nat × Layout × List UInt8) := do
  let (n, rest) ← Varint.decode? bytes
  if Nat.pow 2 32 ≤ n ∨ n / 8 = 0 then none
  else
    let layout ← Layout.ofNumber? (n % 8)
    return (n / 8, layout, rest)

/-- The first `n` bytes, if there are as many, and the bytes after them. -/
def take? (n : Nat) (bytes : List UInt8) : Option (List UInt8 × List UInt8) :=
  if bytes.length < n then none else some (bytes.take n, bytes.drop n)

/-- Reads a number of bytes and as many bytes. -/
def delimited? (bytes : List UInt8) : Option (List UInt8 × List UInt8) := do
  let (n, rest) ← Varint.decode? bytes
  take? n rest

/-- Passes over the fields of the group `tag` up to and with its end.  Each step reads a
key, so as much `fuel` as there are bytes suffices. -/
def skipGroup? : (fuel depth tag : Nat) → List UInt8 → Option (List UInt8)
  | 0, _, _, _ => none
  | fuel + 1, depth, tag, bytes => do
    let (inner, layout, rest) ← key? bytes
    match layout, depth with
    | .groupEnd, _ => if inner = tag then some rest else none
    | _, 0 => none
    | .varint, _ =>
      let (_, rest) ← Varint.decode? rest
      skipGroup? fuel depth tag rest
    | .eightBytes, _ =>
      let (_, rest) ← take? 8 rest
      skipGroup? fuel depth tag rest
    | .fourBytes, _ =>
      let (_, rest) ← take? 4 rest
      skipGroup? fuel depth tag rest
    | .delimited, _ =>
      let (_, rest) ← delimited? rest
      skipGroup? fuel depth tag rest
    | .groupStart, innerDepth + 1 =>
      let rest ← skipGroup? fuel innerDepth inner rest
      skipGroup? fuel depth tag rest

/-- Reads one field.  Fields of the tags in `maps` are read as bytes whatever their key
says. -/
def first? (maps : List Nat) (depth : Nat) (bytes : List UInt8) : Option (Field × List UInt8) := do
  let (tag, layout, rest) ← key? bytes
  if tag ∈ maps then
    let (content, rest) ← delimited? rest
    return (⟨tag, .delimited content⟩, rest)
  else match layout, depth with
    | .varint, _ =>
      let (n, rest) ← Varint.decode? rest
      return (⟨tag, .varint n⟩, rest)
    | .eightBytes, _ =>
      let (content, rest) ← take? 8 rest
      return (⟨tag, .eightBytes (ofLittleEndian content)⟩, rest)
    | .fourBytes, _ =>
      let (_, rest) ← take? 4 rest
      return (⟨tag, .fourBytes⟩, rest)
    | .delimited, _ =>
      let (content, rest) ← delimited? rest
      return (⟨tag, .delimited content⟩, rest)
    | .groupStart, innerDepth + 1 =>
      let rest ← skipGroup? rest.length innerDepth tag rest
      return (⟨tag, .group⟩, rest)
    | .groupStart, 0 | .groupEnd, _ => none

/-- Reads fields until the bytes end.  Each field takes at least one byte, so as much
`fuel` as there are bytes suffices. -/
def splitWithin? (maps : List Nat) (depth : Nat) : (fuel : Nat) → List UInt8 → Option (List Field)
  | _, [] => some []
  | 0, _ => none
  | fuel + 1, bytes => do
    let (field, rest) ← first? maps depth bytes
    let fields ← splitWithin? maps depth fuel rest
    return field :: fields

/-- The fields of a message. -/
def split? (maps : List Nat) (depth : Nat) (bytes : List UInt8) : Option (List Field) :=
  splitWithin? maps depth bytes.length bytes

end Field

namespace Payload

/-- A text must be bytes in well-formed UTF-8. -/
def text? : Payload → Option String
  | delimited bytes => Text.ofBytes? bytes
  | _ => none

/-- The bytes of a nested message. -/
def message? : Payload → Option (List UInt8)
  | delimited bytes => some bytes
  | _ => none

/-- The low 32 bits as a signed number. -/
def int32? : Payload → Option Int
  | varint n => some (Int.bmod n (Nat.pow 2 32))
  | _ => none

/-- Any number but zero is true. -/
def bool? : Payload → Option Bool
  | varint n => some (n != 0)
  | _ => none

/-- Eight bytes, lowest first. -/
def bits64? : Payload → Option Nat
  | eightBytes n => some n
  | _ => none

end Payload

end Wire

end PolicyClient
