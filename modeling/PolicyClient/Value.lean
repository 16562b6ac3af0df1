/-
# PolicyClient.Value -- attribute values

A value is null, a truth value, a number, a text, a list or a map.  The entries of a map
are kept in key order, so values with the same content are the same value
(`Value.ofEntries` puts them there).

`Value.encode` writes a value in a form that can be told apart from that of every other
value and that ends where the value ends: a byte for the kind, then the content.  The
two zeros are written alike, and so are all NaNs.
-/
import PolicyClient.Table
import PolicyClient.Binary64
import PolicyClient.Digest.Encoding

namespace PolicyClient

set_option autoImplicit false

/-- An attribute value. -/
inductive Value
  | null
  | bool (b : Bool)
  | number (n : Binary64)
  | text (s : String)
  | list (items : List Value)
  /-- Entries in key order. -/
  | map (fields : List (String × Value))
deriving Inhabited, Repr

/-- Attributes by name. -/
abbrev Attributes := Table String Value

namespace Value

/-- A map value of these attributes. -/
def ofAttributes (attributes : Attributes) : Value := map attributes.entries

/-- A map value; the last entry of a key counts. -/
def ofEntries (entries : List (String × Value)) : Value := ofAttributes (Table.ofList entries)

/-- A number with the value of an integer, rounded to the nearest double. -/
def ofInt (i : Int) : Value := number (Binary64.ofInt i)

def asText? : Value → Option String
  | text s => some s
  | _ => none

def asBool? : Value → Option Bool
  | bool b => some b
  | _ => none

def asNumber? : Value → Option Binary64
  | number n => some n
  | _ => none

/-! ## Equality

Numbers compare as numbers: both zeros are equal, and a NaN equals nothing. -/

mutual

def same : Value → Value → Bool
  | null, null => true
  | bool a, bool b => a == b
  | number a, number b => a.same b
  | text a, text b => a == b
  | list a, list b => sameItems a b
  | map a, map b => sameFields a b
  | _, _ => false

def sameItems : List Value → List Value → Bool
  | [], [] => true
  | v :: rest, w :: rest' => same v w && sameItems rest rest'
  | _, _ => false

def sameFields : List (String × Value) → List (String × Value) → Bool
  | [], [] => true
  | (k, v) :: rest, (l, w) :: rest' => k == l && same v w && sameFields rest rest'
  | _, _ => false

end

/-! ## Byte form -/

/-- The eight bytes of a number, highest first, in canonical form. -/
def encodeNumber (n : Binary64) : List UInt8 := Encoding.count n.canonical.bits.toNat

mutual

/-- The kind of the value and its content. -/
def encode : Value → List UInt8
  | null => [0]
  | bool b => [1, if b then 1 else 0]
  | number n => 2 :: encodeNumber n
  | text s => 3 :: Encoding.text s
  | list items => 4 :: (Encoding.count items.length ++ encodeItems items)
  | map fields => 5 :: (Encoding.count fields.length ++ encodeFields fields)

def encodeItems : List Value → List UInt8
  | [] => []
  | v :: rest => encode v ++ encodeItems rest

def encodeFields : List (String × Value) → List UInt8
  | [] => []
  | (k, v) :: rest => Encoding.text k ++ (encode v ++ encodeFields rest)

end

end Value

/-- Attributes: how many, then each name with its value, in name order. -/
def Attributes.encode (attributes : Attributes) : List UInt8 :=
  Encoding.count attributes.size ++ Value.encodeFields attributes.entries

end PolicyClient
