/-
# PolicyClient.Proofs.Value.Canonical -- the byte form of a value determines it

`Value.canonical` puts every number in a value, at any depth, into its canonical form: one
zero and one NaN.  The byte form does not see the difference (`encode_canonical`), and it
sees every other one: two values whose byte forms are equal, with anything following, have
one canonical form, and what follows is equal (`encode_append_inj`).  The same holds of
attributes.

Lengths are written in eight bytes.  `Value.Fits` says that those of a value can be.
-/
import PolicyClient.Value
import PolicyClient.Proofs.Digest.Fields

namespace PolicyClient

set_option autoImplicit false

/-! ## Numbers -/

namespace Binary64

theorem canonical_canonical (n : Binary64) : n.canonical.canonical = n.canonical := by
  by_cases zero : n.isZero = true
  · simp only [canonical, zero, if_true]
    decide
  · by_cases nan : n.isNaN = true
    · simp only [canonical, zero, nan, if_true, if_false, Bool.false_eq_true]
      decide
    · simp [canonical, zero, nan]

end Binary64

namespace Value

/-! ## Canonical form -/

mutual

/-- The value with all its numbers in canonical form. -/
def canonical : Value → Value
  | null => null
  | bool b => bool b
  | number n => number n.canonical
  | text s => text s
  | list items => list (canonicalItems items)
  | map fields => map (canonicalFields fields)

def canonicalItems : List Value → List Value
  | [] => []
  | v :: rest => canonical v :: canonicalItems rest

def canonicalFields : List (String × Value) → List (String × Value)
  | [] => []
  | (k, v) :: rest => (k, canonical v) :: canonicalFields rest

end

mutual

/-- Every length in the value can be written. -/
def Fits : Value → Prop
  | null => True
  | bool _ => True
  | number _ => True
  | text s => Encoding.Fits s
  | list items => items.length < Encoding.limit ∧ FitsItems items
  | map fields => fields.length < Encoding.limit ∧ FitsFields fields

def FitsItems : List Value → Prop
  | [] => True
  | v :: rest => Fits v ∧ FitsItems rest

def FitsFields : List (String × Value) → Prop
  | [] => True
  | (k, v) :: rest => Encoding.Fits k ∧ Fits v ∧ FitsFields rest

end

mutual

instance decidableFits : ∀ v : Value, Decidable v.Fits
  | null => isTrue trivial
  | bool _ => isTrue trivial
  | number _ => isTrue trivial
  | text s => inferInstanceAs (Decidable (Encoding.Fits s))
  | list items =>
    have := decidableFitsItems items
    inferInstanceAs (Decidable (items.length < Encoding.limit ∧ FitsItems items))
  | map fields =>
    have := decidableFitsFields fields
    inferInstanceAs (Decidable (fields.length < Encoding.limit ∧ FitsFields fields))

instance decidableFitsItems : ∀ items : List Value, Decidable (FitsItems items)
  | [] => isTrue trivial
  | v :: rest =>
    have := decidableFits v
    have := decidableFitsItems rest
    inferInstanceAs (Decidable (v.Fits ∧ FitsItems rest))

instance decidableFitsFields : ∀ fields : List (String × Value), Decidable (FitsFields fields)
  | [] => isTrue trivial
  | (k, v) :: rest =>
    have := decidableFits v
    have := decidableFitsFields rest
    inferInstanceAs (Decidable (Encoding.Fits k ∧ v.Fits ∧ FitsFields rest))

end

theorem length_canonicalItems (items : List Value) : (canonicalItems items).length = items.length := by
  induction items with
  | nil => rfl
  | cons v rest ih => simp [canonicalItems, ih]

theorem canonicalFields_eq_map (fields : List (String × Value)) :
    canonicalFields fields = fields.map fun e => (e.1, e.2.canonical) := by
  induction fields with
  | nil => rfl
  | cons e rest ih => simp [canonicalFields, ih]

theorem length_canonicalFields (fields : List (String × Value)) :
    (canonicalFields fields).length = fields.length := by
  rw [canonicalFields_eq_map, List.length_map]

/-! ## What the byte form does not see -/

mutual

theorem encode_canonical : ∀ v : Value, encode v.canonical = encode v
  | null => rfl
  | bool _ => rfl
  | number n => by simp only [canonical, encode, encodeNumber, Binary64.canonical_canonical]
  | text _ => rfl
  | list items => by
    simp only [canonical, encode, length_canonicalItems, encodeItems_canonical items]
  | map fields => by
    simp only [canonical, encode, length_canonicalFields, encodeFields_canonical fields]

theorem encodeItems_canonical : ∀ items : List Value, encodeItems (canonicalItems items) = encodeItems items
  | [] => rfl
  | v :: rest => by simp only [canonicalItems, encodeItems, encode_canonical v, encodeItems_canonical rest]

theorem encodeFields_canonical : ∀ fields : List (String × Value),
    encodeFields (canonicalFields fields) = encodeFields fields
  | [] => rfl
  | (k, v) :: rest => by
    simp only [canonicalFields, encodeFields, encode_canonical v, encodeFields_canonical rest]

end

/-! ## What it sees -/

/-- The byte that tells what kind of value follows. -/
def kind : Value → UInt8
  | null => 0
  | bool _ => 1
  | number _ => 2
  | text _ => 3
  | list _ => 4
  | map _ => 5

/-- What follows that byte. -/
def content : Value → List UInt8
  | null => []
  | bool b => [if b then 1 else 0]
  | number n => encodeNumber n
  | text s => Encoding.text s
  | list items => Encoding.count items.length ++ encodeItems items
  | map fields => Encoding.count fields.length ++ encodeFields fields

theorem encode_eq (v : Value) : encode v = v.kind :: v.content := by
  cases v <;> rfl

theorem encodeNumber_append_inj {n m : Binary64} {x y : List UInt8}
    (same : encodeNumber n ++ x = encodeNumber m ++ y) : n.canonical = m.canonical ∧ x = y := by
  have fits : ∀ k : Binary64, k.canonical.bits.toNat < Encoding.limit :=
    fun k => k.canonical.bits.toNat_lt
  obtain ⟨bits, rest⟩ := Encoding.count_append_inj (fits n) (fits m) same
  exact ⟨congrArg Binary64.mk (UInt64.toNat_inj.1 bits), rest⟩

mutual

/-- **A value ends where its byte form ends**, and the byte form determines it. -/
theorem encode_append_inj : ∀ (v w : Value) (x y : List UInt8), v.Fits → w.Fits →
    encode v ++ x = encode w ++ y → v.canonical = w.canonical ∧ x = y
  | v, w, x, y, hv, hw, same => by
    rw [encode_eq, encode_eq] at same
    obtain ⟨kinds, contents⟩ := List.cons.inj same
    cases v with
    | null =>
      cases w with
      | null => exact ⟨rfl, contents⟩
      | _ => cases kinds
    | bool b =>
      cases w with
      | bool c =>
        obtain ⟨bits, rest⟩ := List.cons.inj contents
        refine ⟨congrArg bool ?_, rest⟩
        revert bits
        cases b <;> cases c <;> decide
      | _ => cases kinds
    | number n =>
      cases w with
      | number m =>
        obtain ⟨numbers, rest⟩ := encodeNumber_append_inj contents
        exact ⟨congrArg number numbers, rest⟩
      | _ => cases kinds
    | text s =>
      cases w with
      | text t =>
        obtain ⟨texts, rest⟩ := Encoding.text_append_inj hv hw contents
        exact ⟨congrArg text texts, rest⟩
      | _ => cases kinds
    | list items =>
      cases w with
      | list items' =>
        simp only [content] at contents
        obtain ⟨lengths, rest⟩ := Encoding.count_append_inj hv.1 hw.1 contents
        obtain ⟨canonical, tails⟩ := encodeItems_append_inj items items' x y hv.2 hw.2 lengths rest
        exact ⟨congrArg list canonical, tails⟩
      | _ => cases kinds
    | map fields =>
      cases w with
      | map fields' =>
        simp only [content] at contents
        obtain ⟨lengths, rest⟩ := Encoding.count_append_inj hv.1 hw.1 contents
        obtain ⟨canonical, tails⟩ := encodeFields_append_inj fields fields' x y hv.2 hw.2 lengths rest
        exact ⟨congrArg map canonical, tails⟩
      | _ => cases kinds

theorem encodeItems_append_inj : ∀ (l m : List Value) (x y : List UInt8), FitsItems l → FitsItems m →
    l.length = m.length → encodeItems l ++ x = encodeItems m ++ y →
    canonicalItems l = canonicalItems m ∧ x = y
  | [], [], _, _, _, _, _, same => ⟨rfl, same⟩
  | v :: l, w :: m, x, y, hl, hm, length, same => by
    simp only [encodeItems, List.append_assoc] at same
    obtain ⟨heads, rest⟩ := encode_append_inj v w _ _ hl.1 hm.1 same
    obtain ⟨tails, follow⟩ := encodeItems_append_inj l m x y hl.2 hm.2 (Nat.succ.inj length) rest
    exact ⟨by rw [canonicalItems, canonicalItems, heads, tails], follow⟩

theorem encodeFields_append_inj : ∀ (l m : List (String × Value)) (x y : List UInt8), FitsFields l →
    FitsFields m → l.length = m.length → encodeFields l ++ x = encodeFields m ++ y →
    canonicalFields l = canonicalFields m ∧ x = y
  | [], [], _, _, _, _, _, same => ⟨rfl, same⟩
  | (j, v) :: l, (k, w) :: m, x, y, hl, hm, length, same => by
    simp only [encodeFields, List.append_assoc] at same
    obtain ⟨names, values⟩ := Encoding.text_append_inj hl.1 hm.1 same
    obtain ⟨heads, rest⟩ := encode_append_inj v w _ _ hl.2.1 hm.2.1 values
    obtain ⟨tails, follow⟩ := encodeFields_append_inj l m x y hl.2.2 hm.2.2 (Nat.succ.inj length) rest
    exact ⟨by rw [canonicalFields, canonicalFields, names, heads, tails], follow⟩

end

end Value

/-! ## Attributes -/

namespace Attributes

/-- The attributes with their values in canonical form. -/
def canonical (a : Attributes) : Attributes := a.map fun _ v => v.canonical

/-- Every length in the attributes can be written. -/
def Fits (a : Attributes) : Prop := a.size < Encoding.limit ∧ Value.FitsFields a.entries

instance (a : Attributes) : Decidable a.Fits :=
  inferInstanceAs (Decidable (a.size < Encoding.limit ∧ Value.FitsFields a.entries))

theorem entries_canonical (a : Attributes) : (canonical a).entries = Value.canonicalFields a.entries :=
  (Value.canonicalFields_eq_map a.entries).symm

theorem encode_canonical (a : Attributes) : encode (canonical a) = encode a := by
  have size : (canonical a).size = a.size := List.length_map _
  rw [encode, encode, entries_canonical, Value.encodeFields_canonical, size]

theorem encode_append_inj {a b : Attributes} {x y : List UInt8} (ha : Fits a) (hb : Fits b)
    (same : encode a ++ x = encode b ++ y) : canonical a = canonical b ∧ x = y := by
  simp only [encode, List.append_assoc] at same
  obtain ⟨sizes, rest⟩ := Encoding.count_append_inj ha.1 hb.1 same
  obtain ⟨fields, tails⟩ := Value.encodeFields_append_inj _ _ x y ha.2 hb.2 sizes rest
  refine ⟨Table.ext_entries ?_, tails⟩
  rw [entries_canonical, entries_canonical, fields]

end Attributes

end PolicyClient
