/-
# PolicyClient.Proofs.Wire.Lossless -- messages say all there is to say

A value whose maps list their keys in order (`Value.Ordered`; no other map can be built) comes back
from its message as it was.  A message that comes from nowhere in particular may leave values
unset, at any depth: read and written again it is the same message with null in these places
(`Wire.Value.filled`), so the messages of values are those that leave nothing unset.

A built principal, resource or token is found again in its message (`Principal.ofWire`,
`Resource.ofWire`, `AuxData.ofWire`): the texts that may be absent are never empty, so the empty
text is free to say that one is absent.  Attributes go by name on the wire and stand in no order
there, so messages are compared up to that order (`Wire.Principal.Same`, `Wire.Resource.Same`).

Main statement: `Wire.conversion_lossless`.
-/
import PolicyClient.Proofs.Check.Identity
import PolicyClient.Wire.Conversion

namespace PolicyClient

set_option autoImplicit false

/-! ## Values in order -/

namespace Value

mutual

/-- Every map in the value lists its keys in increasing order. -/
def Ordered : Value → Prop
  | null => True
  | bool _ => True
  | number _ => True
  | text _ => True
  | list items => OrderedItems items
  | map fields => Entries.Ordered fields ∧ OrderedFields fields

def OrderedItems : List Value → Prop
  | [] => True
  | v :: rest => Ordered v ∧ OrderedItems rest

def OrderedFields : List (String × Value) → Prop
  | [] => True
  | (_, v) :: rest => Ordered v ∧ OrderedFields rest

end

theorem orderedFields_iff (fields : List (String × Value)) :
    OrderedFields fields ↔ ∀ e ∈ fields, e.2.Ordered := by
  induction fields with
  | nil => simp [OrderedFields]
  | cons e rest ih => simp [OrderedFields, ih]

end Value

/-- Every map in an attribute lists its keys in increasing order. -/
def Attributes.Ordered (a : Attributes) : Prop := Value.OrderedFields a.entries

namespace Wire.Value

mutual

/-- Every struct in the message lists its keys in increasing order. -/
def Ordered : Value → Prop
  | unset => True
  | null => True
  | number _ => True
  | text _ => True
  | bool _ => True
  | struct fields => Entries.Ordered fields ∧ OrderedFields fields
  | list items => OrderedItems items

def OrderedItems : List Value → Prop
  | [] => True
  | v :: rest => Ordered v ∧ OrderedItems rest

def OrderedFields : List (String × Value) → Prop
  | [] => True
  | (_, v) :: rest => Ordered v ∧ OrderedFields rest

end

mutual

/-- The message with null wherever it leaves a value unset. -/
def filled : Value → Value
  | unset => null
  | null => null
  | number n => number n
  | text s => text s
  | bool b => bool b
  | struct fields => struct (filledFields fields)
  | list items => list (filledItems items)

def filledItems : List Value → List Value
  | [] => []
  | v :: rest => filled v :: filledItems rest

def filledFields : List (String × Value) → List (String × Value)
  | [] => []
  | (k, v) :: rest => (k, filled v) :: filledFields rest

end

end Wire.Value

/-! ## There and back -/

namespace Value

theorem fieldsOfWire_eq_map (fields : List (String × Wire.Value)) :
    fieldsOfWire fields = fields.map fun e => (e.1, ofWire e.2) := by
  induction fields with
  | nil => rfl
  | cons e rest ih => simp [fieldsOfWire, ih]

mutual

theorem ofWire_toWire : ∀ v : Value, v.Ordered → ofWire v.toWire = v
  | null, _ => rfl
  | bool _, _ => rfl
  | number _, _ => rfl
  | text _, _ => rfl
  | list items, ordered => by
    rw [Ordered] at ordered
    rw [toWire, ofWire, itemsOfWire_itemsToWire items ordered]
  | map fields, ordered => by
    rw [Ordered] at ordered
    rw [toWire, ofWire, fieldsOfWire_fieldsToWire fields ordered.2, ofEntries, ofAttributes,
      Table.entries_ofList ordered.1]

theorem itemsOfWire_itemsToWire : ∀ items : List Value, OrderedItems items →
    itemsOfWire (itemsToWire items) = items
  | [], _ => rfl
  | v :: rest, ordered => by
    rw [OrderedItems] at ordered
    rw [itemsToWire, itemsOfWire, ofWire_toWire v ordered.1, itemsOfWire_itemsToWire rest ordered.2]

theorem fieldsOfWire_fieldsToWire : ∀ fields : List (String × Value), OrderedFields fields →
    fieldsOfWire (fieldsToWire fields) = fields
  | [], _ => rfl
  | (k, v) :: rest, ordered => by
    rw [OrderedFields] at ordered
    rw [fieldsToWire, fieldsOfWire, ofWire_toWire v ordered.1, fieldsOfWire_fieldsToWire rest ordered.2]

end

/-- A map made of entries is in order, whatever order they come in. -/
theorem ordered_ofEntries {entries : List (String × Value)} (ordered : OrderedFields entries) :
    (ofEntries entries).Ordered := by
  rw [ofEntries, ofAttributes, Ordered, orderedFields_iff]
  refine ⟨(Table.ofList entries).ordered, fun e held => ?_⟩
  exact (orderedFields_iff _).1 ordered e (Table.mem_of_mem_ofList held)

mutual

/-- Whatever message a value is read from, its maps come out in order. -/
theorem ordered_ofWire : ∀ m : Wire.Value, (ofWire m).Ordered
  | .unset => trivial
  | .null => trivial
  | .number _ => trivial
  | .text _ => trivial
  | .bool _ => trivial
  | .struct fields => by
    rw [ofWire]
    exact ordered_ofEntries (ordered_fieldsOfWire fields)
  | .list items => by
    rw [ofWire, Ordered]
    exact ordered_itemsOfWire items

theorem ordered_itemsOfWire : ∀ items : List Wire.Value, OrderedItems (itemsOfWire items)
  | [] => trivial
  | m :: rest => by
    rw [itemsOfWire, OrderedItems]
    exact ⟨ordered_ofWire m, ordered_itemsOfWire rest⟩

theorem ordered_fieldsOfWire : ∀ fields : List (String × Wire.Value), OrderedFields (fieldsOfWire fields)
  | [] => trivial
  | (k, m) :: rest => by
    rw [fieldsOfWire, OrderedFields]
    exact ⟨ordered_ofWire m, ordered_fieldsOfWire rest⟩

end

mutual

/-- Reading a message and writing it again changes nothing but what was unset. -/
theorem toWire_ofWire : ∀ m : Wire.Value, m.Ordered → (ofWire m).toWire = m.filled
  | .unset, _ => rfl
  | .null, _ => rfl
  | .number _, _ => rfl
  | .text _, _ => rfl
  | .bool _, _ => rfl
  | .struct fields, ordered => by
    rw [Wire.Value.Ordered] at ordered
    have read : Entries.Ordered (fieldsOfWire fields) := by
      rw [fieldsOfWire_eq_map]
      exact Entries.ordered_map (fun _ m => ofWire m) ordered.1
    rw [ofWire, ofEntries, ofAttributes, Table.entries_ofList read, toWire,
      fieldsToWire_fieldsOfWire fields ordered.2, Wire.Value.filled]
  | .list items, ordered => by
    rw [Wire.Value.Ordered] at ordered
    rw [ofWire, toWire, itemsToWire_itemsOfWire items ordered, Wire.Value.filled]

theorem itemsToWire_itemsOfWire : ∀ items : List Wire.Value, Wire.Value.OrderedItems items →
    itemsToWire (itemsOfWire items) = Wire.Value.filledItems items
  | [], _ => rfl
  | m :: rest, ordered => by
    rw [Wire.Value.OrderedItems] at ordered
    rw [itemsOfWire, itemsToWire, toWire_ofWire m ordered.1, itemsToWire_itemsOfWire rest ordered.2,
      Wire.Value.filledItems]

theorem fieldsToWire_fieldsOfWire : ∀ fields : List (String × Wire.Value),
    Wire.Value.OrderedFields fields → fieldsToWire (fieldsOfWire fields) =
      Wire.Value.filledFields fields
  | [], _ => rfl
  | (k, m) :: rest, ordered => by
    rw [Wire.Value.OrderedFields] at ordered
    rw [fieldsOfWire, fieldsToWire, toWire_ofWire m ordered.1, fieldsToWire_fieldsOfWire rest ordered.2,
      Wire.Value.filledFields]

end

/-- The messages of values are those that leave nothing unset. -/
theorem filled_eq_self_iff {m : Wire.Value} (ordered : m.Ordered) :
    m.filled = m ↔ ∃ v : Value, v.Ordered ∧ v.toWire = m := by
  constructor
  · intro complete
    exact ⟨ofWire m, ordered_ofWire m, (toWire_ofWire m ordered).trans complete⟩
  · rintro ⟨v, vOrdered, rfl⟩
    rw [← toWire_ofWire _ ordered, ofWire_toWire v vOrdered]

end Value

/-! ## Messages of principals, resources and tokens -/

/-- The empty text stands for an absent one, and no other text does. -/
theorem nonempty?_some_getD (s : Option String) : nonempty? (some ((nonempty? s).getD "")) = nonempty? s :=
  (nonempty?_eq_iff _ _).2 (getD_nonempty? s)

/-- Attributes are found in their message in whatever order it lists them. -/
theorem Attributes.ofList_fieldsOfWire {a : Attributes} (ordered : a.Ordered)
    {fields : List (String × Wire.Value)} (sent : fields.Perm (Value.fieldsToWire a.entries)) :
    Table.ofList (Value.fieldsOfWire fields) = a := by
  apply Table.ofList_of_perm
  have read := sent.map fun e => (e.1, Value.ofWire e.2)
  rwa [← Value.fieldsOfWire_eq_map, ← Value.fieldsOfWire_eq_map,
    Value.fieldsOfWire_fieldsToWire _ ordered] at read

/-- The same message; attributes stand in no order. -/
structure Wire.Principal.Same (m n : Wire.Principal) : Prop where
  id : m.id = n.id
  policyVersion : m.policyVersion = n.policyVersion
  roles : m.roles = n.roles
  attributes : m.attributes.Perm n.attributes
  scope : m.scope = n.scope

/-- The same message; attributes stand in no order. -/
structure Wire.Resource.Same (m n : Wire.Resource) : Prop where
  kind : m.kind = n.kind
  policyVersion : m.policyVersion = n.policyVersion
  id : m.id = n.id
  attributes : m.attributes.Perm n.attributes
  scope : m.scope = n.scope

namespace Principal

/-- A principal that a draft gave, with the maps in its attributes in order. -/
def Built (p : Principal) : Prop := ∃ d : Draft, ofDraft d = .ok p ∧ d.attributes.Ordered

/-- The principal that a message speaks of. -/
def ofWire (m : Wire.Principal) : Principal where
  id := m.id
  roles := Table.ofList (m.roles.map fun role => (role, ()))
  attributes := Table.ofList (Value.fieldsOfWire m.attributes)
  policyVersion := nonempty? (some m.policyVersion)
  scope := nonempty? (some m.scope)

theorem ofList_roleNames (p : Principal) :
    Table.ofList (p.roleNames.map fun role => (role, ())) = p.roles := by
  have entries : p.roleNames.map (fun role => (role, ())) = p.roles.entries := by
    rw [roleNames, Table.keys, List.map_map]
    exact List.map_id _
  exact Table.ofList_of_perm (.of_eq entries)

theorem Built.ofWire_eq {p : Principal} (built : p.Built) {m : Wire.Principal} (sent : m.Same p.toWire) :
    ofWire m = p := by
  obtain ⟨d, made, ordered⟩ := built
  cases ofDraft_eq_ok made
  have attributes := Attributes.ofList_fieldsOfWire ordered sent.attributes
  have roles : Table.ofList (m.roles.map fun role => (role, ())) = d.roles := by
    rw [sent.roles]
    exact ofList_roleNames _
  have version : nonempty? (some m.policyVersion) = nonempty? d.policyVersion := by
    rw [sent.policyVersion]
    exact nonempty?_some_getD d.policyVersion
  have scope : nonempty? (some m.scope) = nonempty? d.scope := by
    rw [sent.scope]
    exact nonempty?_some_getD d.scope
  rw [ofWire, attributes, roles, version, scope, sent.id]
  rfl

end Principal

namespace Resource

/-- A resource that a draft gave, with the maps in its attributes in order. -/
def Built (r : Resource) : Prop := ∃ kind, ∃ d : Draft, ofDraft kind d = .ok r ∧ d.attributes.Ordered

/-- The resource that a message speaks of. -/
def ofWire (m : Wire.Resource) : Resource where
  kind := m.kind
  id := m.id
  attributes := Table.ofList (Value.fieldsOfWire m.attributes)
  policyVersion := nonempty? (some m.policyVersion)
  scope := nonempty? (some m.scope)

theorem Built.ofWire_eq {r : Resource} (built : r.Built) {m : Wire.Resource} (sent : m.Same r.toWire) :
    ofWire m = r := by
  obtain ⟨kind, d, made, ordered⟩ := built
  cases ofDraft_eq_ok made
  have attributes := Attributes.ofList_fieldsOfWire ordered sent.attributes
  have version : nonempty? (some m.policyVersion) = nonempty? d.policyVersion := by
    rw [sent.policyVersion]
    exact nonempty?_some_getD d.policyVersion
  have scope : nonempty? (some m.scope) = nonempty? d.scope := by
    rw [sent.scope]
    exact nonempty?_some_getD d.scope
  rw [ofWire, attributes, version, scope, sent.kind, sent.id]
  rfl

end Resource

namespace AuxData

/-- Data that came of a token, with a key set or without. -/
def Built (a : AuxData) : Prop := ∃ token keySet, ofToken token keySet = .ok a

/-- The data that a message speaks of. -/
def ofWire (m : Wire.AuxData) : AuxData := ⟨m.token, nonempty? (some m.keySet)⟩

theorem Built.ofWire_toWire {a : AuxData} (built : a.Built) : ofWire a.toWire = a := by
  obtain ⟨token, keySet, made⟩ := built
  cases ofToken_eq_ok made
  rw [ofWire, toWire, nonempty?_some_getD]

end AuxData

namespace Wire

theorem Principal.Same.refl (m : Principal) : m.Same m := ⟨rfl, rfl, rfl, .refl _, rfl⟩

theorem Resource.Same.refl (m : Resource) : m.Same m := ⟨rfl, rfl, rfl, .refl _, rfl⟩

/-- **Conversion to messages loses nothing.**  A value comes back from its message as it was, down to
the bits of its numbers; a message comes back from the value read from it with null wherever it left
a value unset, so as it was exactly when it is the message of a value.  Every part of a built
principal, resource or token is read back from its message, in whatever order that lists the
attributes, and so no two of them become one message. -/
theorem conversion_lossless :
    (∀ v : PolicyClient.Value, v.Ordered → .ofWire v.toWire = v) ∧
    (∀ m : Value, m.Ordered → (PolicyClient.Value.ofWire m).toWire = m.filled ∧
      (m.filled = m ↔ ∃ v : PolicyClient.Value, v.Ordered ∧ v.toWire = m)) ∧
    (∀ (p : PolicyClient.Principal) (m : Principal), p.Built → m.Same p.toWire → .ofWire m = p) ∧
    (∀ (r : PolicyClient.Resource) (m : Resource), r.Built → m.Same r.toWire → .ofWire m = r) ∧
    (∀ a : PolicyClient.AuxData, a.Built → .ofWire a.toWire = a) ∧
    (∀ p q : PolicyClient.Principal, p.Built → q.Built → p.toWire.Same q.toWire → p = q) ∧
    (∀ r s : PolicyClient.Resource, r.Built → s.Built → r.toWire.Same s.toWire → r = s) ∧
    (∀ a b : PolicyClient.AuxData, a.Built → b.Built → a.toWire = b.toWire → a = b) := by
  refine ⟨PolicyClient.Value.ofWire_toWire, fun m ordered => ?_, fun p m built => built.ofWire_eq,
    fun r m built => built.ofWire_eq, fun a built => built.ofWire_toWire, ?_, ?_, ?_⟩
  · exact ⟨PolicyClient.Value.toWire_ofWire m ordered, PolicyClient.Value.filled_eq_self_iff ordered⟩
  · intro p q pBuilt qBuilt same
    exact (pBuilt.ofWire_eq (.refl _)).symm.trans (qBuilt.ofWire_eq same)
  · intro r s rBuilt sBuilt same
    exact (rBuilt.ofWire_eq (.refl _)).symm.trans (sBuilt.ofWire_eq same)
  · intro a b aBuilt bBuilt same
    rw [← aBuilt.ofWire_toWire, same, bBuilt.ofWire_toWire]

/-- A list with a map in it, and a NaN that is not the usual one. -/
def readings : PolicyClient.Value :=
  .list [.null, .number ⟨0x7FF0000000000001⟩, .map [("at", .text "GB"), ("ok", .bool false)]]

/-- A draft with an empty policy version. -/
def meterDraft : Draft where
  id := "meter"
  roles := Table.ofList [("sensor", ()), ("device", ())]
  attributes := Table.ofList [("seen", readings), ("line", .number .zero)]
  policyVersion := some ""
  scope := some "acme"

/-- What the draft gives. -/
def meter : PolicyClient.Principal where
  id := "meter"
  roles := Table.ofList [("device", ()), ("sensor", ())]
  attributes := Table.ofList [("line", .number .zero), ("seen", readings)]
  policyVersion := none
  scope := some "acme"

/-- The message of the meter, its attributes the other way round. -/
def meterMessage : Principal where
  id := "meter"
  policyVersion := ""
  roles := ["device", "sensor"]
  attributes := [("seen", readings.toWire), ("line", .number .zero)]
  scope := "acme"

/-- A message with a value unset two levels down. -/
def patchy : Value := .struct [("a", .list [.bool true, .unset]), ("b", .unset)]

theorem readings_ordered : readings.Ordered := by
  have keys : compare "at" "ok" = .lt := by decide
  exact ⟨trivial, trivial, ⟨List.pairwise_pair.2 keys, trivial, trivial, trivial⟩, trivial⟩

/-- The meter comes back from its message, and so does the list in its attributes; the patchy message
comes back with null in two places. -/
theorem meter_recovered :
    PolicyClient.Principal.ofDraft meterDraft = .ok meter ∧
      PolicyClient.Value.ofWire readings.toWire = readings ∧
      PolicyClient.Principal.ofWire meterMessage = meter ∧
      (PolicyClient.Value.ofWire patchy).toWire = .struct [("a", .list [.bool true, .null]), ("b", .null)] ∧
      PolicyClient.AuxData.ofWire ⟨"token", ""⟩ = ⟨"token", none⟩ := by
  obtain ⟨values, messages, principals, -, tokens, -⟩ := conversion_lossless
  have made : PolicyClient.Principal.ofDraft meterDraft = .ok meter := by rfl
  have built : meter.Built := ⟨meterDraft, made, trivial, readings_ordered, trivial⟩
  have sent : meterMessage.Same meter.toWire := ⟨rfl, rfl, rfl, .swap _ _ _, rfl⟩
  have keys : compare "a" "b" = .lt := by decide
  have patchyOrdered : patchy.Ordered :=
    ⟨List.pairwise_pair.2 keys, ⟨trivial, trivial, trivial⟩, trivial, trivial⟩
  exact ⟨made, values readings readings_ordered, principals meter meterMessage built sent,
    (messages patchy patchyOrdered).1, tokens ⟨"token", none⟩ ⟨"token", some "", rfl⟩⟩

end Wire

end PolicyClient
