/-
# PolicyClient.Proofs.Check.Question -- the byte form of a question determines it

The question that a request asks about one action has a byte form, and fingerprints are
digests of it.  Two questions with one byte form are about the same action, principal,
resource and auxiliary data, up to canonical form (`Request.encodeQuestion_inj`): numbers
are canonical, and an empty policy version, scope or key set is none.  The byte form tells
no more than that (`SameSubject.encodeQuestion`); the other actions have no part in it.
-/
import PolicyClient.Cache.Fingerprint
import PolicyClient.Proofs.Value.Canonical

namespace PolicyClient

set_option autoImplicit false

/-! ## Parts that may be missing -/

theorem getD_nonempty? (s : Option String) : (nonempty? s).getD "" = s.getD "" := by
  cases s with
  | none => rfl
  | some text => by_cases empty : text = "" <;> simp [nonempty?, empty, Option.filter]

theorem nonempty?_eq_iff (s t : Option String) : nonempty? s = nonempty? t ↔ s.getD "" = t.getD "" := by
  constructor
  · intro same
    rw [← getD_nonempty? s, ← getD_nonempty? t, same]
  · intro same
    have read : ∀ s : Option String, nonempty? s = if s.getD "" = "" then none else some (s.getD "") := by
      intro s
      cases s with
      | none => rfl
      | some text => by_cases empty : text = "" <;> simp [nonempty?, empty, Option.filter]
    rw [read, read, same]

/-- A set of names is known by its names. -/
theorem Table.eq_of_keys_eq {a b : Table String Unit} (same : a.keys = b.keys) : a = b := by
  have entries : ∀ t : Table String Unit, t.entries = t.keys.map fun k => (k, ()) := by
    intro t
    rw [Table.keys, List.map_map]
    exact (List.map_id' t.entries).symm
  exact Table.ext_entries (by rw [entries a, entries b, same])

/-! ## Who is asking -/

namespace Principal

def canonical (p : Principal) : Principal :=
  { p with
    attributes := Attributes.canonical p.attributes
    policyVersion := nonempty? p.policyVersion
    scope := nonempty? p.scope }

/-- Every length in the principal can be written. -/
structure Fits (p : Principal) : Prop where
  id : Encoding.Fits p.id
  count : p.roleNames.length < Encoding.limit
  roles : ∀ role ∈ p.roleNames, Encoding.Fits role
  attributes : Attributes.Fits p.attributes
  policyVersion : Encoding.Fits (p.policyVersion.getD "")
  scope : Encoding.Fits (p.scope.getD "")

theorem encode_canonical (p : Principal) : p.canonical.encode = p.encode := by
  simp only [encode, canonical, roleNames, Attributes.encode_canonical, Encoding.optionalText,
    getD_nonempty?]

theorem encode_append_inj {p q : Principal} {x y : List UInt8} (hp : p.Fits) (hq : q.Fits)
    (same : p.encode ++ x = q.encode ++ y) : p.canonical = q.canonical ∧ x = y := by
  simp only [encode, List.append_assoc] at same
  obtain ⟨ids, same⟩ := Encoding.text_append_inj hp.id hq.id same
  obtain ⟨counts, same⟩ := Encoding.count_append_inj hp.count hq.count same
  obtain ⟨roles, same⟩ := Encoding.flatMap_text_append_inj hp.roles hq.roles counts same
  obtain ⟨attributes, same⟩ := Attributes.encode_append_inj hp.attributes hq.attributes same
  obtain ⟨versions, same⟩ := Encoding.optionalText_append_inj hp.policyVersion hq.policyVersion same
  obtain ⟨scopes, same⟩ := Encoding.optionalText_append_inj hp.scope hq.scope same
  refine ⟨?_, same⟩
  simp only [canonical, Principal.mk.injEq]
  exact ⟨ids, Table.eq_of_keys_eq roles, attributes, (nonempty?_eq_iff _ _).2 versions,
    (nonempty?_eq_iff _ _).2 scopes⟩

end Principal

/-! ## What is being accessed -/

namespace Resource

def canonical (r : Resource) : Resource :=
  { r with
    attributes := Attributes.canonical r.attributes
    policyVersion := nonempty? r.policyVersion
    scope := nonempty? r.scope }

/-- Every length in the resource can be written. -/
structure Fits (r : Resource) : Prop where
  kind : Encoding.Fits r.kind
  id : Encoding.Fits r.id
  attributes : Attributes.Fits r.attributes
  policyVersion : Encoding.Fits (r.policyVersion.getD "")
  scope : Encoding.Fits (r.scope.getD "")

theorem encode_canonical (r : Resource) : r.canonical.encode = r.encode := by
  simp only [encode, canonical, Attributes.encode_canonical, Encoding.optionalText, getD_nonempty?]

theorem encode_append_inj {r s : Resource} {x y : List UInt8} (hr : r.Fits) (hs : s.Fits)
    (same : r.encode ++ x = s.encode ++ y) : r.canonical = s.canonical ∧ x = y := by
  simp only [encode, List.append_assoc] at same
  obtain ⟨kinds, same⟩ := Encoding.text_append_inj hr.kind hs.kind same
  obtain ⟨ids, same⟩ := Encoding.text_append_inj hr.id hs.id same
  obtain ⟨attributes, same⟩ := Attributes.encode_append_inj hr.attributes hs.attributes same
  obtain ⟨versions, same⟩ := Encoding.optionalText_append_inj hr.policyVersion hs.policyVersion same
  obtain ⟨scopes, same⟩ := Encoding.optionalText_append_inj hr.scope hs.scope same
  refine ⟨?_, same⟩
  simp only [canonical, Resource.mk.injEq]
  exact ⟨kinds, ids, attributes, (nonempty?_eq_iff _ _).2 versions, (nonempty?_eq_iff _ _).2 scopes⟩

end Resource

/-! ## The token that goes with it -/

namespace AuxData

def canonical (a : AuxData) : AuxData := { a with keySet := nonempty? a.keySet }

/-- Every length in the data can be written. -/
structure Fits (a : AuxData) : Prop where
  token : Encoding.Fits a.token
  keySet : Encoding.Fits (a.keySet.getD "")

theorem encodeOptional_canonical (a : Option AuxData) :
    encodeOptional (a.map canonical) = encodeOptional a := by
  cases a with
  | none => rfl
  | some a => simp only [Option.map_some, encodeOptional, encode, canonical, Encoding.optionalText,
      getD_nonempty?]

theorem encodeOptional_append_inj {a b : Option AuxData} {x y : List UInt8} (ha : ∀ d ∈ a, d.Fits)
    (hb : ∀ d ∈ b, d.Fits) (same : encodeOptional a ++ x = encodeOptional b ++ y) :
    a.map canonical = b.map canonical ∧ x = y := by
  cases a with
  | none =>
    cases b with
    | none => exact ⟨rfl, (List.cons.inj same).2⟩
    | some d => exact nomatch (List.cons.inj same).1
  | some c =>
    cases b with
    | none => exact nomatch (List.cons.inj same).1
    | some d =>
      have fitsC := ha c rfl
      have fitsD := hb d rfl
      simp only [encodeOptional, encode, List.cons_append, List.append_assoc] at same
      obtain ⟨tokens, same⟩ := Encoding.text_append_inj fitsC.token fitsD.token (List.cons.inj same).2
      obtain ⟨keySets, same⟩ := Encoding.optionalText_append_inj fitsC.keySet fitsD.keySet same
      refine ⟨congrArg some ?_, same⟩
      simp only [canonical, AuxData.mk.injEq]
      exact ⟨tokens, (nonempty?_eq_iff _ _).2 keySets⟩

end AuxData

/-! ## Questions -/

namespace Request

/-- Every length in the request can be written. -/
structure Fits (r : Request) : Prop where
  principal : r.principal.Fits
  resource : r.resource.Fits
  actions : ∀ a ∈ r.actions, Encoding.Fits a.name
  auxData : ∀ d ∈ r.auxData, d.Fits

/-- Both requests are about the same principal, resource and auxiliary data, up to canonical
form. -/
structure SameSubject (r s : Request) : Prop where
  principal : r.principal.canonical = s.principal.canonical
  resource : r.resource.canonical = s.resource.canonical
  auxData : r.auxData.map AuxData.canonical = s.auxData.map AuxData.canonical

/-- The canonical form of a question is all that its byte form tells. -/
theorem SameSubject.encodeQuestion {r s : Request} (h : SameSubject r s) (a : Action) :
    r.encodeQuestion a = s.encodeQuestion a := by
  simp only [Request.encodeQuestion]
  rw [← Principal.encode_canonical r.principal, ← Resource.encode_canonical r.resource,
    ← AuxData.encodeOptional_canonical r.auxData, h.principal, h.resource, h.auxData,
    Principal.encode_canonical, Resource.encode_canonical, AuxData.encodeOptional_canonical]

/-- **The byte form of a question determines it**, whatever the action. -/
theorem encodeQuestion_inj_of_fits {r s : Request} {a b : Action} (hr : r.Fits) (hs : s.Fits)
    (ha : Encoding.Fits a.name) (hb : Encoding.Fits b.name) (same : r.encodeQuestion a = s.encodeQuestion b) :
    a = b ∧ SameSubject r s := by
  have padded := congrArg (· ++ ([] : List UInt8)) same
  simp only [Request.encodeQuestion, List.append_assoc] at padded
  obtain ⟨principals, rest⟩ := Principal.encode_append_inj hr.principal hs.principal padded
  obtain ⟨resources, rest⟩ := Resource.encode_append_inj hr.resource hs.resource rest
  obtain ⟨names, rest⟩ := Encoding.text_append_inj ha hb rest
  obtain ⟨auxData, -⟩ := AuxData.encodeOptional_append_inj hr.auxData hs.auxData rest
  exact ⟨Action.ext_name names, principals, resources, auxData⟩

/-- The byte form of a question about one of a request's actions determines it. -/
theorem encodeQuestion_inj {r s : Request} {a b : Action} (hr : r.Fits) (hs : s.Fits)
    (ha : a ∈ r.actions) (hb : b ∈ s.actions) (same : r.encodeQuestion a = s.encodeQuestion b) :
    a = b ∧ SameSubject r s :=
  encodeQuestion_inj_of_fits hr hs (hr.actions a ha) (hs.actions b hb) same

/-- The byte form of who is asking determines principal and auxiliary data, up to canonical form. -/
theorem encodeAsker_inj {r s : Request} (hr : r.Fits) (hs : s.Fits) (same : r.encodeAsker = s.encodeAsker) :
    r.principal.canonical = s.principal.canonical ∧
      r.auxData.map AuxData.canonical = s.auxData.map AuxData.canonical := by
  have padded := congrArg (· ++ ([] : List UInt8)) same
  simp only [Request.encodeAsker, List.append_assoc] at padded
  obtain ⟨principals, rest⟩ := Principal.encode_append_inj hr.principal hs.principal padded
  obtain ⟨auxData, -⟩ := AuxData.encodeOptional_append_inj hr.auxData hs.auxData rest
  exact ⟨principals, auxData⟩

/-- Requests about one subject have one fingerprint for each action. -/
theorem SameSubject.fingerprint {r s : Request} (h : SameSubject r s) (a : Action) :
    Fingerprint.of r a = Fingerprint.of s a := by
  rw [Fingerprint.of, Fingerprint.of, h.encodeQuestion a]

end Request

end PolicyClient
