/-
# PolicyClient.Proofs.Check.Identity -- what makes two questions one

A request is put together by calls (`Composition`): calls on the drafts of its principal and
its resource, in any order, then the choice of actions, then perhaps a token.  Two requests
are `Alike` when they have the same asker, object and auxiliary data, attribute values being
compared as a reader would (`Value.alike`).  Two compositions are `Alike` when the calls name
the same roles, write alike values last under each name, and give the same versions, scopes
and key set last, an empty one counting as none.

Main statement: the byte form of the question about an action identifies the action and the
request up to likeness, and requests are alike exactly when the calls are
(`Request.question_identified`).  So neither the order of the calls for different names nor the
other actions of a request have any part in it.
-/
import PolicyClient.Proofs.Check.Question
import PolicyClient.Proofs.Value.Likeness

namespace PolicyClient

set_option autoImplicit false

/-! ## Requests that are alike -/

/-- The same principal, attribute values compared by `Value.alike`. -/
structure Principal.Alike (p q : Principal) : Prop where
  id : p.id = q.id
  roles : ∀ role, role ∈ p.roleNames ↔ role ∈ q.roleNames
  attributes : Attributes.Alike p.attributes q.attributes
  policyVersion : p.policyVersion = q.policyVersion
  scope : p.scope = q.scope

/-- The same resource, attribute values compared by `Value.alike`. -/
structure Resource.Alike (r s : Resource) : Prop where
  kind : r.kind = s.kind
  id : r.id = s.id
  attributes : Attributes.Alike r.attributes s.attributes
  policyVersion : r.policyVersion = s.policyVersion
  scope : r.scope = s.scope

/-- The same asker, object and auxiliary data; the actions do not matter. -/
structure Request.Alike (r s : Request) : Prop where
  principal : r.principal.Alike s.principal
  resource : r.resource.Alike s.resource
  auxData : r.auxData = s.auxData

/-! ## Calls on a draft -/

namespace Draft

/-- One call on a draft. -/
inductive Edit
  | role (name : String)
  | roles (names : List String)
  | write (name : String) (value : Value)
  | writes (entries : List (String × Value))
  | policyVersion (version : String)
  | scope (name : String)

namespace Edit

def apply (d : Draft) : Edit → Draft
  | .role name => d.withRole name
  | .roles names => d.withRoles names
  | .write name value => d.withAttribute name value
  | .writes entries => d.withAttributes entries
  | .policyVersion version => d.withPolicyVersion version
  | .scope name => d.withScope name

/-- The roles that the call adds. -/
def named : Edit → List String
  | .role name => [name]
  | .roles names => names
  | _ => []

/-- The attributes that the call writes, in the order of writing. -/
def written : Edit → List (String × Value)
  | .write name value => [(name, value)]
  | .writes entries => entries
  | _ => []

def version? : Edit → Option String
  | .policyVersion version => some version
  | _ => none

def scope? : Edit → Option String
  | .scope name => some name
  | _ => none

/-- The value that the calls write last under a name. -/
def lastValue? (edits : List Edit) (name : String) : Option Value :=
  ((edits.flatMap written).filter fun e => e.1 = name).getLast?.map (·.2)

/-- The calls write alike values last under every name, and give the same policy version and
scope last; an empty one is none. -/
structure Alike (c d : List Edit) : Prop where
  attributes : ∀ name, Option.Rel (fun v w => v.alike w = true) (lastValue? c name) (lastValue? d name)
  policyVersion : nonempty? (c.filterMap version?).getLast? = nonempty? (d.filterMap version?).getLast?
  scope : nonempty? (c.filterMap scope?).getLast? = nonempty? (d.filterMap scope?).getLast?

end Edit

/-- The draft that the calls leave behind. -/
def edited (id : String) (edits : List Edit) : Draft := edits.foldl Edit.apply { id }

theorem withRoles_roles (d : Draft) (names : List String) :
    d.withRoles names = { d with roles := d.roles.insertAll (names.map fun name => (name, ())) } := by
  induction names generalizing d with
  | nil => rfl
  | cons name rest ih => exact ih (d.withRole name)

/-- What a call leaves in each part. -/
theorem apply_eq (d : Draft) (e : Edit) :
    Edit.apply d e =
      { id := d.id
        roles := d.roles.insertAll (e.named.map fun name => (name, ()))
        attributes := d.attributes.insertAll e.written
        policyVersion := e.version?.or d.policyVersion
        scope := e.scope?.or d.scope } := by
  cases e with
  | roles names => exact d.withRoles_roles names
  | _ => rfl

theorem foldl_apply (d : Draft) (edits : List Edit) :
    edits.foldl Edit.apply d =
      { id := d.id
        roles := d.roles.insertAll ((edits.flatMap Edit.named).map fun name => (name, ()))
        attributes := d.attributes.insertAll (edits.flatMap Edit.written)
        policyVersion := (edits.filterMap Edit.version?).getLast?.or d.policyVersion
        scope := (edits.filterMap Edit.scope?).getLast?.or d.scope } := by
  induction edits generalizing d with
  | nil => rfl
  | cons e rest ih =>
    have later : ∀ (f : Edit → Option String) (before : Option String),
        ((e :: rest).filterMap f).getLast?.or before = (rest.filterMap f).getLast?.or ((f e).or before) := by
      intro f before
      cases given : f e with
      | none => simp [given]
      | some text => cases last : (rest.filterMap f).getLast? <;> simp [given, List.getLast?_cons, last]
    rw [List.foldl_cons, ih, apply_eq, later, later]
    simp only [Table.insertAll, List.flatMap_cons, List.map_append, List.foldl_append]

theorem mem_roles_edited (id : String) (edits : List Edit) (role : String) :
    role ∈ (edited id edits).roles.keys ↔ role ∈ edits.flatMap Edit.named := by
  rw [edited, foldl_apply, Table.mem_keys_iff]
  simp only [Table.get?_insertAll, Table.get?_empty, Option.or_none, Option.map_eq_some_iff]
  constructor
  · rintro ⟨-, e, last, -⟩
    obtain ⟨member, key⟩ := List.mem_filter.1 (List.mem_of_getLast? last)
    obtain ⟨name, named, rfl⟩ := List.mem_map.1 member
    exact of_decide_eq_true key ▸ named
  · intro named
    have member : (role, ()) ∈
        ((edits.flatMap Edit.named).map fun name => (name, ())).filter fun e => e.1 = role :=
      List.mem_filter.2 ⟨List.mem_map_of_mem named, decide_eq_true rfl⟩
    exact ⟨(), _, List.getLast?_eq_some_getLast (List.ne_nil_of_mem member), trivial⟩

theorem attributes_edited (id : String) (edits : List Edit) (name : String) :
    (edited id edits).attributes.get? name = Edit.lastValue? edits name := by
  rw [edited, foldl_apply, Table.get?_insertAll]
  exact Option.or_none

theorem policyVersion_edited (id : String) (edits : List Edit) :
    (edited id edits).policyVersion = (edits.filterMap Edit.version?).getLast? := by
  rw [edited, foldl_apply]
  exact Option.or_none

theorem scope_edited (id : String) (edits : List Edit) :
    (edited id edits).scope = (edits.filterMap Edit.scope?).getLast? := by
  rw [edited, foldl_apply]
  exact Option.or_none

theorem id_edited (id : String) (edits : List Edit) : (edited id edits).id = id := by
  rw [edited, foldl_apply]

end Draft

/-! ## Putting a request together -/

/-- The calls that put a request together. -/
structure Composition where
  principalId : String
  principalEdits : List Draft.Edit
  resourceKind : String
  resourceId : String
  resourceEdits : List Draft.Edit
  actions : List Action
  /-- A token and the name of its key set. -/
  auxData : Option (String × Option String)

namespace Composition

/-- What the calls give. -/
def request (c : Composition) : Except Error Request := do
  let principal ← Principal.ofDraft (Draft.edited c.principalId c.principalEdits)
  let resource ← Resource.ofDraft c.resourceKind (Draft.edited c.resourceId c.resourceEdits)
  let request ← Request.ofActions principal resource c.actions
  match c.auxData with
  | none => .ok request
  | some (token, keySet) => return request.withAuxData (← AuxData.ofToken token keySet)

/-- The calls ask about the same subject: order and actions aside, they say the same. -/
structure Alike (c d : Composition) : Prop where
  principalId : c.principalId = d.principalId
  roles : ∀ role, role ∈ c.principalEdits.flatMap Draft.Edit.named ↔
    role ∈ d.principalEdits.flatMap Draft.Edit.named
  principal : Draft.Edit.Alike c.principalEdits d.principalEdits
  resourceKind : c.resourceKind = d.resourceKind
  resourceId : c.resourceId = d.resourceId
  resource : Draft.Edit.Alike c.resourceEdits d.resourceEdits
  auxData : (c.auxData.map fun a => (a.1, nonempty? a.2)) = d.auxData.map fun a => (a.1, nonempty? a.2)

end Composition

theorem Principal.ofDraft_eq_ok {d : Draft} {p : Principal} (h : ofDraft d = .ok p) :
    p = ⟨d.id, d.roles, d.attributes, nonempty? d.policyVersion, nonempty? d.scope⟩ := by
  unfold ofDraft at h
  split at h
  · cases h
  · split at h
    · cases h
    · split at h
      · cases h
      · exact (Except.ok.inj h).symm

theorem Resource.ofDraft_eq_ok {kind : String} {d : Draft} {r : Resource} (h : ofDraft kind d = .ok r) :
    r = ⟨kind, d.id, d.attributes, nonempty? d.policyVersion, nonempty? d.scope⟩ := by
  unfold ofDraft at h
  split at h
  · cases h
  · split at h
    · cases h
    · exact (Except.ok.inj h).symm

theorem AuxData.ofToken_eq_ok {token : String} {keySet : Option String} {a : AuxData}
    (h : ofToken token keySet = .ok a) : a = ⟨token, nonempty? keySet⟩ := by
  unfold ofToken at h
  split at h
  · cases h
  · exact (Except.ok.inj h).symm

theorem Request.ofActions_eq_ok {principal : Principal} {resource : Resource} {actions : List Action}
    {r : Request} (h : ofActions principal resource actions = .ok r) :
    r = ⟨principal, resource, actions, none⟩ := by
  unfold ofActions at h
  split at h
  · cases h
  · split at h
    · cases h
    · exact (Except.ok.inj h).symm

theorem nonempty?_nonempty? (s : Option String) : nonempty? (nonempty? s) = nonempty? s :=
  (nonempty?_eq_iff _ _).2 (getD_nonempty? s)

section Parts

variable {i j kind kind' : String} {c d : List Draft.Edit}

/-- Principals are alike exactly when the calls on their drafts are. -/
theorem Principal.alike_iff_edits {p q : Principal} (hp : ofDraft (Draft.edited i c) = .ok p)
    (hq : ofDraft (Draft.edited j d) = .ok q) :
    p.Alike q ↔ i = j ∧ (∀ role, role ∈ c.flatMap Draft.Edit.named ↔ role ∈ d.flatMap Draft.Edit.named) ∧
      Draft.Edit.Alike c d := by
  cases ofDraft_eq_ok hp
  cases ofDraft_eq_ok hq
  constructor
  · rintro ⟨ids, roles, attributes, versions, scopes⟩
    simp only [roleNames, Draft.id_edited, Draft.mem_roles_edited, Attributes.Alike,
      Draft.attributes_edited, Draft.policyVersion_edited, Draft.scope_edited] at *
    exact ⟨ids, roles, attributes, versions, scopes⟩
  · rintro ⟨ids, roles, attributes, versions, scopes⟩
    constructor <;> simpa only [roleNames, Draft.id_edited, Draft.mem_roles_edited, Attributes.Alike,
      Draft.attributes_edited, Draft.policyVersion_edited, Draft.scope_edited]

/-- Resources are alike exactly when the calls on their drafts are. -/
theorem Resource.alike_iff_edits {r s : Resource} (hr : ofDraft kind (Draft.edited i c) = .ok r)
    (hs : ofDraft kind' (Draft.edited j d) = .ok s) :
    r.Alike s ↔ kind = kind' ∧ i = j ∧ Draft.Edit.Alike c d := by
  cases ofDraft_eq_ok hr
  cases ofDraft_eq_ok hs
  constructor
  · rintro ⟨kinds, ids, attributes, versions, scopes⟩
    simp only [Draft.id_edited, Attributes.Alike, Draft.attributes_edited, Draft.policyVersion_edited,
      Draft.scope_edited] at *
    exact ⟨kinds, ids, attributes, versions, scopes⟩
  · rintro ⟨kinds, ids, attributes, versions, scopes⟩
    constructor <;> simpa only [Draft.id_edited, Attributes.Alike, Draft.attributes_edited,
      Draft.policyVersion_edited, Draft.scope_edited]

/-- What comes out of drafts is alike when it has one canonical form. -/
theorem Principal.alike_iff_canonical {x y : Draft} {p q : Principal} (hp : ofDraft x = .ok p)
    (hq : ofDraft y = .ok q) : p.Alike q ↔ p.canonical = q.canonical := by
  cases ofDraft_eq_ok hp
  cases ofDraft_eq_ok hq
  simp only [canonical, Principal.mk.injEq, nonempty?_nonempty?]
  constructor
  · rintro ⟨ids, roles, attributes, versions, scopes⟩
    have named : ∀ role, (∃ u, x.roles.get? role = some u) ↔ ∃ u, y.roles.get? role = some u := by
      simpa only [roleNames, Table.mem_keys_iff] using roles
    have known : x.roles = y.roles := by
      refine Table.ext_get? fun role => Option.ext fun u => ⟨fun h => ?_, fun h => ?_⟩
      · obtain ⟨_, h'⟩ := (named role).1 ⟨u, h⟩
        exact h'
      · obtain ⟨_, h'⟩ := (named role).2 ⟨u, h⟩
        exact h'
    exact ⟨ids, known, (Attributes.alike_iff _ _).1 attributes, versions, scopes⟩
  · rintro ⟨ids, roles, attributes, versions, scopes⟩
    exact ⟨ids, fun role => by rw [roleNames, roleNames, roles], (Attributes.alike_iff _ _).2 attributes,
      versions, scopes⟩

/-- What comes out of drafts is alike when it has one canonical form. -/
theorem Resource.alike_iff_canonical {x y : Draft} {r s : Resource} (hr : ofDraft kind x = .ok r)
    (hs : ofDraft kind' y = .ok s) : r.Alike s ↔ r.canonical = s.canonical := by
  cases ofDraft_eq_ok hr
  cases ofDraft_eq_ok hs
  simp only [canonical, Resource.mk.injEq, nonempty?_nonempty?]
  constructor
  · rintro ⟨kinds, ids, attributes, versions, scopes⟩
    exact ⟨kinds, ids, (Attributes.alike_iff _ _).1 attributes, versions, scopes⟩
  · rintro ⟨kinds, ids, attributes, versions, scopes⟩
    exact ⟨kinds, ids, (Attributes.alike_iff _ _).2 attributes, versions, scopes⟩

end Parts

namespace Composition

/-- The parts of a request come from the calls. -/
structure Makes (c : Composition) (r : Request) : Prop where
  principal : Principal.ofDraft (Draft.edited c.principalId c.principalEdits) = .ok r.principal
  resource : Resource.ofDraft c.resourceKind (Draft.edited c.resourceId c.resourceEdits) = .ok r.resource
  auxData : r.auxData = c.auxData.map fun a => ⟨a.1, nonempty? a.2⟩

variable {c d : Composition} {r s : Request}

theorem makes (h : c.request = .ok r) : c.Makes r := by
  unfold request at h
  obtain ⟨p, principal, h⟩ := ok_of_bind h
  obtain ⟨o, resource, h⟩ := ok_of_bind h
  obtain ⟨q, asked, h⟩ := ok_of_bind h
  cases Request.ofActions_eq_ok asked
  split at h
  · rename_i absent
    cases h
    exact ⟨principal, resource, by rw [absent]; rfl⟩
  · rename_i token keySet given
    obtain ⟨a, checked, h⟩ := ok_of_bind h
    cases AuxData.ofToken_eq_ok checked
    cases h
    exact ⟨principal, resource, by rw [given]; rfl⟩

/-- Requests are alike exactly when the calls that made them are. -/
theorem Makes.alike_iff (hr : c.Makes r) (hs : d.Makes s) : r.Alike s ↔ c.Alike d := by
  have askers := Principal.alike_iff_edits hr.principal hs.principal
  have objects := Resource.alike_iff_edits hr.resource hs.resource
  have tokens : r.auxData = s.auxData ↔
      (c.auxData.map fun a => (a.1, nonempty? a.2)) = d.auxData.map fun a => (a.1, nonempty? a.2) := by
    rw [hr.auxData, hs.auxData]
    cases c.auxData <;> cases d.auxData <;> simp
  constructor
  · rintro ⟨asker, object, token⟩
    obtain ⟨principalId, roles, principal⟩ := askers.1 asker
    obtain ⟨resourceKind, resourceId, resource⟩ := objects.1 object
    exact ⟨principalId, roles, principal, resourceKind, resourceId, resource, tokens.1 token⟩
  · intro h
    exact ⟨askers.2 ⟨h.principalId, h.roles, h.principal⟩,
      objects.2 ⟨h.resourceKind, h.resourceId, h.resource⟩, tokens.2 h.auxData⟩

/-- Auxiliary data that comes from calls has its canonical form. -/
theorem Makes.auxData_canonical_iff (hr : c.Makes r) (hs : d.Makes s) :
    r.auxData.map AuxData.canonical = s.auxData.map AuxData.canonical ↔ r.auxData = s.auxData := by
  rw [hr.auxData, hs.auxData]
  cases c.auxData <;> cases d.auxData <;> simp [AuxData.canonical, nonempty?_nonempty?]

/-- Requests that calls have made are alike when they have one canonical form. -/
theorem Makes.sameSubject_iff (hr : c.Makes r) (hs : d.Makes s) : r.SameSubject s ↔ r.Alike s := by
  have askers := Principal.alike_iff_canonical hr.principal hs.principal
  have objects := Resource.alike_iff_canonical hr.resource hs.resource
  have tokens := hr.auxData_canonical_iff hs
  constructor
  · intro h
    exact ⟨askers.2 h.principal, objects.2 h.resource, tokens.1 h.auxData⟩
  · intro h
    exact ⟨askers.1 h.principal, objects.1 h.resource, tokens.2 h.auxData⟩

end Composition

/-! ## The byte form of a question -/

namespace Request

/-- **The byte form of a question identifies it**: whatever calls made two requests, questions about
actions of theirs, or of anyone's, are written alike exactly when the actions are the same and the
requests are alike.  And requests are alike exactly when the calls are, whose likeness looks at no
order but that of the writes under one name, and at no action. -/
theorem question_identified {c d : Composition} {r s : Request} (hr : c.request = .ok r)
    (hs : d.request = .ok s) (rFits : r.Fits) (sFits : s.Fits) {a b : Action}
    (aFits : Encoding.Fits a.name) (bFits : Encoding.Fits b.name) :
    (r.encodeQuestion a = s.encodeQuestion b ↔ a = b ∧ r.Alike s) ∧ (r.Alike s ↔ c.Alike d) := by
  have subjects := (Composition.makes hr).sameSubject_iff (Composition.makes hs)
  refine ⟨⟨fun same => ?_, ?_⟩, (Composition.makes hr).alike_iff (Composition.makes hs)⟩
  · obtain ⟨actions, subject⟩ := encodeQuestion_inj_of_fits rFits sFits aFits bFits same
    exact ⟨actions, subjects.1 subject⟩
  · rintro ⟨rfl, alike⟩
    exact (subjects.2 alike).encodeQuestion a

def approve : Action := ⟨"approve", by decide⟩

def delete : Action := ⟨"delete", by decide⟩

/-- Roles in one order, then a zero under `level`, and a scope that is empty. -/
def rolesFirst : Composition where
  principalId := "alice"
  principalEdits := [.roles ["employee", "manager"], .write "level" (.number .zero), .scope ""]
  resourceKind := "document"
  resourceId := "1"
  resourceEdits := []
  actions := [approve]
  auxData := some ("token", some "")

/-- The other zero first, after a value that it replaces, and then the roles in another order. -/
def rolesLast : Composition where
  principalId := "alice"
  principalEdits :=
    [.write "level" .null, .write "level" (.number (.ofMagnitude true 0)), .role "manager", .role "employee"]
  resourceKind := "document"
  resourceId := "1"
  resourceEdits := []
  actions := [delete, approve]
  auxData := some ("token", none)

/-- What both of them ask about, up to the sign of the zero. -/
def aliceAtLevel (zero : Binary64) (actions : List Action) : Request where
  principal :=
    ⟨"alice", .ofList [("employee", ()), ("manager", ())], .ofList [("level", .number zero)], none, none⟩
  resource := ⟨"document", "1", .empty, none, none⟩
  actions := actions
  auxData := some ⟨"token", none⟩

theorem aliceAtLevel_fits (zero : Binary64) (actions : List Action)
    (fits : ∀ a ∈ actions, Encoding.Fits a.name) : (aliceAtLevel zero actions).Fits where
  principal := {
    id := (by decide : Encoding.Fits "alice")
    count := (by decide : 2 < Encoding.limit)
    roles := (by decide : ∀ role ∈ ["employee", "manager"], Encoding.Fits role)
    attributes := ⟨(by decide : 1 < Encoding.limit), (by decide : Encoding.Fits "level"), trivial, trivial⟩
    policyVersion := (by decide : Encoding.Fits "")
    scope := (by decide : Encoding.Fits "") }
  resource := {
    kind := (by decide : Encoding.Fits "document")
    id := (by decide : Encoding.Fits "1")
    attributes := ⟨(by decide : 0 < Encoding.limit), trivial⟩
    policyVersion := (by decide : Encoding.Fits "")
    scope := (by decide : Encoding.Fits "") }
  actions := fits
  auxData
    | _, rfl => ⟨(by decide : Encoding.Fits "token"), (by decide : Encoding.Fits "")⟩

theorem rolesFirst_alike_rolesLast : rolesFirst.Alike rolesLast where
  principalId := rfl
  roles role := by
    rw [show rolesFirst.principalEdits.flatMap Draft.Edit.named = ["employee", "manager"] from rfl,
      show rolesLast.principalEdits.flatMap Draft.Edit.named = ["manager", "employee"] from rfl]
    simp [or_comm]
  principal :=
    { attributes := fun name => by
        by_cases level : "level" = name <;>
          simp [Draft.Edit.lastValue?, rolesFirst, rolesLast, Draft.Edit.written, level]
        decide
      policyVersion := rfl
      scope := rfl }
  resourceKind := rfl
  resourceId := rfl
  resource := ⟨fun _ => .none, rfl, rfl⟩
  auxData := rfl

/-- The question about approving is one, in whatever way it was put together; the question about
deleting is another. -/
theorem reordered_question :
    ∃ r s, rolesFirst.request = .ok r ∧ rolesLast.request = .ok s ∧
      r.encodeQuestion approve = s.encodeQuestion approve ∧
      r.encodeQuestion approve ≠ s.encodeQuestion delete := by
  have first : rolesFirst.request = .ok (aliceAtLevel .zero rolesFirst.actions) := by rfl
  have last : rolesLast.request = .ok (aliceAtLevel (.ofMagnitude true 0) rolesLast.actions) := by rfl
  have firstFits := aliceAtLevel_fits .zero rolesFirst.actions (by decide)
  have lastFits := aliceAtLevel_fits (.ofMagnitude true 0) rolesLast.actions (by decide)
  obtain ⟨approving, composed⟩ :=
    question_identified first last firstFits lastFits (a := approve) (b := approve) (by decide) (by decide)
  obtain ⟨deleting, -⟩ :=
    question_identified first last firstFits lastFits (a := approve) (b := delete) (by decide) (by decide)
  refine ⟨_, _, first, last, approving.2 ⟨rfl, composed.2 rolesFirst_alike_rolesLast⟩, fun same => ?_⟩
  exact absurd (deleting.1 same).1 (by decide)

end Request

end PolicyClient
