/-
# PolicyClient.Proofs.Remote.Agreement -- remote calls answer as evaluation one by one would

A batch goes to a remote service in calls, one for each group of requests with one asker, and
the calls come back in any order.  A service is `Faithful` to an evaluation when it answers a
call by evaluating its entries one after the other, each for the principal and the auxiliary
data that the call names.

Main statement: whatever the batch and the order in which its calls come back, a faithful
service gives each request the answer of the evaluation of its own principal, resource,
actions and auxiliary data, and says nothing else (`Remote.replies_evaluated`).  These are the
replies of the batch evaluated in memory.  Requests that share a call have principals that differ
in the signs of zeros and the bits of NaNs at most, so the evaluation has to overlook these;
and no two askers of the batch may have one digest.
-/
import PolicyClient.Proofs.Check.Question
import PolicyClient.Proofs.Remote.Grouping
import PolicyClient.Remote.Pairing

namespace PolicyClient

set_option autoImplicit false

/-- Data of one canonical form is one message. -/
theorem AuxData.map_toWire_eq {a b : Option AuxData} (same : a.map canonical = b.map canonical) :
    a.map toWire = b.map toWire := by
  have message : ∀ d : AuxData, d.canonical.toWire = d.toWire := fun d => by
    simp only [toWire, canonical, getD_nonempty?]
  have images := congrArg (Option.map toWire) same
  simpa only [Option.map_map, Function.comp_def, message] using images

namespace Remote

/-- How one entry is decided for a principal with auxiliary data. -/
abbrev Evaluation := Wire.Principal → Wire.ResourceEntry → Option Wire.AuxData → Wire.ResultEntry

/-- A service that answers calls by `eval`. -/
structure Faithful (eval : Evaluation) (serve : Wire.CheckCall → Wire.CheckResponse) : Prop where
  /-- The request id comes back. -/
  echoesId : ∀ call, (serve call).requestId = call.requestId
  /-- There is one entry for each resource, in order. -/
  results : ∀ call, (serve call).results =
    call.resources.map fun entry => eval call.principal entry call.auxData
  /-- An entry names the kind and the id that were asked about. -/
  echoes : ∀ principal entry auxData, ∃ echoed,
    (eval principal entry auxData).resource = some echoed ∧
      echoed.kind = entry.resource.kind ∧ echoed.id = entry.resource.id
  /-- Principals that differ in the signs of zeros and the bits of NaNs only are not told apart. -/
  forms : ∀ p q : Principal, p.canonical = q.canonical → eval p.toWire = eval q.toWire

/-- The answer to a request evaluated by itself. -/
def Evaluation.answer (eval : Evaluation) (r : Request) : Answer :=
  .ofEntry (eval r.principal.toWire r.toEntry (r.auxData.map AuxData.toWire))

/-- No two askers of the batch collide: byte forms of one digest are one. -/
def KeysApart (batch : Batch) : Prop :=
  ∀ i ∈ batch.items, ∀ j ∈ batch.items,
    Digest.of i.request.encodeAsker = Digest.of j.request.encodeAsker →
      i.request.encodeAsker = j.request.encodeAsker

variable {eval : Evaluation} {serve : Wire.CheckCall → Wire.CheckResponse}

/-- An entry that names the resource in its slot answers it. -/
theorem replyTo_of_echo {item : Item} {entry : Wire.ResultEntry} {echoed : Wire.ResultResource}
    (names : entry.resource = some echoed) (kind : echoed.kind = item.request.resource.kind)
    (id : echoed.id = item.request.resource.id) :
    replyTo item entry = .result item.token (Answer.ofEntry entry) := by
  simp only [replyTo, names]
  exact if_pos ⟨kind, id⟩

/-- A response with one entry for each item is paired without surplus. -/
theorem replies_map {id : String} {response : Wire.CheckResponse} {items : List Item}
    {entry : Item → Wire.ResultEntry} (named : response.requestId = id)
    (results : response.results = items.map entry) :
    replies id items response = items.map fun i => replyTo i (entry i) := by
  have paired : List.zipWith replyTo items (items.map entry) = items.map fun i => replyTo i (entry i) := by
    rw [List.zipWith_map_right, List.zipWith_self]
  rw [replies, if_neg (not_not_intro named), results, paired, List.drop_of_length_le (by simp)]
  exact List.append_nil _

namespace Faithful

/-- Requests of one asker are evaluated alike, whichever of them tells who is asking. -/
theorem eval_eq (h : Faithful eval serve) {r s : Request} (hr : r.Fits) (hs : s.Fits)
    (same : r.encodeAsker = s.encodeAsker) (entry : Wire.ResourceEntry) :
    eval r.principal.toWire entry (r.auxData.map AuxData.toWire) =
      eval s.principal.toWire entry (s.auxData.map AuxData.toWire) := by
  obtain ⟨principals, auxData⟩ := Request.encodeAsker_inj hr hs same
  rw [h.forms _ _ principals, AuxData.map_toWire_eq auxData]

/-- Each item of a call is told its own answer. -/
theorem replies_call (h : Faithful eval serve) {batch : Batch} (fits : ∀ i ∈ batch.items, i.request.Fits)
    (apart : KeysApart batch) {c : GroupCall} (made : c ∈ calls batch) :
    c.replies (serve c.call) = c.items.map fun i => .result i.token (eval.answer i.request) := by
  obtain ⟨grouped, index, first, rest, rfl⟩ := mem_calls made
  have results : (serve (call (Remote.requestId batch.id index) first rest)).results =
      (first :: rest).map fun i => eval first.request.principal.toWire i.request.toEntry
        (first.request.auxData.map AuxData.toWire) := by
    rw [h.results, call, List.map_map]
    rfl
  rw [GroupCall.replies, replies_map (h.echoesId _) results]
  refine List.map_congr_left fun i member => ?_
  obtain ⟨firstIn, iIn, keys⟩ := mem_of_mem_group grouped (List.mem_cons_self ..) member
  rw [h.eval_eq (fits first firstIn) (fits i iIn) (apart first firstIn i iIn keys)]
  obtain ⟨echoed, names, kind, id⟩ := h.echoes i.request.principal.toWire i.request.toEntry
    (i.request.auxData.map AuxData.toWire)
  exact replyTo_of_echo names kind id

end Faithful

/-- **Remote calls answer as evaluation one by one would**: whatever the batch and the order in which
its calls come back, each request gets the answer of its own evaluation, and nothing else is said. -/
theorem replies_evaluated (h : Faithful eval serve) {batch : Batch}
    (fits : ∀ i ∈ batch.items, i.request.Fits) (apart : KeysApart batch) {order : List GroupCall}
    (all : order.Perm (calls batch)) :
    (order.flatMap fun c => c.replies (serve c.call)).Perm
        (batch.items.map fun i => .result i.token (eval.answer i.request)) ∧
      (batch.items.map fun i => .result i.token (eval.answer i.request)) =
        batch.evaluate fun r => .ok (eval.answer r) := by
  refine ⟨?_, rfl⟩
  let reply (i : Item) : Reply := .result i.token (eval.answer i.request)
  have told : (order.flatMap fun c => c.replies (serve c.call)) = order.flatMap fun c => c.items.map reply :=
    List.flatMap_congr fun c member => h.replies_call fits apart (all.mem_iff.1 member)
  have grouped : ((calls batch).flatMap fun c => c.items.map reply) =
      (group batch.items).flatten.map reply := by
    rw [← items_calls, List.map_flatten, List.map_map, List.flatMap_def]
    rfl
  rw [told]
  refine (all.flatMap_right _).trans ?_
  rw [grouped]
  exact (group_perm batch.items).map reply

/-- Alice may read. -/
def aliceReads : Evaluation := fun principal entry _ =>
  { resource := some { id := entry.resource.id, kind := entry.resource.kind }
    effects := Table.ofList (entry.actions.map fun action =>
      (action, if principal.id = "alice" ∧ action = "read" then 1 else 2)) }

/-- A service that goes by it. -/
def aliceReadsService (call : Wire.CheckCall) : Wire.CheckResponse :=
  { requestId := call.requestId
    results := call.resources.map fun entry => aliceReads call.principal entry call.auxData }

theorem aliceReads_faithful : Faithful aliceReads aliceReadsService where
  echoesId _ := rfl
  results _ := rfl
  echoes _ _ _ := ⟨_, rfl, rfl, rfl⟩
  forms p q same := by
    have ids : p.toWire.id = q.toWire.id := (Principal.mk.inj same).1
    funext entry auxData
    rw [aliceReads, ids]
    rfl

def read : Action := ⟨"read", by decide⟩

def edit : Action := ⟨"edit", by decide⟩

/-- Somebody asks about one action on a document; one attribute of theirs is a zero. -/
def asks (name : String) (zero : Binary64) (action : Action) : Request where
  principal := ⟨name, .ofList [("employee", ())], .ofList [("level", .number zero)], none, none⟩
  resource := ⟨"document", "1", .empty, none, none⟩
  actions := [action]
  auxData := none

theorem asks_fits {name : String} {action : Action} (zero : Binary64) (named : Encoding.Fits name)
    (fits : Encoding.Fits action.name) : (asks name zero action).Fits where
  principal := {
    id := named
    count := (by decide : 1 < Encoding.limit)
    roles := (by decide : ∀ role ∈ ["employee"], Encoding.Fits role)
    attributes := ⟨(by decide : 1 < Encoding.limit), (by decide : Encoding.Fits "level"), trivial, trivial⟩
    policyVersion := (by decide : Encoding.Fits "")
    scope := (by decide : Encoding.Fits "") }
  resource := {
    kind := (by decide : Encoding.Fits "document")
    id := (by decide : Encoding.Fits "1")
    attributes := ⟨(by decide : 0 < Encoding.limit), trivial⟩
    policyVersion := (by decide : Encoding.Fits "")
    scope := (by decide : Encoding.Fits "") }
  actions a member := List.mem_singleton.1 member ▸ fits
  auxData := nofun

/-- Alice asks, then Bob, and then Alice again, with the other zero. -/
def bothZeros : Batch :=
  ⟨⟨1⟩, [⟨⟨1⟩, asks "alice" .zero read⟩, ⟨⟨2⟩, asks "bob" .zero read⟩,
    ⟨⟨3⟩, asks "alice" (.ofMagnitude true 0) edit⟩]⟩

/-- The zeros are one to the digest, so what Alice asks shares a call, and Bob's call is another.  His
comes back first, and each request has its answer. -/
theorem bothZeros_answered :
    Faithful aliceReads aliceReadsService ∧ (∀ i ∈ bothZeros.items, i.request.Fits) ∧ KeysApart bothZeros ∧
      ((calls bothZeros).reverse.map fun c => c.items.map Item.token) = [[⟨2⟩], [⟨1⟩, ⟨3⟩]] ∧
      ((calls bothZeros).reverse.flatMap fun c => c.replies (aliceReadsService c.call)).Perm
        [.result ⟨1⟩ (.ofDecisions [(read, .allow)]), .result ⟨2⟩ (.ofDecisions [(read, .deny)]),
          .result ⟨3⟩ (.ofDecisions [(edit, .deny)])] := by
  have fits : ∀ i ∈ bothZeros.items, i.request.Fits := by
    simp only [bothZeros, List.forall_mem_cons]
    exact ⟨asks_fits _ (by decide) (by decide), asks_fits _ (by decide) (by decide),
      asks_fits _ (by decide) (by decide), nofun⟩
  have apart : KeysApart bothZeros := by
    unfold KeysApart
    decide +kernel
  exact ⟨aliceReads_faithful, fits, apart, by decide +kernel,
    (replies_evaluated aliceReads_faithful fits apart (calls bothZeros).reverse_perm).1⟩

end Remote

end PolicyClient
