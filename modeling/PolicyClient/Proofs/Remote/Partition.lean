/-
# PolicyClient.Proofs.Remote.Partition -- grouping parts a batch by who is asking

Grouping is about positions in a batch, so it does not matter whether an item stands there twice.
`Partitions` says what a stable partition of the positions is: each of them is in one group, a
group is in the order of the batch, the groups are in the order of their first positions, and two
positions are together exactly when their items are related.

Requests have one asker when principal and auxiliary data are the same to a reader
(`Request.SameAsker`); what they ask about has no part in it.  Requests that calls have made have
one key exactly then (`Request.groupKey_eq_iff`), if no two askers of the batch have one digest.

Main statement: the groups of a batch are the stable partition of its positions by asker
(`Remote.group_partitions`).
-/
import Mathlib.Data.List.FinRange
import PolicyClient.Proofs.Check.Identity
import PolicyClient.Proofs.Remote.Agreement

namespace PolicyClient

set_option autoImplicit false

/-! ## Who is asking -/

namespace Request

/-- The same principal and the same auxiliary data, attribute values compared by `Value.alike`. -/
structure SameAsker (r s : Request) : Prop where
  principal : r.principal.Alike s.principal
  auxData : r.auxData = s.auxData

/-- Calls have made the request; some of its actions may have been left out since. -/
def Composed (r : Request) : Prop := ∃ c : Composition, c.Makes r

variable {r s : Request}

/-- Askers of one canonical form are those that are the same to a reader. -/
theorem Composed.canonical_iff (hr : r.Composed) (hs : s.Composed) :
    (r.principal.canonical = s.principal.canonical ∧
      r.auxData.map AuxData.canonical = s.auxData.map AuxData.canonical) ↔ r.SameAsker s := by
  obtain ⟨c, hc⟩ := hr
  obtain ⟨d, hd⟩ := hs
  have askers := Principal.alike_iff_canonical hc.principal hd.principal
  have tokens := hc.auxData_canonical_iff hd
  exact ⟨fun ⟨principals, auxData⟩ => ⟨askers.2 principals, tokens.1 auxData⟩,
    fun same => ⟨askers.1 same.principal, tokens.2 same.auxData⟩⟩

/-- The canonical form of who is asking is all that its byte form tells. -/
theorem encodeAsker_congr (principals : r.principal.canonical = s.principal.canonical)
    (auxData : r.auxData.map AuxData.canonical = s.auxData.map AuxData.canonical) :
    r.encodeAsker = s.encodeAsker := by
  rw [encodeAsker, encodeAsker, ← Principal.encode_canonical r.principal,
    ← AuxData.encodeOptional_canonical r.auxData, principals, auxData, Principal.encode_canonical,
    AuxData.encodeOptional_canonical]

/-- **One key is one asker**, unless two askers have one digest. -/
theorem groupKey_eq_iff (hr : r.Composed) (hs : s.Composed) (rFits : r.Fits) (sFits : s.Fits)
    (apart : r.groupKey = s.groupKey → r.encodeAsker = s.encodeAsker) :
    r.groupKey = s.groupKey ↔ r.SameAsker s := by
  rw [← hr.canonical_iff hs]
  constructor
  · exact fun keys => encodeAsker_inj rFits sFits (apart keys)
  · rintro ⟨principals, auxData⟩
    rw [groupKey, groupKey, encodeAsker_congr principals auxData]

end Request

namespace Remote

/-! ## Partitions of positions -/

/-- The groups are a stable partition of the positions of a list by a relation of its items. -/
structure Partitions {α : Type} (items : List α) (related : α → α → Prop)
    (groups : List (List (Fin items.length))) : Prop where
  nonempty : ∀ members ∈ groups, members ≠ []
  /-- Every position is in the groups, once. -/
  once : groups.flatten.Perm (List.finRange items.length)
  inOrder : ∀ members ∈ groups, members.Pairwise (· < ·)
  byFirst : groups.Pairwise fun earlier later => ∀ i ∈ earlier.head?, ∀ j ∈ later.head?, i < j
  together : ∀ i j, (∃ members ∈ groups, i ∈ members ∧ j ∈ members) ↔ related items[i] items[j]

/-- The positions of the items with one key. -/
def places (items : List Item) (key : Digest) : List (Fin items.length) :=
  (List.finRange items.length).filter fun i => groupKey items[i] = key

theorem mem_places {items : List Item} {key : Digest} {i : Fin items.length} :
    i ∈ places items key ↔ groupKey items[i] = key := by
  simp [places]

theorem map_places (items : List Item) (key : Digest) :
    (places items key).map (fun i => items[i]) = sharing items key := by
  have whole : ((List.finRange items.length).map fun i => items[i]) = items := List.map_getElem_finRange items
  calc (places items key).map (fun i => items[i])
      = ((List.finRange items.length).map fun i => items[i]).filter fun i => groupKey i = key := by
        rw [places, List.filter_map]
        rfl
    _ = sharing items key := by rw [whole, sharing]

/-- Wherever the key `later` stands, the key `earlier` stands before it. -/
def SeenBefore (items : List Item) (earlier later : Digest) : Prop :=
  ∀ j : Nat, (items.map groupKey)[j]? = some later → ∃ i : Nat, i < j ∧ (items.map groupKey)[i]? = some earlier

/-- A key that has been seen stays before those that it was before, and before a new one. -/
theorem SeenBefore.concat {before : List Item} {earlier later : Digest} (known : earlier ∈ firstKeys before)
    (h : later ∈ firstKeys before → SeenBefore before earlier later) (item : Item) :
    SeenBefore (before ++ [item]) earlier later := by
  intro j stands
  have front : ∀ {i : Nat}, i < (before.map groupKey).length →
      ((before ++ [item]).map groupKey)[i]? = (before.map groupKey)[i]? := fun within => by
    rw [List.map_append, List.getElem?_append_left within]
  by_cases within : j < (before.map groupKey).length
  · rw [front within] at stands
    have known' : later ∈ firstKeys before := List.mem_eraseDups.2 (List.mem_of_getElem? stands)
    obtain ⟨i, lt, stands'⟩ := h known' j stands
    exact ⟨i, lt, (front (lt.trans within)).trans stands'⟩
  · obtain ⟨i, within', stands'⟩ := List.mem_iff_getElem.1 (List.mem_eraseDups.1 known)
    refine ⟨i, by omega, (front within').trans ?_⟩
    rw [List.getElem?_eq_getElem within', stands']

theorem pairwise_firstKeys (items : List Item) : (firstKeys items).Pairwise (SeenBefore items) := by
  induction items using List.reverseRecOn with
  | nil => exact .nil
  | append_singleton before item ih =>
    rw [firstKeys_concat]
    have earlier : (firstKeys before).Pairwise (SeenBefore (before ++ [item])) :=
      ih.imp_of_mem fun known _ precedes => .concat known (fun _ => precedes) item
    split
    · exact earlier
    · rename_i unseen
      refine List.pairwise_append.2 ⟨earlier, List.pairwise_singleton .., fun key known key' new => ?_⟩
      rw [List.mem_singleton.1 new]
      exact .concat known (fun seen => absurd seen unseen) item

/-- The positions by key, keys in the order in which they are first seen. -/
def placesByKey (items : List Item) : List (List (Fin items.length)) := (firstKeys items).map (places items)

theorem map_placesByKey (items : List Item) :
    (placesByKey items).map (·.map fun i => items[i]) = group items := by
  rw [group_eq, placesByKey, List.map_map]
  exact List.map_congr_left fun key _ => map_places items key

theorem mem_placesByKey {items : List Item} {members : List (Fin items.length)}
    (h : members ∈ placesByKey items) : ∃ key ∈ firstKeys items, members = places items key := by
  obtain ⟨key, known, rfl⟩ := List.mem_map.1 h
  exact ⟨key, known, rfl⟩

theorem key_mem_firstKeys {items : List Item} (i : Fin items.length) : groupKey items[i] ∈ firstKeys items :=
  mem_firstKeys.2 ⟨items[i], List.getElem_mem i.isLt, rfl⟩

/-- The position that a list of positions begins with comes before all others in it. -/
theorem head_le_of_mem {n : Nat} {members : List (Fin n)} (ordered : members.Pairwise (· < ·)) {i j : Fin n}
    (first : i ∈ members.head?) (member : j ∈ members) : i ≤ j := by
  cases members with
  | nil => cases member
  | cons k rest =>
    obtain rfl : k = i := Option.some.inj first
    rcases List.mem_cons.1 member with rfl | later
    · exact le_refl j
    · exact le_of_lt ((List.pairwise_cons.1 ordered).1 j later)

theorem places_inOrder (items : List Item) (key : Digest) : (places items key).Pairwise (· < ·) :=
  (List.pairwise_lt_finRange items.length).filter _

/-- Positions by key are a stable partition by key. -/
theorem placesByKey_partitions (items : List Item) :
    Partitions items (fun i j => groupKey i = groupKey j) (placesByKey items) where
  nonempty members h := by
    obtain ⟨key, known, rfl⟩ := mem_placesByKey h
    obtain ⟨item, member, same⟩ := mem_firstKeys.1 known
    obtain ⟨i, within, rfl⟩ := List.mem_iff_getElem.1 member
    exact List.ne_nil_of_mem (mem_places.2 same : (⟨i, within⟩ : Fin items.length) ∈ _)
  once := by
    refine (List.perm_ext_iff_of_nodup (List.nodup_flatten.2 ⟨fun members h => ?_, ?_⟩)
      (List.nodup_finRange _)).2 fun i => ⟨fun _ => List.mem_finRange i, fun _ => ?_⟩
    · obtain ⟨key, -, rfl⟩ := mem_placesByKey h
      exact (List.nodup_finRange _).filter _
    · refine List.pairwise_map.2 ((nodup_firstKeys items).imp fun other i here there => other ?_)
      rw [← mem_places.1 here, ← mem_places.1 there]
    · exact List.mem_flatten.2 ⟨_, List.mem_map_of_mem (key_mem_firstKeys i), mem_places.2 rfl⟩
  inOrder members h := by
    obtain ⟨key, -, rfl⟩ := mem_placesByKey h
    exact places_inOrder items key
  byFirst := by
    refine List.pairwise_map.2 ((pairwise_firstKeys items).imp fun {key key'} precedes i first j later => ?_)
    have there := mem_places.1 (List.mem_of_mem_head? later)
    obtain ⟨k, lt, stands⟩ := precedes j (by rw [← there]; simp)
    obtain ⟨within, same⟩ := List.getElem?_eq_some_iff.1 stands
    have member : (⟨k, by simpa using within⟩ : Fin items.length) ∈ places items key :=
      mem_places.2 (by simpa using same)
    exact lt_of_le_of_lt (head_le_of_mem (places_inOrder items key) first member) lt
  together i j := by
    constructor
    · rintro ⟨members, h, here, there⟩
      obtain ⟨key, -, rfl⟩ := mem_placesByKey h
      exact (mem_places.1 here).trans (mem_places.1 there).symm
    · intro same
      exact ⟨_, List.mem_map_of_mem (key_mem_firstKeys i), mem_places.2 rfl, mem_places.2 same.symm⟩

theorem Partitions.congr {α : Type} {items : List α} {related related' : α → α → Prop}
    {groups : List (List (Fin items.length))} (h : Partitions items related groups)
    (same : ∀ i ∈ items, ∀ j ∈ items, related i j ↔ related' i j) : Partitions items related' groups :=
  { h with together := fun i j => (h.together i j).trans (same _ (List.getElem_mem i.isLt) _ (List.getElem_mem j.isLt)) }

/-! ## Groups -/

/-- **Grouping is a stable partition by who is asking**: every item of a batch is in one group, items
keep their order and groups stand in the order of their first items, and two items are in one group
exactly when their principals and their auxiliary data are the same to a reader, whatever they ask.
No group is empty. -/
theorem group_partitions {batch : Batch} (composed : ∀ i ∈ batch.items, i.request.Composed)
    (fits : ∀ i ∈ batch.items, i.request.Fits) (apart : KeysApart batch) :
    ∃ positions, Partitions batch.items (fun i j => i.request.SameAsker j.request) positions ∧
      group batch.items = positions.map fun members => members.map fun i => batch.items[i] := by
  refine ⟨placesByKey batch.items, (placesByKey_partitions batch.items).congr fun i hi j hj => ?_,
    (map_placesByKey batch.items).symm⟩
  exact Request.groupKey_eq_iff (composed i hi) (composed j hj) (fits i hi) (fits j hj) (apart i hi j hj)

open Request (rolesFirst rolesLast aliceAtLevel aliceAtLevel_fits)

/-- Alice asks with a token, without one, and with the token again about something else; between the
first and the last time the sign of a zero has changed. -/
def thriceAlice : Batch where
  id := ⟨1⟩
  items := [⟨⟨1⟩, aliceAtLevel .zero rolesFirst.actions⟩,
    ⟨⟨2⟩, { aliceAtLevel .zero rolesFirst.actions with auxData := none }⟩,
    ⟨⟨3⟩, aliceAtLevel (.ofMagnitude true 0) rolesLast.actions⟩]

/-- The first and the last request share a group, the one without the token is by itself. -/
theorem thriceAlice_partitions :
    (∀ i ∈ thriceAlice.items, i.request.Composed) ∧ (∀ i ∈ thriceAlice.items, i.request.Fits) ∧
      KeysApart thriceAlice ∧
      (group thriceAlice.items).map (·.map Item.token) = [[⟨1⟩, ⟨3⟩], [⟨2⟩]] ∧
      ∃ positions, Partitions thriceAlice.items (fun i j => i.request.SameAsker j.request) positions ∧
        group thriceAlice.items = positions.map fun members => members.map fun i => thriceAlice.items[i] := by
  have first : rolesFirst.request = .ok (aliceAtLevel .zero rolesFirst.actions) := by rfl
  have last : rolesLast.request = .ok (aliceAtLevel (.ofMagnitude true 0) rolesLast.actions) := by rfl
  have bare : ({ rolesFirst with auxData := none } : Composition).request =
      .ok { aliceAtLevel .zero rolesFirst.actions with auxData := none } := by rfl
  have composed : ∀ i ∈ thriceAlice.items, i.request.Composed := by
    simp only [thriceAlice, List.forall_mem_cons]
    exact ⟨⟨_, Composition.makes first⟩, ⟨_, Composition.makes bare⟩, ⟨_, Composition.makes last⟩, nofun⟩
  have fits : ∀ i ∈ thriceAlice.items, i.request.Fits := by
    have fits := aliceAtLevel_fits .zero rolesFirst.actions (by decide)
    simp only [thriceAlice, List.forall_mem_cons]
    exact ⟨fits, { fits with auxData := nofun }, aliceAtLevel_fits _ _ (by decide), nofun⟩
  have apart : KeysApart thriceAlice := by
    unfold KeysApart
    decide +kernel
  exact ⟨composed, fits, apart, by decide +kernel, group_partitions composed fits apart⟩

end Remote

end PolicyClient
