/-
# PolicyClient.Proofs.Remote.Grouping -- the groups of a batch, in closed form

Grouping goes through a batch item by item.  What comes of it is said without the loop: the
keys of the batch in the order in which they are first seen, and under each of them the items
with that key in the order of the batch (`group_eq`).  So no group is empty, the items of a
group share their key, and together the groups hold the items of the batch (`group_perm`).

Every group makes one call, and the calls are for the groups in order (`items_calls`).
-/
import Mathlib.Data.List.Induction
import Mathlib.Data.List.Nodup
import PolicyClient.Remote.Grouping

namespace PolicyClient

set_option autoImplicit false

namespace Remote

/-- The key by which an item is grouped. -/
def groupKey (item : Item) : Digest := item.request.groupKey

/-- The keys of a batch, in the order in which they are first seen. -/
def firstKeys (items : List Item) : List Digest := (items.map groupKey).eraseDups

/-- The items with one key. -/
def sharing (items : List Item) (key : Digest) : List Item := items.filter fun i => groupKey i = key

theorem mem_firstKeys {items : List Item} {key : Digest} :
    key ∈ firstKeys items ↔ ∃ i ∈ items, groupKey i = key := by
  rw [firstKeys, List.mem_eraseDups, List.mem_map]

theorem firstKeys_concat (before : List Item) (item : Item) :
    firstKeys (before ++ [item]) =
      if groupKey item ∈ firstKeys before then firstKeys before else firstKeys before ++ [groupKey item] := by
  have new : [groupKey item].removeAll (before.map groupKey) =
      if groupKey item ∈ before.map groupKey then [] else [groupKey item] := by
    by_cases seen : groupKey item ∈ before.map groupKey <;>
      simp only [List.removeAll, List.filter_cons, List.filter_nil, List.elem_eq_mem, seen] <;> rfl
  simp only [firstKeys, List.map_append, List.map_cons, List.map_nil, List.eraseDups_append, new,
    List.mem_eraseDups]
  split
  · exact List.append_nil _
  · rfl

theorem nodup_firstKeys (items : List Item) : (firstKeys items).Nodup := by
  induction items using List.reverseRecOn with
  | nil => exact .nil
  | append_singleton before item ih =>
    rw [firstKeys_concat]
    split
    · exact ih
    · rename_i unseen
      refine List.nodup_append.2 ⟨ih, List.nodup_singleton _, fun a old b new same => unseen ?_⟩
      rw [← List.mem_singleton.1 new, ← same]
      exact old

theorem sharing_concat (before : List Item) (item : Item) (key : Digest) :
    sharing (before ++ [item]) key =
      if key = groupKey item then sharing before key ++ [item] else sharing before key := by
  by_cases same : key = groupKey item
  · simp [sharing, same]
  · simp [sharing, same, Ne.symm same]

theorem sharing_of_not_mem {items : List Item} {key : Digest} (unseen : key ∉ firstKeys items) :
    sharing items key = [] :=
  List.filter_eq_nil_iff.2 fun i member same => unseen (mem_firstKeys.2 ⟨i, member, of_decide_eq_true same⟩)

/-- One item more in groups that are known by their keys. -/
theorem addToGroups_map (item : Item) (key : Digest) (f : Digest → List Item) {keys : List Digest}
    (nodup : keys.Nodup) :
    addToGroups item key (keys.map fun k => (k, f k)) =
      if key ∈ keys then keys.map fun k => (k, if k = key then f k ++ [item] else f k)
      else keys.map (fun k => (k, f k)) ++ [(key, [item])] := by
  induction keys with
  | nil => rfl
  | cons k rest ih =>
    obtain ⟨fresh, nodup⟩ := List.nodup_cons.1 nodup
    by_cases here : k = key
    · subst here
      have others : ∀ j ∈ rest, (j, if j = k then f j ++ [item] else f j) = (j, f j) := fun j member => by
        rw [if_neg fun same : j = k => fresh (same ▸ member)]
      simp only [List.map_cons, addToGroups, if_true, List.mem_cons_self, List.map_congr_left others]
    · simp only [List.map_cons, addToGroups, here, if_false, ih nodup, List.mem_cons, Ne.symm here, false_or]
      split <;> rfl

/-- What the loop has made of the items so far. -/
theorem foldl_addToGroups (items : List Item) :
    items.foldl (fun groups item => addToGroups item item.request.groupKey groups) [] =
      (firstKeys items).map fun key => (key, sharing items key) := by
  induction items using List.reverseRecOn with
  | nil => rfl
  | append_singleton before item ih =>
    rw [List.foldl_append, ih, List.foldl_cons, List.foldl_nil, show item.request.groupKey = groupKey item from rfl,
      addToGroups_map item _ _ (nodup_firstKeys before), firstKeys_concat]
    simp only [sharing_concat]
    split
    · rfl
    · rename_i unseen
      have others : ∀ key ∈ firstKeys before,
          (key, if key = groupKey item then sharing before key ++ [item] else sharing before key) =
            (key, sharing before key) := fun key member => by
        rw [if_neg fun same : key = groupKey item => unseen (same ▸ member)]
      rw [List.map_append, List.map_congr_left others]
      simp only [List.map_cons, List.map_nil, if_true, sharing_of_not_mem unseen, List.nil_append]

/-- **The groups are the items that share a key**, keys in the order in which they are first seen. -/
theorem group_eq (items : List Item) : group items = (firstKeys items).map (sharing items) := by
  rw [group, foldl_addToGroups, List.map_map]
  rfl

theorem ne_nil_of_mem_group {items members : List Item} (h : members ∈ group items) : members ≠ [] := by
  rw [group_eq] at h
  obtain ⟨key, known, rfl⟩ := List.mem_map.1 h
  obtain ⟨i, member, same⟩ := mem_firstKeys.1 known
  exact List.ne_nil_of_mem (List.mem_filter.2 ⟨member, decide_eq_true same⟩)

/-- The items of a group are items of the batch with one key. -/
theorem mem_of_mem_group {items members : List Item} (h : members ∈ group items) {i j : Item}
    (hi : i ∈ members) (hj : j ∈ members) : i ∈ items ∧ j ∈ items ∧ i.request.groupKey = j.request.groupKey := by
  rw [group_eq] at h
  obtain ⟨key, -, rfl⟩ := List.mem_map.1 h
  obtain ⟨member, key_i⟩ := List.mem_filter.1 hi
  obtain ⟨member', key_j⟩ := List.mem_filter.1 hj
  exact ⟨member, member', (of_decide_eq_true key_i).trans (of_decide_eq_true key_j).symm⟩

theorem flatMap_sharing_perm (items : List Item) {keys : List Digest} (nodup : keys.Nodup) :
    (keys.flatMap (sharing items)).Perm (items.filter fun i => groupKey i ∈ keys) := by
  induction keys with
  | nil => simp
  | cons key rest ih =>
    obtain ⟨fresh, nodup⟩ := List.nodup_cons.1 nodup
    have front : (items.filter fun i => groupKey i ∈ key :: rest).filter (fun i => groupKey i = key) =
        sharing items key := by
      rw [List.filter_filter]
      exact List.filter_congr fun i _ => by by_cases here : groupKey i = key <;> simp [here]
    have back : ((items.filter fun i => groupKey i ∈ key :: rest).filter fun i => !(groupKey i = key : Bool)) =
        items.filter fun i => groupKey i ∈ rest := by
      rw [List.filter_filter]
      refine List.filter_congr fun i _ => ?_
      by_cases here : groupKey i = key
      · simp [here, fresh]
      · simp [here]
    rw [List.flatMap_cons]
    refine ((ih nodup).append_left _).trans ?_
    rw [← front, ← back]
    exact List.filter_append_perm _ _

/-- Together the groups hold the items of the batch. -/
theorem group_perm (items : List Item) : (group items).flatten.Perm items := by
  have all : (items.filter fun i => groupKey i ∈ firstKeys items) = items :=
    List.filter_eq_self.2 fun i member => decide_eq_true (mem_firstKeys.2 ⟨i, member, rfl⟩)
  have perm := flatMap_sharing_perm items (nodup_firstKeys items)
  rwa [all, List.flatMap_def, ← group_eq] at perm

/-! ## Calls -/

/-- The calls are for the groups, in order. -/
theorem items_calls (batch : Batch) : (calls batch).map GroupCall.items = group batch.items := by
  have each : ∀ groups : List (List Item), (∀ members ∈ groups, members ≠ []) → ∀ index,
      ((groups.zipIdx index).filterMap fun numbered => groupCall? batch.id numbered.2 numbered.1).map
        GroupCall.items = groups := by
    intro groups
    induction groups with
    | nil => exact fun _ _ => rfl
    | cons members rest ih =>
      intro nonempty index
      cases members with
      | nil => exact absurd rfl (nonempty [] (List.mem_cons_self ..))
      | cons first others =>
        have later := ih (fun members member => nonempty members (List.mem_cons_of_mem _ member)) (index + 1)
        rw [List.zipIdx_cons, List.filterMap_cons]
        exact congrArg ((first :: others) :: ·) later
  exact each _ (fun members member => ne_nil_of_mem_group member) 0

/-- A call is for a group of the batch, and its first item tells who is asking. -/
theorem mem_calls {batch : Batch} {c : GroupCall} (h : c ∈ calls batch) :
    c.items ∈ group batch.items ∧ ∃ index first rest,
      c = ⟨first :: rest, call (requestId batch.id index) first rest⟩ := by
  refine ⟨items_calls batch ▸ List.mem_map_of_mem h, ?_⟩
  obtain ⟨⟨members, index⟩, -, made⟩ := List.mem_filterMap.1 h
  cases members with
  | nil => cases made
  | cons first rest =>
    cases made
    exact ⟨index, first, rest, rfl⟩

end Remote

end PolicyClient
