/-
# PolicyClient.Proofs.Table.Lookup -- the entries of a table are what it answers

A table gives `v` for `k` exactly when it lists the entry `(k, v)`
(`Table.get?_eq_some_iff`), and it lists every key once (`Table.nodup_keys`).  So a table is
what it answers (`Table.ext_get?`), and the number of its entries can be counted by any list
without repetition of the keys it answers for.
-/
import Mathlib.Data.List.Induction
import PolicyClient.Table

namespace PolicyClient

set_option autoImplicit false

open Std (TransOrd LawfulEqOrd)

namespace Table

variable {κ β : Type} [Ord κ] [LawfulEqOrd κ]

theorem get?_eq_some_iff (t : Table κ β) (k : κ) (v : β) :
    t.get? k = some v ↔ (k, v) ∈ t.entries := by
  obtain ⟨l, ordered⟩ := t
  change Entries.get? k l = some v ↔ (k, v) ∈ l
  induction l with
  | nil => simp [Entries.get?]
  | cons d rest ih =>
    obtain ⟨below, tail⟩ := List.pairwise_cons.1 ordered
    by_cases h : compare k d.1 = .eq
    · have same : k = d.1 := Std.LawfulEqCmp.eq_of_compare h
      have absent : (k, v) ∉ rest := by
        intro member
        have lt := below _ member
        rw [← same, Std.compare_self] at lt
        cases lt
      simp only [Entries.get?, h, if_true, Option.some.injEq, List.mem_cons, absent, or_false]
      exact ⟨fun e => e ▸ same ▸ rfl, fun e => (congrArg Prod.snd e).symm⟩
    · have differ : k ≠ d.1 := fun e => h (e ▸ Std.compare_self)
      have notHead : (k, v) ≠ d := fun e => differ (congrArg Prod.fst e)
      simp only [Entries.get?, h, if_false, List.mem_cons, notHead, false_or]
      exact ih tail

theorem mem_keys_iff (t : Table κ β) (k : κ) : k ∈ t.keys ↔ ∃ v, t.get? k = some v := by
  simp only [keys, List.mem_map, get?_eq_some_iff]
  constructor
  · rintro ⟨⟨k', v⟩, member, rfl⟩
    exact ⟨v, member⟩
  · rintro ⟨v, member⟩
    exact ⟨(k, v), member, rfl⟩

theorem nodup_keys (t : Table κ β) : t.keys.Nodup := by
  refine List.pairwise_map.2 (t.ordered.imp fun lt same => ?_)
  rw [same, Std.compare_self] at lt
  cases lt

theorem nodup_entries (t : Table κ β) : t.entries.Nodup :=
  (List.pairwise_map.1 t.nodup_keys).imp fun differ same => differ (congrArg Prod.fst same)

/-- Tables that answer alike are the same. -/
theorem ext_get? [TransOrd κ] {s t : Table κ β} (same : ∀ k, s.get? k = t.get? k) : s = t := by
  apply Table.ext_entries
  apply List.Perm.eq_of_pairwise (fun a b _ _ lt gt => ?_) s.ordered t.ordered
  · rw [List.perm_ext_iff_of_nodup s.nodup_entries t.nodup_entries]
    rintro ⟨k, v⟩
    rw [← get?_eq_some_iff, ← get?_eq_some_iff, same]
  · have asymmetric := Std.OrientedCmp.gt_of_lt lt
    rw [gt] at asymmetric
    cases asymmetric

theorem get?_map {γ : Type} (g : κ → β → γ) (t : Table κ β) (k : κ) :
    (t.map g).get? k = (t.get? k).map (g k) := by
  refine Option.ext fun v => ?_
  simp only [get?_eq_some_iff, Option.map_eq_some_iff, map, List.mem_map, Prod.mk.injEq]
  constructor
  · rintro ⟨⟨j, w⟩, member, rfl, rfl⟩
    exact ⟨w, member, rfl⟩
  · rintro ⟨w, member, rfl⟩
    exact ⟨(k, w), member, rfl, rfl⟩

/-- Of several writes under a key the last one counts. -/
theorem get?_insertAll [TransOrd κ] [DecidableEq κ] (t : Table κ β) (l : List (κ × β)) (k : κ) :
    (t.insertAll l).get? k = ((l.filter fun e => e.1 = k).getLast?.map (·.2)).or (t.get? k) := by
  induction l generalizing t with
  | nil => rfl
  | cons e rest ih =>
    rw [show t.insertAll (e :: rest) = (t.insert e.1 e.2).insertAll rest from rfl, ih, get?_insert]
    by_cases key : e.1 = k
    · cases later : (rest.filter fun e => e.1 = k).getLast? <;>
        simp [key, List.getLast?_cons, later]
    · simp [key, Ne.symm key]

/-- When no key is written twice every write is there to be read. -/
theorem get?_ofList_eq_some_iff [TransOrd κ] [DecidableEq κ] {l : List (κ × β)} (distinct : (l.map (·.1)).Nodup)
    (k : κ) (v : β) : (ofList l).get? k = some v ↔ (k, v) ∈ l := by
  induction l using List.reverseRecOn with
  | nil => exact ⟨nofun, nofun⟩
  | append_singleton before last ih =>
    obtain ⟨j, w⟩ := last
    rw [List.map_append, List.nodup_append] at distinct
    obtain ⟨distinct, -, apart⟩ := distinct
    rw [get?_ofList_append, List.mem_append, List.mem_singleton, Prod.mk.injEq, ← ih distinct]
    by_cases same : k = j
    · subst same
      have unwritten : (ofList before).get? k ≠ some v := fun found =>
        apart k (List.mem_map_of_mem ((ih distinct).1 found)) k (List.mem_singleton_self _) rfl
      rw [if_pos rfl, Option.some.injEq]
      exact ⟨fun h => .inr ⟨rfl, h.symm⟩, fun h => (h.resolve_left unwritten).2.symm⟩
    · rw [if_neg same]
      exact ⟨.inl, fun h => h.resolve_right fun ⟨same', _⟩ => same same'⟩

/-- The entries of a table give it back in whatever order they are written. -/
theorem ofList_of_perm [TransOrd κ] [DecidableEq κ] {t : Table κ β} {l : List (κ × β)} (perm : l.Perm t.entries) :
    ofList l = t := by
  have keys : (l.map (·.1)).Perm t.keys := perm.map (·.1)
  have distinct : (l.map (·.1)).Nodup := keys.nodup_iff.2 t.nodup_keys
  refine ext_get? fun k => Option.ext fun v => ?_
  rw [get?_ofList_eq_some_iff distinct, get?_eq_some_iff, perm.mem_iff]

theorem entries_ofList [TransOrd κ] [DecidableEq κ] {l : List (κ × β)} (ordered : Entries.Ordered l) :
    (ofList l).entries = l :=
  congrArg entries (ofList_of_perm (t := ⟨l, ordered⟩) (.refl l))

theorem mem_of_mem_ofList [TransOrd κ] [DecidableEq κ] {l : List (κ × β)} {e : κ × β}
    (h : e ∈ (ofList l).entries) : e ∈ l := by
  have held : (ofList l).get? e.1 = some e.2 := (get?_eq_some_iff _ _ _).2 h
  rw [ofList, get?_insertAll, get?_empty, Option.or_none, Option.map_eq_some_iff] at held
  obtain ⟨d, last, value⟩ := held
  obtain ⟨member, key⟩ := List.mem_filter.1 (List.mem_of_getLast? last)
  rwa [← Prod.ext (of_decide_eq_true key) value]

theorem insert_ne_empty [TransOrd κ] [DecidableEq κ] (t : Table κ β) (k : κ) (v : β) : t.insert k v ≠ .empty := by
  intro none
  have held := get?_insert t k v k
  rw [none, if_pos rfl] at held
  cases held

theorem ofList_eq_empty_iff [TransOrd κ] [DecidableEq κ] (l : List (κ × β)) : ofList l = .empty ↔ l = [] := by
  induction l using List.reverseRecOn with
  | nil => exact ⟨fun _ => rfl, fun _ => rfl⟩
  | append_singleton before last _ =>
    have written : ofList (before ++ [last]) = (ofList before).insert last.1 last.2 := by
      simp [ofList, insertAll, List.foldl_append]
    rw [written]
    exact ⟨fun none => absurd none (insert_ne_empty _ _ _), fun none => by simp at none⟩

omit [LawfulEqOrd κ] in
theorem contains_eq_true_iff (t : Table κ β) (k : κ) :
    t.contains k = true ↔ ∃ v, t.get? k = some v := by
  rw [contains, Option.isSome_iff_exists]

omit [LawfulEqOrd κ] in
theorem contains_eq_false_iff (t : Table κ β) (k : κ) : t.contains k = false ↔ t.get? k = none := by
  rw [contains, Option.isSome_eq_false_iff, Option.isNone_iff_eq_none]

/-- The keys of a table can be counted in any list that names each of them once. -/
theorem size_eq_length_of_mem_iff (t : Table κ β) {l : List κ} (nodup : l.Nodup)
    (same : ∀ k, k ∈ l ↔ ∃ v, t.get? k = some v) : t.size = l.length := by
  have perm : t.keys.Perm l :=
    (List.perm_ext_iff_of_nodup t.nodup_keys nodup).2 fun k => (t.mem_keys_iff k).trans (same k).symm
  calc t.size = t.keys.length := (List.length_map _).symm
    _ = l.length := perm.length_eq

theorem size_erase [TransOrd κ] [DecidableEq κ] (t : Table κ β) {k : κ} {v : β}
    (h : t.get? k = some v) : (t.erase k).size + 1 = t.size := by
  have member : k ∈ t.keys := (t.mem_keys_iff k).2 ⟨v, h⟩
  have counted : (t.erase k).size = (t.keys.erase k).length := by
    refine size_eq_length_of_mem_iff _ (t.nodup_keys.erase k) fun j => ?_
    rw [t.nodup_keys.mem_erase_iff, mem_keys_iff, get?_erase]
    by_cases e : j = k <;> simp [e]
  have positive : 0 < t.keys.length := List.length_pos_of_mem member
  have size : t.keys.length = t.size := List.length_map _
  rw [counted, List.length_erase_of_mem member]
  omega

end Table

end PolicyClient
