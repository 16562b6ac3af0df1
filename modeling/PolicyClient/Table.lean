/-
# PolicyClient.Table -- finite maps kept in key order

Attributes, decisions, outputs and the index of waiting calls are all finite maps
whose iteration order is the order of their keys.  `Entries` holds the operations
on bare entry lists, `Table` adds the proof that the keys increase strictly, so
every key is stored at most once.

Main statements: what a look-up returns after each write (`Table.get?_insert`,
`Table.get?_erase`, `Table.get?_ofList_append`).
-/

namespace PolicyClient

set_option autoImplicit false

open Std (TransOrd LawfulEqOrd)

/-! ## Keys ordered by a field -/

/-- The order of `α` by the key each of its values carries. -/
abbrev Ord.byKey {α κ : Type} [Ord κ] (key : α → κ) : Ord α :=
  ⟨fun a b => compare (key a) (key b)⟩

theorem Ord.byKey_trans {α κ : Type} [Ord κ] [TransOrd κ] (key : α → κ) :
    @TransOrd α (Ord.byKey key) :=
  @Std.TransCmp.mk α _ ⟨fun {a b} => @Std.OrientedCmp.eq_swap κ compare _ (key a) (key b)⟩
    fun {a b c} => @Std.TransCmp.isLE_trans κ compare _ (key a) (key b) (key c)

theorem Ord.byKey_lawfulEq {α κ : Type} [Ord κ] [LawfulEqOrd κ] (key : α → κ)
    (injective : ∀ {a b}, key a = key b → a = b) : @LawfulEqOrd α (Ord.byKey key) :=
  @Std.LawfulEqCmp.mk α _ ⟨fun {a} => @Std.ReflCmp.compare_self κ compare _ (key a)⟩
    fun {a b} h => injective (@Std.LawfulEqCmp.eq_of_compare κ compare _ (key a) (key b) h)

/-! ## Entry lists -/

namespace Entries

variable {κ β γ : Type} [Ord κ]

/-- Keys increase strictly from front to back. -/
def Ordered (l : List (κ × β)) : Prop :=
  l.Pairwise fun a b => compare a.1 b.1 = .lt

/-- The value stored under `k`. -/
def get? (k : κ) : List (κ × β) → Option β
  | [] => none
  | (k', v) :: rest => if compare k k' = .eq then some v else get? k rest

/-- Stores `v` under `k`, in place of what was stored there. -/
def insert (k : κ) (v : β) : List (κ × β) → List (κ × β)
  | [] => [(k, v)]
  | (k', v') :: rest =>
    match compare k k' with
    | .lt => (k, v) :: (k', v') :: rest
    | .eq => (k, v) :: rest
    | .gt => (k', v') :: insert k v rest

/-- Removes what is stored under `k`. -/
def erase (k : κ) (l : List (κ × β)) : List (κ × β) :=
  l.filter fun e => compare k e.1 != .eq

theorem mem_insert {k : κ} {v : β} {e : κ × β} {l : List (κ × β)} (h : e ∈ insert k v l) :
    e = (k, v) ∨ e ∈ l := by
  induction l with
  | nil => simpa [insert] using h
  | cons d rest ih =>
    simp only [insert] at h
    split at h
    · simpa using h
    · simp only [List.mem_cons] at h ⊢
      exact h.imp_right .inr
    · rcases List.mem_cons.1 h with rfl | h
      · exact .inr (List.mem_cons_self ..)
      · exact (ih h).imp_right (List.mem_cons_of_mem _)

theorem ordered_insert [TransOrd κ] [LawfulEqOrd κ] (k : κ) (v : β) {l : List (κ × β)}
    (h : Ordered l) : Ordered (insert k v l) := by
  induction l with
  | nil => simp [insert, Ordered]
  | cons d rest ih =>
    obtain ⟨below, tail⟩ := List.pairwise_cons.1 h
    simp only [insert]
    split
    · rename_i lt
      refine List.pairwise_cons.2 ⟨fun e he => ?_, h⟩
      rcases List.mem_cons.1 he with rfl | he
      · exact lt
      · exact Std.TransCmp.lt_trans lt (below e he)
    · rename_i eq
      have : k = d.1 := Std.LawfulEqCmp.eq_of_compare eq
      subst this
      exact List.pairwise_cons.2 ⟨below, tail⟩
    · rename_i gt
      refine List.pairwise_cons.2 ⟨fun e he => ?_, ih tail⟩
      rcases mem_insert he with rfl | he
      · exact Std.OrientedCmp.lt_of_gt gt
      · exact below e he

theorem ordered_erase (k : κ) {l : List (κ × β)} (h : Ordered l) : Ordered (erase k l) :=
  List.Pairwise.filter _ h

theorem ordered_map (g : κ → β → γ) {l : List (κ × β)} (h : Ordered l) :
    Ordered (l.map fun e => (e.1, g e.1 e.2)) :=
  List.pairwise_map.2 h

end Entries

/-- A finite map from `κ` to `β`, kept in key order. -/
structure Table (κ β : Type) [Ord κ] where
  entries : List (κ × β)
  ordered : Entries.Ordered entries

namespace Table

variable {κ β γ : Type} [Ord κ]

@[ext] theorem ext_entries {s t : Table κ β} (h : s.entries = t.entries) : s = t := by
  cases s; cases t; cases h; rfl

instance [DecidableEq κ] [DecidableEq β] : DecidableEq (Table κ β) := fun s t =>
  decidable_of_iff (s.entries = t.entries) ⟨ext_entries, fun h => h ▸ rfl⟩

/-- Nothing stored. -/
def empty : Table κ β := ⟨[], .nil⟩

instance : EmptyCollection (Table κ β) := ⟨empty⟩

instance : Inhabited (Table κ β) := ⟨empty⟩

/-- The value stored under `k`. -/
def get? (t : Table κ β) (k : κ) : Option β := Entries.get? k t.entries

/-- Whether anything is stored under `k`. -/
def contains (t : Table κ β) (k : κ) : Bool := (t.get? k).isSome

def isEmpty (t : Table κ β) : Bool := t.entries.isEmpty

def size (t : Table κ β) : Nat := t.entries.length

/-- The keys, in order. -/
def keys (t : Table κ β) : List κ := t.entries.map (·.1)

/-- Removes what is stored under `k`. -/
def erase (t : Table κ β) (k : κ) : Table κ β :=
  ⟨Entries.erase k t.entries, Entries.ordered_erase k t.ordered⟩

/-- Replaces every stored value. -/
def map (g : κ → β → γ) (t : Table κ β) : Table κ γ :=
  ⟨t.entries.map fun e => (e.1, g e.1 e.2), Entries.ordered_map g t.ordered⟩

@[simp] theorem get?_empty (k : κ) : (empty : Table κ β).get? k = none := rfl

variable [TransOrd κ] [LawfulEqOrd κ]

/-- Stores `v` under `k`, in place of what was stored there. -/
def insert (t : Table κ β) (k : κ) (v : β) : Table κ β :=
  ⟨Entries.insert k v t.entries, Entries.ordered_insert k v t.ordered⟩

/-- Stores `v` under `k` unless something is stored there already. -/
def insertIfNew (t : Table κ β) (k : κ) (v : β) : Table κ β :=
  if t.contains k then t else t.insert k v

/-- Stores the entries of `l` from front to back; the last write of a key wins. -/
def insertAll (t : Table κ β) (l : List (κ × β)) : Table κ β :=
  l.foldl (fun t e => t.insert e.1 e.2) t

/-- The map with the entries of `l`; the last write of a key wins. -/
def ofList (l : List (κ × β)) : Table κ β := insertAll empty l

/-! ## Look-ups after a write -/

variable [DecidableEq κ]

theorem get?_insert (t : Table κ β) (k : κ) (v : β) (j : κ) :
    (t.insert k v).get? j = if j = k then some v else t.get? j := by
  have eq_iff : ∀ a b : κ, compare a b = .eq ↔ a = b := fun a b =>
    Std.LawfulEqCmp.compare_eq_iff_eq
  obtain ⟨l, ordered⟩ := t
  change Entries.get? j (Entries.insert k v l) = if j = k then some v else Entries.get? j l
  clear ordered
  induction l with
  | nil => simp [Entries.insert, Entries.get?, eq_iff]
  | cons d rest ih =>
    simp only [Entries.insert]
    split
    · simp [Entries.get?, eq_iff]
    · rename_i eq
      have : k = d.1 := (eq_iff _ _).1 eq
      subst this
      by_cases h : j = d.1 <;> simp [Entries.get?, eq_iff, h]
    · rename_i gt
      have differ : k ≠ d.1 := fun e => by rw [(eq_iff _ _).2 e] at gt; cases gt
      by_cases h : j = d.1
      · subst h; simp [Entries.get?, Ne.symm differ]
      · simp only [Entries.get?, eq_iff, h, if_false]; exact ih

omit [TransOrd κ] in
theorem get?_erase (t : Table κ β) (k j : κ) :
    (t.erase k).get? j = if j = k then none else t.get? j := by
  have eq_iff : ∀ a b : κ, compare a b = .eq ↔ a = b := fun a b =>
    Std.LawfulEqCmp.compare_eq_iff_eq
  obtain ⟨l, ordered⟩ := t
  change Entries.get? j (Entries.erase k l) = if j = k then none else Entries.get? j l
  clear ordered
  induction l with
  | nil => simp [Entries.erase, Entries.get?]
  | cons d rest ih =>
    by_cases hk : compare k d.1 = .eq
    · have : k = d.1 := (eq_iff _ _).1 hk
      subst this
      simp only [Entries.erase, List.filter_cons, hk, bne_self_eq_false, Bool.false_eq_true,
        if_false, Entries.get?, eq_iff]
      by_cases h : j = d.1
      · subst h; simpa [Entries.erase] using ih
      · simpa [Entries.erase, h] using ih
    · have differ : k ≠ d.1 := fun e => hk ((eq_iff _ _).2 e)
      have kept : (compare k d.1 != .eq) = true := by simp [hk]
      simp only [Entries.erase, List.filter_cons, kept, if_true, Entries.get?, eq_iff]
      by_cases h : j = d.1
      · subst h; simp [Ne.symm differ]
      · simpa [Entries.erase, h] using ih

theorem get?_insertIfNew (t : Table κ β) (k : κ) (v : β) (j : κ) :
    (t.insertIfNew k v).get? j = if j = k then some ((t.get? k).getD v) else t.get? j := by
  unfold insertIfNew contains
  cases h : t.get? k with
  | none => simp [get?_insert]
  | some w => by_cases e : j = k <;> simp [e, h]

theorem get?_ofList_append (l : List (κ × β)) (k : κ) (v : β) (j : κ) :
    (ofList (l ++ [(k, v)])).get? j = if j = k then some v else (ofList l).get? j := by
  simp [ofList, insertAll, List.foldl_append, get?_insert]

end Table

end PolicyClient
