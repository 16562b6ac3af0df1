/-
# PolicyClient.Proofs.Value.Likeness -- values that are the same to a reader

`Value.alike` compares two values by their structure: the same kind, the same truth value
or text, lists item by item, maps name by name, and numbers as numbers, where both zeros are
one number and all NaNs are one (`Binary64.alike`).  It differs from `Value.same` only in
the NaNs, which `same` holds unequal to everything.

Alike values are those with one canonical form (`Value.alike_iff`), and attributes have one
canonical form when they give alike values for every name (`Attributes.alike_iff`).
-/
import PolicyClient.Proofs.Table.Lookup
import PolicyClient.Proofs.Value.Canonical

namespace PolicyClient

set_option autoImplicit false

/-! ## Numbers -/

namespace Binary64

/-- The same number, or no number at all on both sides. -/
def alike (n m : Binary64) : Bool := n.same m || (n.isNaN && m.isNaN)

theorem isZero_iff (n : Binary64) : n.isZero = true ↔ n.rank = 0 := by
  have bound := n.bits.toNat_lt
  simp only [isZero, exponentField, fraction, rank, isNegative, Nat.pow_eq, Bool.and_eq_true,
    beq_iff_eq, ge_iff_le, decide_eq_true_eq]
  split <;> omega

theorem not_isNaN_of_isZero {n : Binary64} (h : n.isZero = true) : n.isNaN = false := by
  simp only [isZero, Bool.and_eq_true, beq_iff_eq] at h
  simp [isNaN, h.1]

/-- No two numbers but the zeros share a place. -/
theorem eq_of_rank_eq {n m : Binary64} (nonzero : n.rank ≠ 0) (same : n.rank = m.rank) : n = m := by
  have boundN := n.bits.toNat_lt
  have boundM := m.bits.toNat_lt
  have bits : n.bits.toNat = m.bits.toNat := by
    simp only [rank, isNegative, Nat.pow_eq, ge_iff_le, decide_eq_true_eq] at same nonzero
    split at same <;> split at same <;> omega
  exact congrArg mk (UInt64.toNat_inj.1 bits)

theorem canonical_of_isZero {n : Binary64} (h : n.isZero = true) : n.canonical = Binary64.zero := by
  simp [canonical, h]

theorem canonical_of_isNaN {n : Binary64} (h : n.isNaN = true) : n.canonical = Binary64.nan := by
  have nonzero : n.isZero ≠ true := fun zero => by simp [not_isNaN_of_isZero zero] at h
  simp [canonical, h, nonzero]

theorem canonical_of_rank_ne {n : Binary64} (number : n.isNaN = false) (nonzero : n.rank ≠ 0) :
    n.canonical = n := by
  simp [canonical, number, mt n.isZero_iff.1 nonzero]

theorem isNaN_canonical (n : Binary64) : n.canonical.isNaN = n.isNaN := by
  by_cases zero : n.isZero = true
  · rw [canonical_of_isZero zero, not_isNaN_of_isZero zero]
    decide
  · cases nan : n.isNaN with
    | true =>
      rw [canonical_of_isNaN nan]
      decide
    | false => rw [canonical_of_rank_ne nan (mt n.isZero_iff.2 zero), nan]

/-- The canonical form of a number is at its place. -/
theorem rank_canonical {n : Binary64} (number : n.isNaN = false) : n.canonical.rank = n.rank := by
  by_cases zero : n.isZero = true
  · rw [canonical_of_isZero zero, n.isZero_iff.1 zero]
    decide
  · rw [canonical_of_rank_ne number (mt n.isZero_iff.2 zero)]

/-- Numbers are alike when they have one canonical form. -/
theorem alike_iff (n m : Binary64) : n.alike m = true ↔ n.canonical = m.canonical := by
  have nan : n.canonical = m.canonical → n.isNaN = m.isNaN := fun h => by
    rw [← isNaN_canonical n, ← isNaN_canonical m, h]
  cases hn : n.isNaN with
  | true =>
    cases hm : m.isNaN with
    | true => simp [alike, hn, hm, canonical_of_isNaN]
    | false =>
      rw [hn, hm] at nan
      simp [alike, same, hn, hm, mt nan]
  | false =>
    cases hm : m.isNaN with
    | true =>
      rw [hn, hm] at nan
      simp [alike, same, hn, hm, mt nan]
    | false =>
      simp only [alike, same, hn, hm, Bool.not_false, Bool.true_and, Bool.and_false, Bool.or_false, beq_iff_eq]
      constructor
      · intro ranks
        by_cases zero : n.rank = 0
        · rw [canonical_of_isZero (n.isZero_iff.2 zero), canonical_of_isZero (m.isZero_iff.2 (ranks ▸ zero))]
        · rw [eq_of_rank_eq zero ranks]
      · intro forms
        rw [← rank_canonical hn, ← rank_canonical hm, forms]

/-- Numbers that are alike have the same bits, unless both are zeros or both are NaNs. -/
theorem alike_iff_eq_or (n m : Binary64) :
    n.alike m = true ↔ n = m ∨ (n.isZero = true ∧ m.isZero = true) ∨ (n.isNaN = true ∧ m.isNaN = true) := by
  constructor
  · intro alike
    simp only [Binary64.alike, same, Bool.or_eq_true, Bool.and_eq_true, beq_iff_eq] at alike
    obtain ⟨-, ranks⟩ | nans := alike
    · by_cases zero : n.rank = 0
      · exact .inr (.inl ⟨n.isZero_iff.2 zero, m.isZero_iff.2 (ranks ▸ zero)⟩)
      · exact .inl (eq_of_rank_eq zero ranks)
    · exact .inr (.inr nans)
  · rintro (rfl | ⟨hn, hm⟩ | ⟨hn, hm⟩)
    · exact (alike_iff n n).2 rfl
    · rw [alike_iff, canonical_of_isZero hn, canonical_of_isZero hm]
    · rw [alike_iff, canonical_of_isNaN hn, canonical_of_isNaN hm]

end Binary64

/-! ## Values -/

namespace Value

mutual

/-- The same structure, with alike numbers in the same places. -/
def alike : Value → Value → Bool
  | null, null => true
  | bool a, bool b => a == b
  | number a, number b => a.alike b
  | text a, text b => a == b
  | list a, list b => alikeItems a b
  | map a, map b => alikeFields a b
  | _, _ => false

def alikeItems : List Value → List Value → Bool
  | [], [] => true
  | v :: rest, w :: rest' => alike v w && alikeItems rest rest'
  | _, _ => false

def alikeFields : List (String × Value) → List (String × Value) → Bool
  | [], [] => true
  | (k, v) :: rest, (l, w) :: rest' => k == l && alike v w && alikeFields rest rest'
  | _, _ => false

end

mutual

/-- **Values are alike when they have one canonical form.** -/
theorem alike_iff : ∀ v w : Value, v.alike w = true ↔ v.canonical = w.canonical
  | null, w => by cases w <;> simp [alike, canonical]
  | bool _, w => by cases w <;> simp [alike, canonical]
  | number n, w => by cases w <;> simp [alike, canonical, Binary64.alike_iff]
  | text _, w => by cases w <;> simp [alike, canonical]
  | list items, w => by
    cases w with
    | list items' => simp [alike, canonical, alikeItems_iff items items']
    | _ => simp [alike, canonical]
  | map fields, w => by
    cases w with
    | map fields' => simp [alike, canonical, alikeFields_iff fields fields']
    | _ => simp [alike, canonical]

theorem alikeItems_iff : ∀ l m : List Value,
    alikeItems l m = true ↔ canonicalItems l = canonicalItems m
  | [], [] => by simp [alikeItems]
  | [], _ :: _ => by simp [alikeItems, canonicalItems]
  | _ :: _, [] => by simp [alikeItems, canonicalItems]
  | v :: l, w :: m => by simp [alikeItems, canonicalItems, alike_iff v w, alikeItems_iff l m]

theorem alikeFields_iff : ∀ l m : List (String × Value),
    alikeFields l m = true ↔ canonicalFields l = canonicalFields m
  | [], [] => by simp [alikeFields]
  | [], (_, _) :: _ => by simp [alikeFields, canonicalFields]
  | (_, _) :: _, [] => by simp [alikeFields, canonicalFields]
  | (_, v) :: l, (_, w) :: m => by
    simp [alikeFields, canonicalFields, alike_iff v w, alikeFields_iff l m]

end

end Value

/-! ## Attributes -/

/-- Optional things have related content when their images under `f` are equal. -/
theorem rel_image_iff {α β : Type} (f : α → β) (x y : Option α) :
    Option.Rel (fun a b => f a = f b) x y ↔ x.map f = y.map f := by
  cases x <;> cases y <;> simp

namespace Attributes

/-- Alike values, or none on both sides, under every name. -/
def Alike (a b : Attributes) : Prop :=
  ∀ name, Option.Rel (fun v w => v.alike w = true) (a.get? name) (b.get? name)

/-- Attributes are alike when they have one canonical form. -/
theorem alike_iff (a b : Attributes) : a.Alike b ↔ canonical a = canonical b := by
  simp only [Alike, Value.alike_iff, rel_image_iff]
  constructor
  · intro same
    refine Table.ext_get? fun name => ?_
    rw [canonical, canonical, Table.get?_map, Table.get?_map, same name]
  · intro same name
    have looked := congrArg (fun t : Attributes => t.get? name) same
    simpa only [canonical, Table.get?_map] using looked

end Attributes

end PolicyClient
