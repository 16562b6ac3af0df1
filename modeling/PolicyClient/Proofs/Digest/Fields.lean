/-
# PolicyClient.Proofs.Digest.Fields -- fields can be told apart

A field of a byte form announces where it ends.  So two byte forms that begin with fields
of one kind and are equal begin with equal fields, and what follows is equal as well:
`count_append_inj`, `text_append_inj`, `optionalText_append_inj`.  Counts and lengths are
written in eight bytes, and have to fit there.
-/
import Mathlib.Algebra.Group.Nat.Defs
import PolicyClient.Digest.Encoding

namespace PolicyClient

set_option autoImplicit false

namespace Sha256

theorem length_bigEndian (width n : Nat) : (bigEndian width n).length = width := by
  induction width generalizing n with
  | zero => rfl
  | succ width ih => simp [bigEndian, ih]

/-- Numbers that fit in the width are told apart by their bytes. -/
theorem bigEndian_inj {width n m : Nat} (hn : n < 256 ^ width) (hm : m < 256 ^ width)
    (same : bigEndian width n = bigEndian width m) : n = m := by
  induction width generalizing n m with
  | zero => omega
  | succ width ih =>
    rw [Nat.pow_succ] at hn hm
    obtain ⟨high, low⟩ := List.append_inj same (by simp [length_bigEndian])
    have quotients : n / 256 = m / 256 := ih (by omega) (by omega) high
    have remainders : n % 256 = m % 256 := by
      have bytes := congrArg UInt8.toNat (List.cons.inj low).1
      simpa using bytes
    omega

end Sha256

theorem Text.bytes_inj {s t : String} (same : Text.bytes s = Text.bytes t) : s = t := by
  have arrays : s.toUTF8.data = t.toUTF8.data := Array.toList_inj.1 same
  exact String.toByteArray_inj.1 (ByteArray.ext arrays)

namespace Encoding

/-- What a count or a length has to stay below. -/
def limit : Nat := 256 ^ 8

/-- A text whose length can be written. -/
def Fits (s : String) : Prop := (Text.bytes s).length < limit

instance (s : String) : Decidable (Fits s) := inferInstanceAs (Decidable ((Text.bytes s).length < limit))

theorem length_count (n : Nat) : (count n).length = 8 := Sha256.length_bigEndian 8 n

theorem count_append_inj {n m : Nat} {x y : List UInt8} (hn : n < limit) (hm : m < limit)
    (same : count n ++ x = count m ++ y) : n = m ∧ x = y := by
  obtain ⟨counts, rest⟩ := List.append_inj same (by simp [length_count])
  exact ⟨Sha256.bigEndian_inj hn hm counts, rest⟩

theorem text_append_inj {s t : String} {x y : List UInt8} (hs : Fits s) (ht : Fits t)
    (same : text s ++ x = text t ++ y) : s = t ∧ x = y := by
  simp only [text, List.append_assoc] at same
  obtain ⟨lengths, rest⟩ := count_append_inj hs ht same
  obtain ⟨bytes, tails⟩ := List.append_inj rest lengths
  exact ⟨Text.bytes_inj bytes, tails⟩

/-- No text is written as the empty one. -/
theorem optionalText_append_inj {s t : Option String} {x y : List UInt8} (hs : Fits (s.getD ""))
    (ht : Fits (t.getD "")) (same : optionalText s ++ x = optionalText t ++ y) :
    s.getD "" = t.getD "" ∧ x = y :=
  text_append_inj hs ht same

/-- A list of fields that are told apart is told apart, if its length is known. -/
theorem flatMap_text_append_inj {l m : List String} {x y : List UInt8} (hl : ∀ s ∈ l, Fits s)
    (hm : ∀ s ∈ m, Fits s) (length : l.length = m.length)
    (same : l.flatMap text ++ x = m.flatMap text ++ y) : l = m ∧ x = y := by
  induction l generalizing m with
  | nil =>
    cases m with
    | nil => exact ⟨rfl, same⟩
    | cons t m => cases length
  | cons s l ih =>
    cases m with
    | nil => cases length
    | cons t m =>
      simp only [List.flatMap_cons, List.append_assoc] at same
      obtain ⟨rfl, rest⟩ := text_append_inj (hl s (List.mem_cons_self ..)) (hm t (List.mem_cons_self ..)) same
      obtain ⟨rfl, tails⟩ := ih (fun s member => hl s (List.mem_cons_of_mem _ member))
        (fun s member => hm s (List.mem_cons_of_mem _ member)) (Nat.succ.inj length) rest
      exact ⟨rfl, tails⟩

end Encoding

end PolicyClient
