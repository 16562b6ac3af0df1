/-
# PolicyClient.Proofs.Value.Delimiting -- byte forms that end where the value ends

Nothing stands between one byte form and the next in what is digested, so a byte form has to
tell where it ends.  It does, if the lengths in the value can be written (`Value.Fits`): from bytes
that start with its byte form the value can be told up to likeness, and with it the bytes that
follow (`alike_of_encode_append`).  And likeness is all that is lost: alike values have one byte
form (`encode_eq_of_alike`).  Attributes are written and compared in the same way, and a map value
is compared as the attributes in it are (`Attributes.alike_ofAttributes_iff`).

Main statement: `Value.self_delimiting`.
-/
import PolicyClient.Proofs.Value.Likeness

namespace PolicyClient

set_option autoImplicit false

namespace Value

theorem encode_eq_of_alike {v w : Value} (same : v.alike w = true) : v.encode = w.encode := by
  rw [← encode_canonical v, (alike_iff v w).1 same, encode_canonical]

theorem alike_of_encode_append {v w : Value} {x y : List UInt8} (hv : v.Fits) (hw : w.Fits)
    (same : v.encode ++ x = w.encode ++ y) : v.alike w = true ∧ x = y := by
  obtain ⟨forms, rest⟩ := encode_append_inj v w x y hv hw same
  exact ⟨(alike_iff v w).2 forms, rest⟩

end Value

namespace Attributes

theorem encode_eq_of_alike {a b : Attributes} (same : a.Alike b) : a.encode = b.encode := by
  rw [← encode_canonical a, (alike_iff a b).1 same, encode_canonical]

theorem alike_of_encode_append {a b : Attributes} {x y : List UInt8} (ha : a.Fits) (hb : b.Fits)
    (same : a.encode ++ x = b.encode ++ y) : a.Alike b ∧ x = y := by
  obtain ⟨forms, rest⟩ := encode_append_inj ha hb same
  exact ⟨(alike_iff a b).2 forms, rest⟩

/-- Maps are compared entry by entry.  In key order that is name by name. -/
theorem alike_ofAttributes_iff (a b : Attributes) :
    (Value.ofAttributes a).alike (Value.ofAttributes b) = true ↔ a.Alike b := by
  have entries : canonical a = canonical b ↔ (canonical a).entries = (canonical b).entries :=
    ⟨congrArg Table.entries, Table.ext_entries⟩
  rw [Value.alike_iff, alike_iff, entries, entries_canonical, entries_canonical]
  simp only [Value.ofAttributes, Value.canonical, Value.map.injEq]

end Attributes

namespace Value

/-- **Byte forms end where the value ends.**  If bytes start with the byte forms of two values, then
the values are alike and the same bytes follow; and alike values have one byte form.  The same holds
of attributes.  The last two parts say how far likeness goes: numbers that are alike have the same
bits unless both are zeros or both are NaNs, and map values are alike when under every name they
have alike values, or none. -/
theorem self_delimiting :
    (∀ (v w : Value) (x y : List UInt8), v.Fits → w.Fits →
      v.encode ++ x = w.encode ++ y → v.alike w = true ∧ x = y) ∧
    (∀ v w : Value, v.alike w = true → v.encode = w.encode) ∧
    (∀ (a b : Attributes) (x y : List UInt8), a.Fits → b.Fits →
      a.encode ++ x = b.encode ++ y → a.Alike b ∧ x = y) ∧
    (∀ a b : Attributes, a.Alike b → a.encode = b.encode) ∧
    (∀ n m : Binary64, (number n).alike (number m) = true ↔
      n = m ∨ (n.isZero = true ∧ m.isZero = true) ∨ (n.isNaN = true ∧ m.isNaN = true)) ∧
    (∀ a b : Attributes, (ofAttributes a).alike (ofAttributes b) = true ↔ a.Alike b) := by
  refine ⟨?_, ?_, ?_, ?_, ?_, Attributes.alike_ofAttributes_iff⟩
  · intro v w x y hv hw same
    exact alike_of_encode_append hv hw same
  · intro v w same
    exact encode_eq_of_alike same
  · intro a b x y ha hb same
    exact Attributes.alike_of_encode_append ha hb same
  · intro a b same
    exact Attributes.encode_eq_of_alike same
  · intro n m
    rw [alike]
    exact n.alike_iff_eq_or m

/-- A list that holds a map with this zero and this NaN in it. -/
def levels (zero nan : Binary64) : Value :=
  .list [.null, .ofEntries [("mean", .number nan), ("floor", .number zero)]]

/-- Attributes of a site. -/
def survey : Attributes := .ofList [("tags", .text "ab"), ("level", levels .zero .nan)]

/-- The same with the other zero and another NaN, entered the other way round. -/
def resurvey : Attributes :=
  .ofList [("level", levels (.ofMagnitude true 0) ⟨0xFFF0000000000001⟩), ("tags", .text "ab")]

/-- The two surveys cannot be told apart by their bytes, as attributes or as map values.  A text that
says `true` can be told from what is true, and one text in a list from two, whatever follows. -/
theorem survey_delimited :
    survey.Fits ∧ resurvey.Fits ∧ survey.encode ++ [7] = resurvey.encode ++ [7] ∧ survey.Alike resurvey ∧
      (ofAttributes survey).encode = (ofAttributes resurvey).encode ∧
      (∀ x y, encode (text "true") ++ x ≠ encode (bool true) ++ y) ∧
      (∀ x y, encode (list [text "ab"]) ++ x ≠ encode (list [text "a", text "b"]) ++ y) := by
  obtain ⟨delimited, agree, attributesDelimited, -, -, maps⟩ := self_delimiting
  have fits : survey.Fits := by decide
  have refits : resurvey.Fits := by decide
  have bytes : survey.encode ++ [7] = resurvey.encode ++ [7] := by decide
  obtain ⟨alike, -⟩ := attributesDelimited survey resurvey [7] [7] fits refits bytes
  refine ⟨fits, refits, bytes, alike, agree _ _ ((maps survey resurvey).2 alike), ?_, ?_⟩
  · intro x y same
    exact absurd (delimited _ _ x y (by decide) (by decide) same).1 (by decide)
  · intro x y same
    exact absurd (delimited _ _ x y (by decide) (by decide) same).1 (by decide)

end Value

end PolicyClient
