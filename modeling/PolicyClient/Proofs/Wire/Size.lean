/-
# PolicyClient.Proofs.Wire.Size -- how long a call is

A field of bytes takes more than its bytes: its key and their number stand before them, which
is two bytes at least (`Wire.headerSize`) and few for any length (`headerSize_le`).  So the
questions of a call, all that it says but its name (`CheckCall.questions`), are as long as its
messages (`contentSize`) and the headers of its fields (`framing`) together
(`CheckCall.length_questions`).
-/
import Mathlib.Algebra.BigOperators.Group.List.Basic
import Mathlib.Algebra.GroupWithZero.Nat
import PolicyClient.Wire.Message

namespace PolicyClient

set_option autoImplicit false

namespace Wire

/-! ## Numbers -/

theorem Varint.length_encode_of_lt {n : Nat} (small : n < 128) : (Varint.encode n).length = 1 := by
  rw [Varint.encode, if_pos small]
  rfl

theorem Varint.length_encode_pos (n : Nat) : 0 < (Varint.encode n).length := by
  unfold Varint.encode
  split <;> simp

/-- Beyond the first byte there is at most one for every 128 that the number counts. -/
theorem Varint.length_encode_le (n : Nat) : (Varint.encode n).length ≤ n / 128 + 1 := by
  induction n using Nat.strongRecOn with
  | ind n ih =>
    by_cases small : n < 128
    · simp [Varint.length_encode_of_lt small]
    · rw [Varint.encode, if_neg small, List.length_cons]
      have high := ih (n / 128) (by omega)
      omega

/-! ## Fields -/

/-- What a field of `n` bytes takes besides them, if its tag is below sixteen. -/
def headerSize (n : Nat) : Nat := 1 + (Varint.encode n).length

theorem headerSize_of_lt {n : Nat} (small : n < 128) : headerSize n = 2 := by
  rw [headerSize, Varint.length_encode_of_lt small]

theorem two_le_headerSize (n : Nat) : 2 ≤ headerSize n := by
  have number := Varint.length_encode_pos n
  unfold headerSize
  omega

theorem headerSize_le (n : Nat) : headerSize n ≤ n / 128 + 2 := by
  have number := Varint.length_encode_le n
  unfold headerSize
  omega

theorem length_key {tag : Nat} (low : tag < 16) (layout : Layout) : (key tag layout).length = 1 := by
  apply Varint.length_encode_of_lt
  cases layout <;> simp only [Layout.number] <;> omega

theorem length_delimited {tag : Nat} (low : tag < 16) (bytes : List UInt8) :
    (delimited tag bytes).length = headerSize bytes.length + bytes.length := by
  simp only [delimited, List.length_append, length_key low, headerSize]
  omega

theorem length_bytes_pos {s : String} (named : s ≠ "") : 0 < (Text.bytes s).length := by
  have size : (Text.bytes s).length = s.utf8ByteSize := by simp [Text.bytes]
  rw [size]
  exact Nat.pos_of_ne_zero (mt String.utf8ByteSize_eq_zero_iff.mp named)

/-- A text that is not empty takes three bytes at least. -/
theorem le_length_textAlways {tag : Nat} (low : tag < 16) {s : String} (named : s ≠ "") :
    3 ≤ (textAlways tag s).length := by
  have bytes := length_bytes_pos named
  have header := two_le_headerSize (Text.bytes s).length
  rw [textAlways, length_delimited low]
  omega

/-! ## Calls -/

namespace CheckCall

/-- What a call says but for its name: who asks what. -/
def questions (c : CheckCall) : List UInt8 :=
  delimited 2 c.principal.encode ++ c.resources.flatMap (fun e => delimited 3 e.encode) ++
    c.auxData.elim [] fun a => delimited 4 a.encode

theorem encode_eq (c : CheckCall) :
    c.encode = textField 1 c.requestId ++ (c.questions ++ boolField 5 c.includeMeta) := by
  simp only [encode, questions, List.append_assoc]

/-- The messages that a call holds, without the headers of their fields. -/
def contentSize (c : CheckCall) : Nat :=
  c.principal.encode.length + (c.resources.map fun e => e.encode.length).sum +
    c.auxData.elim 0 fun a => a.encode.length

/-- The headers of the fields that hold them. -/
def framing (c : CheckCall) : Nat :=
  headerSize c.principal.encode.length + (c.resources.map fun e => headerSize e.encode.length).sum +
    c.auxData.elim 0 fun a => headerSize a.encode.length

/-- **A call is as long as its messages and their headers.** -/
theorem length_questions (c : CheckCall) : c.questions.length = c.contentSize + c.framing := by
  have entries : (c.resources.flatMap fun e => delimited 3 e.encode).length =
      (c.resources.map fun e => e.encode.length).sum +
        (c.resources.map fun e => headerSize e.encode.length).sum := by
    induction c.resources with
    | nil => rfl
    | cons e rest ih =>
      simp only [List.flatMap_cons, List.length_append, length_delimited (by decide : 3 < 16),
        List.map_cons, List.sum_cons, ih]
      omega
  have auxData : (c.auxData.elim [] fun a => delimited 4 a.encode).length =
      (c.auxData.elim 0 fun a => a.encode.length) + c.auxData.elim 0 fun a => headerSize a.encode.length := by
    cases c.auxData with
    | none => rfl
    | some a =>
      simp only [Option.elim_some, length_delimited (by decide : 4 < 16)]
      omega
  simp only [questions, contentSize, framing, List.length_append, entries, auxData,
    length_delimited (by decide : 2 < 16)]
  omega

end CheckCall

end Wire

end PolicyClient
