/-
# PolicyClient.Text.Bytes -- text as UTF-8 bytes

Not all bytes are the UTF-8 form of a text.  `firstFault?` tells where they stop being
one: at bytes that can start no character, or at a character that the end cuts short.
-/

namespace PolicyClient

set_option autoImplicit false

namespace Text

/-- The UTF-8 form. -/
def bytes (s : String) : List UInt8 := s.toUTF8.data.toList

/-- The text with this UTF-8 form, if the bytes are well formed. -/
def ofBytes? (b : List UInt8) : Option String := String.fromUTF8? ⟨b.toArray⟩

/-! ## Faults -/

/-- Where bytes stop being well formed. -/
structure Fault where
  /-- How many bytes stand before it. -/
  index : Nat
  /-- How many bytes are at fault; none if the end cuts a character short. -/
  length : Option Nat
deriving DecidableEq, Repr

def Fault.message (f : Fault) : String :=
  match f.length with
  | some n => "invalid utf-8 sequence of " ++ toString n ++ " bytes from index " ++ toString f.index
  | none => "incomplete utf-8 byte sequence from index " ++ toString f.index

/-- What may follow the first byte of a character, as a range for each byte; none if no
character starts with that byte. -/
def followers? (lead : UInt8) : Option (List (UInt8 × UInt8)) :=
  let any : UInt8 × UInt8 := (0x80, 0xbf)
  if lead < 0x80 then some []
  else if lead < 0xc2 then none
  else if lead < 0xe0 then some [any]
  else if lead = 0xe0 then some [(0xa0, 0xbf), any]
  else if lead = 0xed then some [(0x80, 0x9f), any]
  else if lead < 0xf0 then some [any, any]
  else if lead = 0xf0 then some [(0x90, 0xbf), any, any]
  else if lead < 0xf4 then some [any, any, any]
  else if lead = 0xf4 then some [(0x80, 0x8f), any, any]
  else none

/-- Reads on from the middle of a character that starts at `start`, of which `seen` bytes
have been read and `pending` are to come. -/
def faultFrom? (start seen : Nat) (pending : List (UInt8 × UInt8)) : List UInt8 → Option Fault
  | [] => if pending.isEmpty then none else some ⟨start, none⟩
  | b :: rest =>
    match pending with
    | (low, high) :: others =>
      if low ≤ b && b ≤ high then faultFrom? start (seen + 1) others rest
      else some ⟨start, some seen⟩
    | [] =>
      match followers? b with
      | none => some ⟨start + seen, some 1⟩
      | some ranges => faultFrom? (start + seen) 1 ranges rest

/-- The first fault, if there is one. -/
def firstFault? (b : List UInt8) : Option Fault := faultFrom? 0 0 [] b

/-- The text with this UTF-8 form, or what is wrong with the bytes. -/
def decode (b : List UInt8) : Except Fault String :=
  match firstFault? b with
  | some fault => .error fault
  | none => .ok ((ofBytes? b).getD "")

end Text

end PolicyClient
