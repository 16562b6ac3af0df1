/-
# PolicyClient.Remote.Status -- how a failed call tells why

A call that fails ends with a status, a code and a text, in the headers of its response.
A byte that no header can hold is written as a percent sign and two digits.  The percent
sign itself stands as it is, so a text in which digits follow one is read as another text.

Two things are reported in place of the status: a text whose bytes are not UTF-8 once they
are read, and headers that are too large to be taken in (`receivedStatus`).
-/
import PolicyClient.Remote.HeaderBlock
import PolicyClient.Text.Hex

namespace PolicyClient

set_option autoImplicit false

namespace Remote

/-! ## Texts in headers -/

/-- Whether a byte stands for itself in the header of a text. -/
def isPlainByte (b : UInt8) : Bool :=
  0x21 ≤ b && b ≤ 0x7e && !(Text.bytes "\"#<>?`\x7b\x7d").contains b

/-- A byte as a percent sign and two digits. -/
def escapedByte (b : UInt8) : List UInt8 :=
  Text.bytes (String.ofList ('%' :: (Hex.fixed 2 b.toNat).map Char.toUpper))

/-- Bytes as they stand in a header. -/
def escapeBytes (bytes : List UInt8) : List UInt8 :=
  bytes.flatMap fun b => if isPlainByte b then [b] else escapedByte b

/-- The byte that two digits write. -/
def byteOfDigits? (high low : UInt8) : Option UInt8 := do
  let h ← Hex.value? (Char.ofNat high.toNat)
  let l ← Hex.value? (Char.ofNat low.toNat)
  return UInt8.ofNat (16 * h + l)

/-- The bytes that a header stands for.  A percent sign without two digits after it stands
for itself. -/
def unescapeBytes : List UInt8 → List UInt8
  | 0x25 :: high :: low :: rest =>
    match byteOfDigits? high low with
    | some b => b :: unescapeBytes rest
    | none => 0x25 :: unescapeBytes (high :: low :: rest)
  | b :: rest => b :: unescapeBytes rest
  | [] => []

/-! ## Statuses -/

/-- What is told of a stream that the service breaks off. -/
def brokenOff : String := "h2 protocol error: http2 error"

/-- The status that the caller sees when a call ends with `code` and `text`. -/
def receivedStatus (code : StatusCode) (text : String) : StatusCode × String :=
  let header := escapeBytes (Text.bytes text)
  if !(HeaderBlock.ofStatus code header).fits then (.internal, brokenOff)
  else match Text.decode (unescapeBytes header) with
    | .ok text => (code, text)
    | .error fault =>
      (.unknown, "Error deserializing status message header: " ++ fault.message)

end Remote

end PolicyClient
