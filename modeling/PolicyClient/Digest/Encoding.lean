/-
# PolicyClient.Digest.Encoding -- byte forms that can be told apart

What is digested is a sequence of fields.  Each field announces its own length, so no
two different sequences give the same bytes: a count takes eight bytes, a text is its
length in bytes followed by its UTF-8 form.
-/
import PolicyClient.Digest.Sha256
import PolicyClient.Text.Bytes

namespace PolicyClient

set_option autoImplicit false

namespace Encoding

/-- A count in eight bytes, highest first. -/
def count (n : Nat) : List UInt8 := Sha256.bigEndian 8 n

/-- A text: its length in bytes, then the bytes. -/
def text (s : String) : List UInt8 := count (Text.bytes s).length ++ Text.bytes s

/-- An optional text; none is written as the empty text. -/
def optionalText (s : Option String) : List UInt8 := text (s.getD "")

end Encoding

end PolicyClient
