/-
# PolicyClient.Cache.Fingerprint -- one name per question

A fingerprint is the digest of everything that decides the answer to one action: the
principal, the resource, the action and the auxiliary data.  The other actions of the
request have no part in it.
-/
import PolicyClient.Check.Request
import PolicyClient.Text.Hex

namespace PolicyClient

set_option autoImplicit false

namespace Request

/-- Byte form of the question about one action. -/
def encodeQuestion (r : Request) (action : Action) : List UInt8 :=
  r.principal.encode ++ r.resource.encode ++ Encoding.text action.name ++
    AuxData.encodeOptional r.auxData

end Request

/-- The digest of one question. -/
structure Fingerprint where
  digest : Digest
deriving DecidableEq, Inhabited, Repr

namespace Fingerprint

/-- The fingerprint of `action` as asked by `request`. -/
def of (request : Request) (action : Action) : Fingerprint :=
  ⟨Digest.of (request.encodeQuestion action)⟩

/-- All digits. -/
def text (f : Fingerprint) : String := Hex.encode f.digest.bytes

/-- The first eight bytes are enough to tell fingerprints apart in messages. -/
def debugText (f : Fingerprint) : String :=
  "Fingerprint(" ++ Hex.encode (f.digest.bytes.take 8) ++ ")"

end Fingerprint

end PolicyClient
