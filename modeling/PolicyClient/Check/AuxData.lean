/-
# PolicyClient.Check.AuxData -- a token that goes with a check

A signed token that the policies may look at, with the name of the key set that verifies
it.  An empty key set is the same as none.  The token never shows in `debugText`.
-/
import PolicyClient.Error
import PolicyClient.Digest.Encoding
import PolicyClient.Text.Quoted

namespace PolicyClient

set_option autoImplicit false

/-- A token for the policies to verify and to look at. -/
structure AuxData where
  token : String
  keySet : Option String
deriving DecidableEq, Inhabited, Repr

namespace AuxData

/-- The data of a token, which must not be empty. -/
def ofToken (token : String) (keySet : Option String) : Except Error AuxData :=
  if token = "" then .error (.invalidArgument .emptyToken)
  else .ok ⟨token, keySet.filter (· ≠ "")⟩

/-- Byte form: token, key set. -/
def encode (a : AuxData) : List UInt8 := Encoding.text a.token ++ Encoding.optionalText a.keySet

/-- Byte form of data that may be absent: a byte tells whether it is there. -/
def encodeOptional : Option AuxData → List UInt8
  | none => [0]
  | some a => 1 :: a.encode

/-- The data with the token struck out. -/
def debugText (a : AuxData) : String :=
  let keySet := match a.keySet with
    | none => "None"
    | some k => "Some(" ++ Text.quoted k ++ ")"
  "AuxData \x7b jwt: \"***\", key_set_id: " ++ keySet ++ " \x7d"

end AuxData

end PolicyClient
