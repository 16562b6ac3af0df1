/-
# PolicyClient.Text.Quoted -- text between double quotes

A character visible on its own stands for itself; the others are written as an escape:
a letter for the common ones, and the code point in hexadecimal for the rest.
-/
import PolicyClient.Text.Printable

namespace PolicyClient

set_option autoImplicit false

namespace Text

/-- One character inside quotes. -/
def escaped (c : Char) : List Char :=
  if c = '\x00' then ['\\', '0']
  else if c = '\t' then ['\\', 't']
  else if c = '\r' then ['\\', 'r']
  else if c = '\n' then ['\\', 'n']
  else if c = '"' then ['\\', '"']
  else if c = '\\' then ['\\', '\\']
  else if isPrintable c then [c]
  else ['\\', 'u', '\x7b'] ++ Nat.toDigits 16 c.toNat ++ ['\x7d']

/-- The text between double quotes. -/
def quoted (s : String) : String :=
  String.ofList (['"'] ++ s.toList.flatMap escaped ++ ['"'])

end Text

end PolicyClient
