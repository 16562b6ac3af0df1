/-
# PolicyClient.Remote.HeaderBlock -- how large the headers of a call may be

Calls and responses start with a block of headers.  A header counts for its name, its
value and a fixed surcharge, and a block that reaches `HeaderBlock.limit` is not taken in
(`HeaderBlock.fits`).
-/
import PolicyClient.Error
import PolicyClient.Remote.Timeout
import PolicyClient.Text.Bytes
import PolicyClient.Wire.Message

namespace PolicyClient

set_option autoImplicit false

namespace Remote

/-- Headers by name, each with the length of its value. -/
abbrev HeaderBlock := List (String × Nat)

namespace HeaderBlock

/-- What a header counts for beyond its name and value. -/
def surcharge : Nat := 32

def size (b : HeaderBlock) : Nat :=
  b.foldr (fun (name, length) total => name.utf8ByteSize + length + surcharge + total) 0

/-- The size that a block must stay below. -/
def limit : Nat := 16384

def fits (b : HeaderBlock) : Bool := b.size < limit

/-- The headers of a call to a peer at `authority`, with those `sent` besides. -/
def ofCall (authority : String) (timeout : ToldTimeout) (sent : List (String × String)) :
    HeaderBlock :=
  [(":method", "POST".length), (":scheme", "http".length), (":authority", authority.length),
    (":path", Wire.checkResourcesPath.length), ("te", "trailers".length),
    ("content-type", "application/grpc".length), ("user-agent", 12),
    ("grpc-timeout", timeout.text.length)] ++
    sent.map fun (name, value) => (name, value.utf8ByteSize)

/-- The headers of a response that is a status and nothing else.  A text without bytes has
no header. -/
def ofStatus (code : StatusCode) (text : List UInt8) : HeaderBlock :=
  [(":status", "200".length), ("content-type", "application/grpc".length),
    ("grpc-status", (toString code.number).length)] ++
    (if text.isEmpty then [] else [("grpc-message", text.length)]) ++
    [("content-length", "0".length), ("date", "Thu, 01 Jan 1970 00:00:00 GMT".length)]

end HeaderBlock

end Remote

end PolicyClient
