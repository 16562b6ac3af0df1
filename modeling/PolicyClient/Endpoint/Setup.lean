/-
# PolicyClient.Endpoint.Setup -- from an endpoint to a client

Before anything is connected the settings and the endpoint are checked: a plaintext
endpoint must be on this machine unless the caller insists (`checkPlaintext`).
-/
import PolicyClient.Client
import PolicyClient.Endpoint.Uri
import PolicyClient.Remote.Metadata

namespace PolicyClient

set_option autoImplicit false

namespace Endpoint

/-- Hosts that are on this machine. -/
def loopbackHosts : List String := ["localhost", "127.0.0.1", "::1", "[::1]"]

/-- Refuses an endpoint that starts as a plaintext one, unless its host, as `lib` reads it, is
on this machine or the caller insists. -/
def checkPlaintextBy {υ : Type} (lib : UriLibrary υ) (endpoint : String) (insist : Bool) :
    Except Error Unit :=
  if !"http://".toList.isPrefixOf endpoint.toList || insist then .ok ()
  else match lib.parse? endpoint with
    | none => .error (.invalidArgument .endpointUri)
    | some u =>
      if loopbackHosts.contains (String.ofList (lib.host u)) then .ok ()
      else .error (.invalidArgument (.plaintextRemote endpoint))

/-- The check that runs. -/
def checkPlaintext (endpoint : String) (insist : Bool) : Except Error Unit :=
  checkPlaintextBy Uri.library endpoint insist

/-- The header that selects a set of policies on a shared test service. -/
def instanceHeader : String := "playground-instance"

end Endpoint

/-- What a client is set up with. -/
structure Setup where
  endpoint : String
  insecure : Bool := false
  instanceName : Option String := none
  config : Config := {}
  /-- The last instant that the client's clock can name. -/
  horizon : Instant := .horizon

namespace Setup

/-- The headers that every call will carry. -/
def headers (s : Setup) : Except Error (List Remote.Header) :=
  match s.instanceName with
  | none => .ok []
  | some name => (Remote.Header.of Endpoint.instanceHeader name).map fun h => [h]

/-- What can be refused before a connection is tried. -/
def check (s : Setup) : Except Error Unit := do
  s.config.validate
  Endpoint.checkPlaintext s.endpoint s.insecure
  match Uri.parse? s.endpoint with
  | none => .error (.invalidArgument .endpoint)
  | some _ => pure ()

/-- The client of a setup, given how the attempt to connect ends. -/
def build (s : Setup) (connection : Except String Unit) : Except Error Client := do
  s.check
  match connection with
  | .error detail => .error (.transport detail)
  | .ok () =>
    let _ ← s.headers
    Client.create s.config s.horizon

end Setup

end PolicyClient
