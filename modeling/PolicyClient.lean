import PolicyClient.Config.Document
import PolicyClient.Document.Json
import PolicyClient.Endpoint.Setup
import PolicyClient.Proofs.Cache.Laws
import PolicyClient.Proofs.Check.Denial
import PolicyClient.Proofs.Check.Entries
import PolicyClient.Proofs.Check.Identity
import PolicyClient.Proofs.Client.Intake
import PolicyClient.Proofs.Correlator.FirstEnding
import PolicyClient.Proofs.Correlator.Index
import PolicyClient.Proofs.Endpoint.Plaintext
import PolicyClient.Proofs.Lifecycle.Outage
import PolicyClient.Proofs.Rehearsal.Following
import PolicyClient.Proofs.Remote.Agreement
import PolicyClient.Proofs.Remote.Partition
import PolicyClient.Proofs.Remote.Slots
import PolicyClient.Proofs.Run.Breaking
import PolicyClient.Proofs.Run.Containment
import PolicyClient.Proofs.Run.Deadlines
import PolicyClient.Proofs.Run.Flushing
import PolicyClient.Proofs.Run.Inquiring
import PolicyClient.Proofs.Run.Reordering
import PolicyClient.Proofs.Run.Resending
import PolicyClient.Proofs.Run.Sizing
import PolicyClient.Proofs.Run.Splitting
import PolicyClient.Proofs.Run.Transience
import PolicyClient.Proofs.Run.Transitions
import PolicyClient.Proofs.Run.Transparency
import PolicyClient.Proofs.Run.Unasked
import PolicyClient.Proofs.Value.Delimiting
import PolicyClient.Proofs.Wire.Lossless
import PolicyClient.Rehearsal.Blocking
import PolicyClient.Wire.Reader
