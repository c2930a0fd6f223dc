import MaanyMpc.Library.Transition
import MaanyMpc.Library.Primality
import MaanyMpc.Library.Sharing
import MaanyMpc.Library.BigEndian
import MaanyMpc.Library.Codec
import MaanyMpc.Library.Fallible
import MaanyMpc.Bridge.Types
import MaanyMpc.Bridge.Keypair
import MaanyMpc.Session.AsyncSession
import MaanyMpc.Session.Semantics
import MaanyMpc.Session.Failure
import MaanyMpc.Session.Outbound
import MaanyMpc.Session.Progress
import MaanyMpc.Session.Continue
import MaanyMpc.Session.SetMessage
import MaanyMpc.Session.Sessions
import MaanyMpc.Session.Outcome
import MaanyMpc.Backup.Secp256k1
import MaanyMpc.Backup.KeyBlob
import MaanyMpc.Backup.Backup
import MaanyMpc.Backup.RoundTrip
import MaanyMpc.Backup.Points
import MaanyMpc.Coordinator.Bytes
import MaanyMpc.Coordinator.Storage
import MaanyMpc.Coordinator.Dkg
import MaanyMpc.Cosmos.SignDoc
import MaanyMpc.Transport.WebSocket
import MaanyMpc.Transport.Link
import MaanyMpc.Session.Inbound
import MaanyMpc.Coordinator.DualDkg
import MaanyMpc.Coordinator.Json
import MaanyMpc.Coordinator.Stores
import MaanyMpc.Coordinator.Interchange
import MaanyMpc.Coordinator.Reload
import MaanyMpc.Coordinator.NodeBuffer
import MaanyMpc.Coordinator.BackupShare
import MaanyMpc.Coordinator.Server
import MaanyMpc.Coordinator.Handshake
import MaanyMpc.Coordinator.Teardown
import MaanyMpc.Coordinator.Intake
import MaanyMpc.Coordinator.BackupIsolation
import MaanyMpc.Coordinator.BackupForm
import MaanyMpc.Coordinator.RnBase64
import MaanyMpc.Backup.Reached
import MaanyMpc.Coordinator.SecureStorage
import MaanyMpc.Session.Destroy
import MaanyMpc.Session.Finalize
import MaanyMpc.Coordinator.Drivers
import MaanyMpc.Transport.NodeSockets
import MaanyMpc.Transport.DeviceStream
import MaanyMpc.Transport.Attach
import MaanyMpc.Backup.Secrecy
import MaanyMpc.Backup.Metadata
import MaanyMpc.Bridge.CApi
import MaanyMpc.Session.Relay
import MaanyMpc.Session.Options
import MaanyMpc.Library.Bits
import MaanyMpc.Library.Register
import MaanyMpc.Library.Bech32
import MaanyMpc.Cosmos.Address
import MaanyMpc.Coordinator.Rejection
import MaanyMpc.Coordinator.Encodings
import MaanyMpc.Coordinator.Expiry
import MaanyMpc.Backup.Import
import MaanyMpc.Backup.Outputs
import MaanyMpc.Session.Handle
import MaanyMpc.Session.Replies
import MaanyMpc.Session.Share
import MaanyMpc.Coordinator.Padding
import MaanyMpc.Coordinator.ShareTag
import MaanyMpc.Backup.Parameters
import MaanyMpc.Cosmos.Regroup
import MaanyMpc.Library.BinaryPolynomial
import MaanyMpc.Library.PolynomialRegister
import MaanyMpc.Library.Bech32Field
import MaanyMpc.Cosmos.Remainder
import MaanyMpc.Bindings.BackupOptions
import MaanyMpc.Library.Der
import MaanyMpc.Library.Blocks
import MaanyMpc.Session.Copies
import MaanyMpc.Session.Signature
import MaanyMpc.Bindings.BackupExchange
import MaanyMpc.Bindings.SessionCalls
import MaanyMpc.Lifetimes.HostObjects
import MaanyMpc.Lifetimes.Interleavings
import MaanyMpc.Lifetimes.Answers
import MaanyMpc.Coordinator.ShareLoads
import MaanyMpc.Coordinator.Keychain
import MaanyMpc.Session.Callers
import MaanyMpc.Coordinator.Generations
import MaanyMpc.Library.Dataflow
import MaanyMpc.Session.Exchange
import MaanyMpc.Session.Schedules
import MaanyMpc.Coordinator.DeviceBackup
