import ESPressioSecurity.Framework.LittleEndian
import ESPressioSecurity.Framework.Buffer
import ESPressioSecurity.Framework.KeyedTable
import ESPressioSecurity.Framework.Machine
import ESPressioSecurity.Framework.History
import ESPressioSecurity.Framework.SlidingWindow
import ESPressioSecurity.Framework.SharedHeap
import ESPressioSecurity.Framework.SharedObject
import ESPressioSecurity.Framework.Fifo
import ESPressioSecurity.Framework.Broadcast
import ESPressioSecurity.Model.SecurityTypes
import ESPressioSecurity.Model.AeadCipher
import ESPressioSecurity.Model.KeyProvider
import ESPressioSecurity.Model.KeyStorage
import ESPressioSecurity.Model.KeyLifetimes
import ESPressioSecurity.Model.KeyRetention
import ESPressioSecurity.Model.KeyThreads
import ESPressioSecurity.Model.KeyLinearization
import ESPressioSecurity.Model.KeyProgress
import ESPressioSecurity.Model.Host
import ESPressioSecurity.Model.ReplayWindow
import ESPressioSecurity.Model.ReplayHistory
import ESPressioSecurity.Model.TestDoubles
import ESPressioSecurity.Model.MbedTLSAead
import ESPressioSecurity.Transport.Header
import ESPressioSecurity.Transport.Security
import ESPressioSecurity.Transport.Envelope
import ESPressioSecurity.Transport.Protect
import ESPressioSecurity.Transport.Unprotect
import ESPressioSecurity.Transport.Grammar
import ESPressioSecurity.Transport.Operations
import ESPressioSecurity.Transport.Sessions
import ESPressioSecurity.Transport.Identities
import ESPressioSecurity.Transport.Interference
import ESPressioSecurity.Transport.Arrivals
import ESPressioSecurity.Transport.WireAgreement
import ESPressioSecurity.Transport.Plaintext
import ESPressioSecurity.Transport.RoundTrip
import ESPressioSecurity.Transport.SecureTransportDecorator
import ESPressioSecurity.Transport.Limits
import ESPressioSecurity.Transport.Notifications
import ESPressioSecurity.Transport.Resets
import ESPressioSecurity.Transport.Adapters
import ESPressioSecurity.Transport.Windows
import ESPressioSecurity.Transport.Isolation
import ESPressioSecurity.Transport.Rollover
import ESPressioSecurity.Transport.Sequences
import ESPressioSecurity.Transport.Callbacks
import ESPressioSecurity.Transport.Reentrancy
import ESPressioSecurity.Transport.Progress
import ESPressioSecurity.Data.Header
import ESPressioSecurity.Data.Protector
import ESPressioSecurity.Data.Envelope
import ESPressioSecurity.Data.Protect
import ESPressioSecurity.Data.Unprotect
import ESPressioSecurity.Data.Sizes
import ESPressioSecurity.Data.Canonical
import ESPressioSecurity.System.SecureLink
import ESPressioSecurity.System.Deployment
import ESPressioSecurity.System.Lengths
import ESPressioSecurity.System.Entropy
import ESPressioSecurity.System.Provenance
import ESPressioSecurity.System.Authenticity
import ESPressioSecurity.System.SecureChannel
import ESPressioSecurity.System.Containment
import ESPressioSecurity.System.Site
import ESPressioSecurity.System.Rotation
import ESPressioSecurity.System.Downgrade
import ESPressioSecurity.System.Lookup
import ESPressioSecurity.System.Node
import ESPressioSecurity.System.EventBridge
import ESPressioSecurity.System.EntropyGate
import ESPressioSecurity.System.ReplayMemory
import ESPressioSecurity.System.Stack
