import AdmissionGate.Text.Bytes
import AdmissionGate.Text.Blank
import AdmissionGate.Text.Hex
import AdmissionGate.Text.Decimal
import AdmissionGate.Number.Binary64
import AdmissionGate.Number.Lenient
import AdmissionGate.Number.Shortest
import AdmissionGate.Digest.Md5
import AdmissionGate.Address.Ip
import AdmissionGate.Address.Socket
import AdmissionGate.Address.Client
import AdmissionGate.Clock
import AdmissionGate.Table
import AdmissionGate.Text.Names
import AdmissionGate.Firewall.RateWindow
import AdmissionGate.Firewall.ReplayCache
import AdmissionGate.Firewall.Keywords
import AdmissionGate.Firewall.Signer
import AdmissionGate.Metrics
import AdmissionGate.Shutdown
import AdmissionGate.Firewall.Verdict
import AdmissionGate.Json.Token
import AdmissionGate.Json.Document
import AdmissionGate.Json.Magnitude
import AdmissionGate.Json.Writer
import AdmissionGate.Value
import AdmissionGate.Firewall.Record
import AdmissionGate.Settings.Basic
import AdmissionGate.Firewall.Basic
import AdmissionGate.Text.Base64
import AdmissionGate.Store.Status
import AdmissionGate.Store.Error
import AdmissionGate.Store.Basic
import AdmissionGate.Store.LongPoll
import AdmissionGate.Watch.Subscription
import AdmissionGate.Watch.Watcher
import AdmissionGate.Watch.Polling
import AdmissionGate.Watch.Session
import AdmissionGate.Yaml.Cursor
import AdmissionGate.Yaml.Scalar
import AdmissionGate.Yaml.Token
import AdmissionGate.Yaml.Node
import AdmissionGate.Yaml.Reading
import AdmissionGate.Toml.Text
import AdmissionGate.Toml.DateTime
import AdmissionGate.Toml.Node
import AdmissionGate.Toml.Document
import AdmissionGate.Settings.Reading
import AdmissionGate.Settings.Validation
import AdmissionGate.Settings.Loading
import AdmissionGate.Text.Percent
import AdmissionGate.Text.FormEncoding
import AdmissionGate.Http.Request
import AdmissionGate.Http.Transfer
import AdmissionGate.Http.Service
import AdmissionGate.Url.Punycode
import AdmissionGate.Url.Host
import AdmissionGate.Url.Basic
import AdmissionGate.Url.Reading
import AdmissionGate.Store.AgentEntry
import AdmissionGate.Store.Agent
import AdmissionGate.Json.Indented
import AdmissionGate.CommandLine.Arguments
import AdmissionGate.CommandLine.Run
import AdmissionGate.Watch.Following
import AdmissionGate.Startup
import AdmissionGate.Main
import AdmissionGate.Proofs.Text.Percent
import AdmissionGate.Proofs.Text.Utf8
import AdmissionGate.Proofs.Text.FormEncoding
import AdmissionGate.Proofs.Text.Symbols
import AdmissionGate.Proofs.Text.Base64
import AdmissionGate.Proofs.Text.Digits
import AdmissionGate.Proofs.Text.ByteOrder
import AdmissionGate.Proofs.Number.LargeIntegers
import AdmissionGate.Proofs.Number.IntegerLiterals
import AdmissionGate.Proofs.Json.Tokens
import AdmissionGate.Proofs.Json.Documents
import AdmissionGate.Proofs.Json.Writing
import AdmissionGate.Proofs.Address.Dotted
import AdmissionGate.Proofs.Address.Spelling
import AdmissionGate.Proofs.Address.Grouped
import AdmissionGate.Proofs.Url.Paths
import AdmissionGate.Proofs.Url.Hosts
import AdmissionGate.Proofs.AgentAddress
import AdmissionGate.Proofs.Firewall.Acts
import AdmissionGate.Proofs.Firewall.Replay
import AdmissionGate.Proofs.Firewall.SigningString
import AdmissionGate.Proofs.Firewall.SignedValues
import AdmissionGate.Proofs.Firewall.Effects
import AdmissionGate.Proofs.Firewall.RateLaw
import AdmissionGate.Proofs.Firewall.MappedClients
import AdmissionGate.Proofs.Firewall.RateIsolation
import AdmissionGate.Proofs.Firewall.Maintenance
import AdmissionGate.Proofs.Firewall.Keywords
import AdmissionGate.Proofs.Firewall.WholeWords
import AdmissionGate.Proofs.Firewall.QuerySpelling
import AdmissionGate.Proofs.Http.Decisions
import AdmissionGate.Proofs.Http.ClientAddresses
import AdmissionGate.Proofs.SignedQuery
import AdmissionGate.Proofs.Store.Order
import AdmissionGate.Proofs.Store.Versions
import AdmissionGate.Proofs.Store.History
import AdmissionGate.Proofs.Store.WriteLog
import AdmissionGate.Proofs.Store.LongPolls
import AdmissionGate.Proofs.Store.KeyAddresses
import AdmissionGate.Proofs.Store.AgentListings
import AdmissionGate.Proofs.Watch.Offers
import AdmissionGate.Proofs.Watch.Batches
import AdmissionGate.Proofs.Watch.Groupings
import AdmissionGate.Proofs.Watch.Registrations
import AdmissionGate.Proofs.Watch.Listeners
import AdmissionGate.Proofs.Watch.Course
import AdmissionGate.Proofs.Watch.Calls
import AdmissionGate.Proofs.Watch.Convergence
import AdmissionGate.Proofs.Watch.Handings
import AdmissionGate.Proofs.Watch.Directories
import AdmissionGate.Proofs.Watch.Cursors
import AdmissionGate.Proofs.Watch.Isolation
import AdmissionGate.Proofs.Watch.Happenings
import AdmissionGate.Proofs.Watch.PollLoop
import AdmissionGate.Proofs.Watch.Rest
import AdmissionGate.Proofs.Firewall.LiveRecord
import AdmissionGate.Proofs.RecordKey
import AdmissionGate.Proofs.PushedRecord
import AdmissionGate.Proofs.Number.IntegerLiterals
