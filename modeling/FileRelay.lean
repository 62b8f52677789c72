import FileRelay.GoMap
import FileRelay.Slice
import FileRelay.Machine
import FileRelay.Programs
import FileRelay.Chunking
import FileRelay.NanoPack
import FileRelay.ReplayGate
import FileRelay.BurnQueue
import FileRelay.WriteBack
import FileRelay.Gather
import FileRelay.Bytes
import FileRelay.Limits
import FileRelay.Schemas
import FileRelay.Auth
import FileRelay.Transfers
import FileRelay.Messages
import FileRelay.MemStore
import FileRelay.Step
import FileRelay.Effects
import FileRelay.Steps
import FileRelay.TransferInv
import FileRelay.RoundTrip
import FileRelay.Replay
import FileRelay.Credentials
import FileRelay.Queue
import FileRelay.Upload
import FileRelay.Quota
import FileRelay.Expiry
import FileRelay.ResumeView
import FileRelay.Growth
import FileRelay.Handlers
import FileRelay.PutAck
import FileRelay.Failures
import FileRelay.Sweep
import FileRelay.Sealing
import FileRelay.SignedBytes
import FileRelay.Isolation
import FileRelay.RequestCodec
import FileRelay.Requests
import FileRelay.Admission
import FileRelay.Stale
import FileRelay.Caps
import FileRelay.BridgeRPC
import FileRelay.Bindings
import FileRelay.Poll
import FileRelay.Skew
import FileRelay.Retries
import FileRelay.Lifetimes
import FileRelay.MissingChunks
import FileRelay.Prefixed
import FileRelay.RoutingTable
import FileRelay.ShardHandlers
import FileRelay.Batches
import FileRelay.ClientSend
import FileRelay.Tickets
import FileRelay.Wasm
import FileRelay.QueueModule
import FileRelay.Router
import FileRelay.Registration
import FileRelay.Package
import FileRelay.Windows
import FileRelay.Urls
import FileRelay.MailboxIDs
import FileRelay.AuthContexts
import FileRelay.ReplySize
import FileRelay.Commute
import FileRelay.LegacyShard
import FileRelay.SubParsers
import FileRelay.Presence
import FileRelay.Responses
import FileRelay.Deployment
import FileRelay.ServerTexts
import FileRelay.Replies
import FileRelay.Conduct
import FileRelay.Traffic
import FileRelay.Answers
import FileRelay.Reports
import FileRelay.Provenance
import FileRelay.Once
import FileRelay.Mail
import FileRelay.Files
import FileRelay.Readers
import FileRelay.Sessions
import FileRelay.Network
import FileRelay.Addresses
import FileRelay.EndToEnd
import FileRelay.KeyMail
import FileRelay.Daemon
import FileRelay.Grains
