import ExpiringCache.ByteMap
import ExpiringCache.Bytes
import ExpiringCache.Cache
import ExpiringCache.Clock
import ExpiringCache.Codec
import ExpiringCache.Command.Answer
import ExpiringCache.Command.Basic
import ExpiringCache.Command.Invocation
import ExpiringCache.Command.Method
import ExpiringCache.Config.Property
import ExpiringCache.Config.Server
import ExpiringCache.Config.Settings
import ExpiringCache.Decimal.Binary64
import ExpiringCache.Decimal.Notation
import ExpiringCache.Decimal.Numeral
import ExpiringCache.Decimal.Shortest
import ExpiringCache.Description
import ExpiringCache.Durable.Backend
import ExpiringCache.Durable.Change
import ExpiringCache.Durable.Kind
import ExpiringCache.Durable.Snapshot
import ExpiringCache.Durable.Table
import ExpiringCache.Entry
import ExpiringCache.Error
import ExpiringCache.Http.MediaType
import ExpiringCache.Http.Path
import ExpiringCache.Http.Request
import ExpiringCache.Http.Response
import ExpiringCache.Http.Server
import ExpiringCache.Http.Timestamp
import ExpiringCache.Json.Basic
import ExpiringCache.Json.Form
import ExpiringCache.Json.Parser
import ExpiringCache.Json.Printer
import ExpiringCache.Json.Skim
import ExpiringCache.Json.Token
import ExpiringCache.Listener.Basic
import ExpiringCache.Listener.Catalog
import ExpiringCache.Persistence.Backing
import ExpiringCache.Persistence.Expiration
import ExpiringCache.Persistence.Message
import ExpiringCache.Persistence.MethodTable
import ExpiringCache.Proofs.Codec
import ExpiringCache.Proofs.Command
import ExpiringCache.Proofs.Delay
import ExpiringCache.Proofs.Durable.Algebra
import ExpiringCache.Proofs.Durable.Backing
import ExpiringCache.Proofs.Durable.Keyed
import ExpiringCache.Proofs.Durable.Reopen
import ExpiringCache.Proofs.Durable.Replay
import ExpiringCache.Proofs.Durable.Snapshot
import ExpiringCache.Proofs.Durable.Table
import ExpiringCache.Proofs.Durable.Timed
import ExpiringCache.Proofs.Durable.Unsaved
import ExpiringCache.Proofs.Effect
import ExpiringCache.Proofs.Encoding
import ExpiringCache.Proofs.Errands
import ExpiringCache.Proofs.Gate
import ExpiringCache.Proofs.Given
import ExpiringCache.Proofs.Handling
import ExpiringCache.Proofs.Http.Endpoints
import ExpiringCache.Proofs.Http.Errors
import ExpiringCache.Proofs.Json.Depth
import ExpiringCache.Proofs.Json.Form
import ExpiringCache.Proofs.Json.RoundTrip
import ExpiringCache.Proofs.Json.Tokens
import ExpiringCache.Proofs.Listeners
import ExpiringCache.Proofs.Mirror.Basic
import ExpiringCache.Proofs.Mirror.Restart
import ExpiringCache.Proofs.Mirror.Session
import ExpiringCache.Proofs.Passage.Basic
import ExpiringCache.Proofs.Passage.Commands
import ExpiringCache.Proofs.Passage.Course
import ExpiringCache.Proofs.Passage.Duration
import ExpiringCache.Proofs.Passage.Past
import ExpiringCache.Proofs.Passage.Request
import ExpiringCache.Proofs.Queue
import ExpiringCache.Proofs.Reads
import ExpiringCache.Proofs.Recovery
import ExpiringCache.Proofs.Refused
import ExpiringCache.Proofs.Removal.Anchored
import ExpiringCache.Proofs.Removal.Bulk
import ExpiringCache.Proofs.Removal.Similar
import ExpiringCache.Proofs.Reports
import ExpiringCache.Proofs.Session
import ExpiringCache.Proofs.SideChannel
import ExpiringCache.Proofs.Store.Accounts
import ExpiringCache.Proofs.Store.Acts
import ExpiringCache.Proofs.Store.Agree
import ExpiringCache.Proofs.Store.Deadlines
import ExpiringCache.Proofs.Store.Drops
import ExpiringCache.Proofs.Store.Ledger
import ExpiringCache.Proofs.Store.Lives
import ExpiringCache.Proofs.Store.Operation
import ExpiringCache.Proofs.Store.Sweeps
import ExpiringCache.Proofs.Threshold
import ExpiringCache.Proofs.Utf8
import ExpiringCache.Proofs.WrittenTtl
import ExpiringCache.Recovery
import ExpiringCache.Stats
import ExpiringCache.Store
import ExpiringCache.Sweeper
import ExpiringCache.Text.Blank
import ExpiringCache.Text.Choice
import ExpiringCache.Text.Quoted
import ExpiringCache.Text.Scalar
import ExpiringCache.Text.Split
import ExpiringCache.Text.Utf8
import ExpiringCache.Text.Visible
import ExpiringCache.TimeUnit
