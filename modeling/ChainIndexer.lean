import ChainIndexer.Text.Blank
import ChainIndexer.Text.Hidden
import ChainIndexer.Text.Numeral
import ChainIndexer.Text.Hex
import ChainIndexer.Text.Base64
import ChainIndexer.Amount.Basic
import ChainIndexer.Amount.Display
import ChainIndexer.Number.Binary64
import ChainIndexer.Number.Shortest
import ChainIndexer.Keyed
import ChainIndexer.Json.Value
import ChainIndexer.Json.Reader
import ChainIndexer.Json.Fields
import ChainIndexer.Time.Calendar
import ChainIndexer.Time.Instant
import ChainIndexer.Wire.Varint
import ChainIndexer.Wire.Schema
import ChainIndexer.Wire.Record
import ChainIndexer.Url.Fault
import ChainIndexer.Error
import ChainIndexer.Event
import ChainIndexer.Log
import ChainIndexer.Settlement
import ChainIndexer.Message.Kind
import ChainIndexer.Message.TypeUrl
import ChainIndexer.Message.Body
import ChainIndexer.Message.Mapping
import ChainIndexer.Message.Router
import ChainIndexer.Message.Calls
import ChainIndexer.Block
import ChainIndexer.Stored.Event
import ChainIndexer.Stored.Log
import ChainIndexer.Stored.Block
import ChainIndexer.Transaction
import ChainIndexer.Stored.Transaction
import ChainIndexer.Url.Basic
import ChainIndexer.Url.Host
import ChainIndexer.Url.Parser
import ChainIndexer.Holdings
import ChainIndexer.Stored.Holdings
import ChainIndexer.Tasks.Basic
import ChainIndexer.Stored.Task
import ChainIndexer.Retry
import ChainIndexer.BlockCache
import ChainIndexer.CacheEntries
import ChainIndexer.TokenBucket
import ChainIndexer.HeightData
import ChainIndexer.Chain.Basic
import ChainIndexer.Chain.Local
import ChainIndexer.Range.Reference
import ChainIndexer.Range.Pipeline
import ChainIndexer.Range.Timeline
import ChainIndexer.Range.Crew
import ChainIndexer.Tasks.Stream
import ChainIndexer.Tasks.Handler
import ChainIndexer.Tasks.Running
import ChainIndexer.Node.Question
import ChainIndexer.Node.Answer
import ChainIndexer.Node.Rest
import ChainIndexer.Node.Basic
import ChainIndexer.Node.Client
import ChainIndexer.Recorded.Fields
import ChainIndexer.Recorded.Chain
import ChainIndexer.Recorded.Node
import ChainIndexer.Settings.Variables
import ChainIndexer.Settings.Basic
import ChainIndexer.Command
import ChainIndexer.Node.Address
import ChainIndexer.Fetch
import ChainIndexer.Server.MediaType
import ChainIndexer.Server.Request
import ChainIndexer.Server.Basic
import ChainIndexer.Recorded.Request
import ChainIndexer.Main
import ChainIndexer.Proofs.Outcome
import ChainIndexer.Proofs.Text.Numeral
import ChainIndexer.Proofs.Text.Blank
import ChainIndexer.Proofs.Text.Integer
import ChainIndexer.Proofs.Message.Heading
import ChainIndexer.Proofs.Wire.Varint
import ChainIndexer.Proofs.Wire.Value
import ChainIndexer.Proofs.Wire.Reading
import ChainIndexer.Proofs.Wire.Canonical
import ChainIndexer.Proofs.Wire.Size
import ChainIndexer.Proofs.Wire.RoundTrip
import ChainIndexer.Proofs.Wire.Views
import ChainIndexer.Proofs.Wire.Building
import ChainIndexer.Proofs.Keyed.Entries
import ChainIndexer.Proofs.Message.Writing
import ChainIndexer.Proofs.Message.Roles
import ChainIndexer.Proofs.Message.Showing
import ChainIndexer.Proofs.Message.Refusing
import ChainIndexer.Proofs.Message.Settling
import ChainIndexer.Proofs.Message.Blaming
import ChainIndexer.Proofs.Message.Placing
import ChainIndexer.Proofs.Log.Flattening
import ChainIndexer.Proofs.Transaction.Refusals
import ChainIndexer.Proofs.Transaction.Decoding
import ChainIndexer.Proofs.Transaction.FlatLogs
import ChainIndexer.Proofs.Transaction.LogOrder
import ChainIndexer.Proofs.Transaction.Raw
import ChainIndexer.Proofs.Amount.Value
import ChainIndexer.Proofs.Amount.Marked
import ChainIndexer.Proofs.Amount.Numeral
import ChainIndexer.Proofs.Amount.Places
import ChainIndexer.Proofs.Amount.Currency
import ChainIndexer.Proofs.Amount.Readings
import ChainIndexer.Proofs.Amount.Display
import ChainIndexer.Proofs.Amount.Coins
import ChainIndexer.Proofs.Settlement.Attribution
import ChainIndexer.Proofs.Settlement.Grouping
import ChainIndexer.Proofs.Settlement.Reconciliation
import ChainIndexer.Proofs.Settlement.Printed
import ChainIndexer.Proofs.Chain.Reading
import ChainIndexer.Proofs.Range.Moves
import ChainIndexer.Proofs.Range.Reference
import ChainIndexer.Proofs.Range.Delivery
import ChainIndexer.Proofs.Range.Asking
import ChainIndexer.Proofs.Range.Timeline
import ChainIndexer.Proofs.Range.Progress
import ChainIndexer.Proofs.Range.Crew
import ChainIndexer.Proofs.Range.Backpressure
import ChainIndexer.Proofs.Tasks.Moves
import ChainIndexer.Proofs.Tasks.Framing
import ChainIndexer.Proofs.Tasks.Answering
import ChainIndexer.Proofs.Tasks.Dispatching
import ChainIndexer.Proofs.Tasks.Ending
import ChainIndexer.Proofs.Tasks.Numbering
import ChainIndexer.Proofs.Tasks.Prompt
import ChainIndexer.Proofs.Tasks.Truncation
import ChainIndexer.Proofs.Tasks.Running
import ChainIndexer.Proofs.Tasks.Timeout
import ChainIndexer.Proofs.Tasks.Following
import ChainIndexer.Proofs.Message.Counting
import ChainIndexer.Proofs.Node.Retrying
import ChainIndexer.Proofs.Node.Cache
import ChainIndexer.Proofs.Node.Eviction
import ChainIndexer.Proofs.Json.Quoting
import ChainIndexer.Proofs.Json.Lexing
import ChainIndexer.Proofs.Json.Numbers
import ChainIndexer.Proofs.Json.RoundTrip
import ChainIndexer.Proofs.Json.Settling
import ChainIndexer.Proofs.Json.Records
import ChainIndexer.Proofs.Text.Base64
import ChainIndexer.Proofs.Time.Calendar
import ChainIndexer.Proofs.Time.Instant
import ChainIndexer.Proofs.Stored.Event
import ChainIndexer.Proofs.Stored.Records
import ChainIndexer.Proofs.Stored.RoundTrip
import ChainIndexer.Proofs.Server.Lines
import ChainIndexer.Proofs.Node.Search
import ChainIndexer.Proofs.Range.Completion
import ChainIndexer.Proofs.Tasks.Regrouping
import ChainIndexer.Proofs.Tasks.CatchingUp
import ChainIndexer.Proofs.Fetch.Agreement
import ChainIndexer.Proofs.Message.Naming
import ChainIndexer.Proofs.Transaction.KeptLog
import ChainIndexer.Proofs.Node.Pages
import ChainIndexer.Proofs.Node.Stopping
import ChainIndexer.Proofs.Node.Holdings
import ChainIndexer.Proofs.Log.Collecting
import ChainIndexer.Proofs.Message.Depositing
import ChainIndexer.Proofs.Settings.Precedence
import ChainIndexer.Proofs.Url.Encoding
import ChainIndexer.Proofs.Url.Segments
import ChainIndexer.Proofs.Node.Balances
import ChainIndexer.Proofs.Node.Limiting
