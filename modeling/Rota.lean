import Rota.Audit.Log
import Rota.Audit.Pipeline
import Rota.Audit.Record
import Rota.Channel
import Rota.Cli.Command
import Rota.Cli.Host
import Rota.Cli.Invocation
import Rota.Cli.Run
import Rota.Cli.Scan
import Rota.Config
import Rota.Decimal.Binary64
import Rota.Decimal.Shortest
import Rota.Directory
import Rota.Directory.Cache
import Rota.Directory.Resolver
import Rota.Directory.Table
import Rota.Event
import Rota.Failure
import Rota.Format
import Rota.Gateway
import Rota.Gateway.Exchange
import Rota.Gateway.Extract
import Rota.Gateway.Notice
import Rota.Http.Client
import Rota.Http.Form
import Rota.Http.Host
import Rota.Http.MediaType
import Rota.Http.Percent
import Rota.Http.Status
import Rota.Http.Url
import Rota.Identity
import Rota.Json.Basic
import Rota.Json.Document
import Rota.Json.Format
import Rota.Json.Numeral
import Rota.Json.Reader
import Rota.Keyed
import Rota.Main
import Rota.Message
import Rota.Poller.Cycle
import Rota.Proofs.Audit.Conservation
import Rota.Proofs.Directory.Latest
import Rota.Proofs.Directory.Live
import Rota.Proofs.Directory.Meaning
import Rota.Proofs.Directory.Recall
import Rota.Proofs.Directory.Sync
import Rota.Proofs.Gateway.Course
import Rota.Proofs.Gateway.Discretion
import Rota.Proofs.Gateway.Notification
import Rota.Proofs.Poller.Book
import Rota.Proofs.Poller.Faithful
import Rota.Proofs.Poller.Fetches
import Rota.Proofs.Poller.Rounds
import Rota.Proofs.Relay.Accounts
import Rota.Proofs.Relay.Alarms
import Rota.Proofs.Relay.Aside
import Rota.Proofs.Relay.Attendance
import Rota.Proofs.Relay.Balance
import Rota.Proofs.Relay.Barrier
import Rota.Proofs.Relay.Closing
import Rota.Proofs.Relay.Course
import Rota.Proofs.Relay.Grace
import Rota.Proofs.Relay.Ledger
import Rota.Proofs.Relay.Outbound
import Rota.Proofs.Relay.Outcome
import Rota.Proofs.Relay.Records
import Rota.Proofs.Relay.Senders
import Rota.Proofs.Relay.Tracing
import Rota.Proofs.Relay.Waking
import Rota.Proofs.Roster.Chronicle
import Rota.Proofs.Roster.Surplus
import Rota.Relay.Agenda
import Rota.Relay.Client
import Rota.Relay.Deliver
import Rota.Relay.Queue
import Rota.Relay.Reply
import Rota.Relay.Step
import Rota.Relay.System
import Rota.Relay.Transport
import Rota.Roster.Duty
import Rota.Roster.Snapshot
import Rota.Roster.Source
import Rota.Roster.Transition
import Rota.Text.Characters
import Rota.Text.Piece
import Rota.Text.Punycode
import Rota.Text.Search
import Rota.Text.Utf8
import Rota.Time.Date
import Rota.Time.Reading
import Rota.Time.Timestamp
import Rota.Toml.Format
import Rota.Toml.Lexical
import Rota.Toml.Reader
import Rota.Toml.Table
import Rota.Wire.Audit
import Rota.Wire.ConfigText
import Rota.Wire.Database
import Rota.Wire.Event
import Rota.Wire.Identity
import Rota.Wire.Request
import Rota.Wire.Roster
import Rota.Wire.Stats
import Rota.Proofs.Cli.Startup
import Rota.Proofs.Directory.Consistency
import Rota.Proofs.Directory.Import
import Rota.Proofs.Gateway.Leniency
import Rota.Proofs.Relay.Acquaintance
import Rota.Proofs.Gateway.Deactivation
import Rota.Proofs.Poller.Accounting
import Rota.Proofs.Json.Records
import Rota.Proofs.Json.Text
import Rota.Proofs.Text.Decimal
import Rota.Proofs.Time.Exchange
import Rota.Proofs.Wire.RoundTrip
import Rota.Proofs.Audit.Retrieval
import Rota.Proofs.Roster.Pages
import Rota.Proofs.Time.Stored
import Rota.Proofs.Format
import Rota.Proofs.Gateway.Bodies
import Rota.Proofs.Http.Form
import Rota.Proofs.Json.Writing
import Rota.Proofs.Text.Spelling
import Rota.Proofs.Text.Utf8
import Rota.Proofs.Poller.Announcement
import Rota.Proofs.Relay.Visits
import Rota.Proofs.Relay.Draining
import Rota.Proofs.Poller.Duration
import Rota.Proofs.Poller.Lifecycle
import Rota.Proofs.Directory.Links
import Rota.Proofs.Directory.Upsert
import Rota.Proofs.Message
import Rota.Proofs.Roster.Order
import Rota.Proofs.Text.Replace
import Rota.Proofs.Text.Search
