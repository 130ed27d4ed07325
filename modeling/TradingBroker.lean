import TradingBroker.Lib.Coroutine
import TradingBroker.Lib.Machine
import TradingBroker.Lib.Contract
import TradingBroker.Lib.Debt
import TradingBroker.Lib.Mailbox
import TradingBroker.Schemas.Core
import TradingBroker.Schemas.Webhook
import TradingBroker.Schemas.Publisher
import TradingBroker.Signals.Table
import TradingBroker.Signals.Service
import TradingBroker.Signals.System
import TradingBroker.Signals.Contract
import TradingBroker.Signals.Steps
import TradingBroker.Signals.Coroutines
import TradingBroker.Signals.Runs
import TradingBroker.Signals.Ack
import TradingBroker.Signals.Ownership
import TradingBroker.Signals.Block
import TradingBroker.Signals.Sequence
import TradingBroker.Signals.Identity
import TradingBroker.Signals.Budget
import TradingBroker.Signals.Storable
import TradingBroker.Settings.Service
import TradingBroker.Settings.System
import TradingBroker.Settings.Converge
import TradingBroker.Settings.Overtaken
import TradingBroker.Schemas.Trade
import TradingBroker.Broadcast.Cycle
import TradingBroker.Broadcast.Writers
import TradingBroker.Broadcast.Serial
import TradingBroker.Broadcast.Replay
import TradingBroker.Lib.Protocol
import TradingBroker.Lib.AsyncLock
import TradingBroker.Broadcast.Targets
import TradingBroker.Broadcast.Dispatcher
import TradingBroker.Broadcast.Rows
import TradingBroker.Broadcast.Board
import TradingBroker.Broadcast.Phases
import TradingBroker.Broadcast.Reads
import TradingBroker.Broadcast.Lossless
import TradingBroker.Broadcast.Stranded
import TradingBroker.Broadcast.Interleaved
import TradingBroker.Broadcast.Turns
import TradingBroker.Broadcast.Copies
import TradingBroker.Broadcast.Notices
import TradingBroker.Broadcast.Parked
import TradingBroker.Broadcast.Silence
import TradingBroker.Broadcast.Locks
import TradingBroker.Lib.Rows
import TradingBroker.Lib.Paths
import TradingBroker.Trades.Table
import TradingBroker.Trades.Lifecycle
import TradingBroker.Trades.Consumer
import TradingBroker.Trades.System
import TradingBroker.Trades.Execution
import TradingBroker.Trades.Reports
import TradingBroker.Lib.Tagged
import TradingBroker.Lib.Sql
import TradingBroker.Lib.Subjects
import TradingBroker.Accounts.Table
import TradingBroker.Accounts.Identity
import TradingBroker.Accounts.Claimable
import TradingBroker.Accounts.Access
import TradingBroker.Accounts.Active
import TradingBroker.Accounts.Viewers
import TradingBroker.Schemas.Coerce
import TradingBroker.Schemas.RoundTrip
import TradingBroker.Schemas.Survive
import TradingBroker.Signals.Stored
import TradingBroker.Handshake.Consumer
import TradingBroker.Handshake.Answer
import TradingBroker.Handshake.Replayed
import TradingBroker.Handshake.Caches
import TradingBroker.Settings.Leverage
import TradingBroker.Lib.Places
import TradingBroker.Deferred.Enqueuer
import TradingBroker.Deferred.Conserved
import TradingBroker.Deferred.Clock
import TradingBroker.Deferred.Window
import TradingBroker.Lib.Html
import TradingBroker.Lib.Along
import TradingBroker.Lib.Monitor
import TradingBroker.Lib.Noted
import TradingBroker.Lib.Server
import TradingBroker.Bot.AdminFlat
import TradingBroker.Bot.Commands
import TradingBroker.Bot.Prompts
import TradingBroker.Settings.Toggles
import TradingBroker.Cards.Service
import TradingBroker.Cards.Forwards
import TradingBroker.Lib.Markup
import TradingBroker.Lib.Numerals
import TradingBroker.Lib.Datetime
import TradingBroker.Helpers.Display
import TradingBroker.Broadcast.Formatter
import TradingBroker.Broadcast.Headers
import TradingBroker.Broadcast.Escaping
import TradingBroker.Cards.Render
import TradingBroker.Cards.Twin
import TradingBroker.Signals.Agreement
import TradingBroker.Settings.Salvage
import TradingBroker.Broadcast.Destinations
import TradingBroker.Bot.Pagination
import TradingBroker.Trades.Paging
import TradingBroker.Signals.Labels
import TradingBroker.Lib.Columns
import TradingBroker.Bot.Table
import TradingBroker.Accounts.Addresses
import TradingBroker.Helpers.Numbers
import TradingBroker.Lib.Regex
import TradingBroker.Security.Redaction
import TradingBroker.Security.Decoder
import TradingBroker.Security.Lexed
import TradingBroker.Security.Tokens
import TradingBroker.Security.Replaced
import TradingBroker.Security.Hidden
import TradingBroker.Security.Window
import TradingBroker.Wire.Dumps
import TradingBroker.Wire.ReadBack
import TradingBroker.Wire.Reload
import TradingBroker.Wire.Envelope
import TradingBroker.Wire.MagicMap
import TradingBroker.Wire.Echo
import TradingBroker.Lib.Display
import TradingBroker.Alerts.Queued
import TradingBroker.Alerts.ErrorLog
import TradingBroker.Alerts.LogText
import TradingBroker.Bot.Presenters
import TradingBroker.Bot.Replies
import TradingBroker.Lib.ExitStack
import TradingBroker.Lifecycle.Lifespan
import TradingBroker.Lifecycle.Leftover
