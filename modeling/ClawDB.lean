import ClawDB.Lib.Prog
import ClawDB.Lib.Pool
import ClawDB.Lib.Escrow
import ClawDB.Lib.Text
import ClawDB.Lib.Json
import ClawDB.Lib.Ranking
import ClawDB.Lib.Toml
import ClawDB.Types
import ClawDB.Effects
import ClawDB.Engine
import ClawDB.World
import ClawDB.Authorize
import ClawDB.Memories
import ClawDB.Index
import ClawDB.Filter
import ClawDB.Metadata
import ClawDB.Search
import ClawDB.Lib.Broadcast
import ClawDB.Dispatch
import ClawDB.Server.Wire
import ClawDB.Cli
import ClawDB.Lib.Retry
import ClawDB.Cli.Types
import ClawDB.Cli.Client
import ClawDB.Cli.Commands
import ClawDB.Cli.Verdicts
import ClawDB.Server.Http
import ClawDB.Server.Router
import ClawDB.Cli.Network
import ClawDB.Server.Grpc
import ClawDB.Server.Monitor
import ClawDB.Server.Conforms
import ClawDB.Pending
import ClawDB.Transactions
import ClawDB.Receipts
import ClawDB.Commits
import ClawDB.Access
import ClawDB.Lib.Mutex
import ClawDB.Lib.History
import ClawDB.Transaction.Manager
import ClawDB.Transaction.Phases
import ClawDB.Transaction.System
import ClawDB.Transaction.Lifecycle
import ClawDB.Transaction.Runs
import ClawDB.Transaction.Atomic
import ClawDB.Transaction.Retry
import ClawDB.Transaction.Log
import ClawDB.Lib.Path
import ClawDB.Config
import ClawDB.ConfigFile
import ClawDB.Deferred
import ClawDB.Loading
import ClawDB.Cli.Config
import ClawDB.Server.Surfaces
import ClawDB.Server.Calls
import ClawDB.Routes
import ClawDB.Cli.Options
import ClawDB.Lib.Trace
import ClawDB.Query.Plan
import ClawDB.Query.Optimizer
import ClawDB.Session.Store
import ClawDB.Session.Manager
import ClawDB.Session.System
import ClawDB.Session.Runs
import ClawDB.Session.Tokens
import ClawDB.Plugins.Registry
import ClawDB.Plugins.Runs
import ClawDB.Query.Executor
import ClawDB.Query.Router
import ClawDB.Server.Lifetimes
import ClawDB.Events.Subscriber
import ClawDB.Lifecycle.Manager
import ClawDB.Lifecycle.Runs
import ClawDB.Lifecycle.Accounts
import ClawDB.LocalOnly
import ClawDB.Plugins.Loader
import ClawDB.Plugins.Manager
import ClawDB.Lib.Url
import ClawDB.Server.Paths
import ClawDB.Lib.Tsv
import ClawDB.Cli.Output
import ClawDB.Lib.Window
import ClawDB.Transaction.RollingLog
import ClawDB.Lib.Among
import ClawDB.Session.Purge
import ClawDB.Lib.Fanout
import ClawDB.Events.Bus
import ClawDB.Transaction.Stale
import ClawDB.Plugins.Manifests
import ClawDB.Lib.Same
import ClawDB.Query.Optimised
import ClawDB.Server.Notices
import ClawDB.Server.Twins
import ClawDB.Lib.Quiet
import ClawDB.Server.Reads
import ClawDB.Lib.Rely
import ClawDB.Server.Process
import ClawDB.Server.Shutdown
