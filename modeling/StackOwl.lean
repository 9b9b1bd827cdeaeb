import StackOwl.Notifications.Digest
import StackOwl.Notifications.Flush
import StackOwl.Notifications.Proactive
import StackOwl.Notifications.ProactiveRuns
import StackOwl.Providers.ResilientRound
import StackOwl.Authz.Delegation
import StackOwl.Agents.Ladder
import StackOwl.Agents.Mailboxes
import StackOwl.Gateway.TurnRegistry
import StackOwl.Interaction.ClarifyGateway
import StackOwl.Agents.ChildDrives
import StackOwl.Audit.Chain
import StackOwl.Audit.Tamper
import StackOwl.Audit.Retention
import StackOwl.Audit.Writers
import StackOwl.Db.Pool
import StackOwl.Db.Readers
import StackOwl.Durable.Ceiling
import StackOwl.Durable.DeadLetters
import StackOwl.Durable.Decompose
import StackOwl.Durable.Delivery
import StackOwl.Durable.Dependencies
import StackOwl.Durable.Dispatch
import StackOwl.Durable.DispatchSpec
import StackOwl.Durable.FailureClass
import StackOwl.Durable.IdempotencyKey
import StackOwl.Durable.Leases
import StackOwl.Durable.Ledger
import StackOwl.Durable.Liveness
import StackOwl.Durable.Passes
import StackOwl.Durable.ReactCheckpoint
import StackOwl.Durable.Recovery
import StackOwl.Durable.RecoverySpec
import StackOwl.Durable.Reshape
import StackOwl.Durable.ReservedSlot
import StackOwl.Durable.Runs
import StackOwl.Durable.Schema
import StackOwl.Durable.SpentTasks
import StackOwl.Durable.Starvation
import StackOwl.Durable.Store
import StackOwl.Durable.StoreSpec
import StackOwl.Durable.Sweeps
import StackOwl.Durable.Task
import StackOwl.Durable.TerminalParents
import StackOwl.Durable.Transparency
import StackOwl.Durable.UnreachableOwners
import StackOwl.Durable.Waiting
import StackOwl.Export.ImportLaw
import StackOwl.Lib.Json
import StackOwl.Lib.Run
import StackOwl.Lib.Table
import StackOwl.Lib.Text
import StackOwl.Objectives.Graph
import StackOwl.Lib.Window
import StackOwl.Runtime.JournalLink
import StackOwl.Runtime.Reconnect
import StackOwl.Journal.NeedsYou
import StackOwl.Journal.Settlement
import StackOwl.Journal.Waiters
import StackOwl.Commands.Approval
import StackOwl.Commands.Receipts
import StackOwl.Commands.Undo
import StackOwl.Commands.Handlers
import StackOwl.Commands.Reruns
import StackOwl.Commands.StandingAuthority
import StackOwl.Commands.Unattended
import StackOwl.Commands.UndoRestores
import StackOwl.Lib.Zone
import StackOwl.Scheduler.DailySlots
import StackOwl.Scheduler.OneClock
import StackOwl.Scheduler.Grammar
import StackOwl.Lib.HashChain
import StackOwl.Lib.Sha256
import StackOwl.Lib.Utf8
import StackOwl.Lib.JsonCompact
import StackOwl.Lib.JsonCodec
import StackOwl.Ipc.Payload
import StackOwl.Ipc.Frames
import StackOwl.Ipc.Codec
import StackOwl.Ipc.StreamBridge
import StackOwl.Runtime.TurnLedger
import StackOwl.Runtime.Turns
import StackOwl.Lib.IsoTime
import StackOwl.Scheduler.Rows
import StackOwl.Scheduler.Routines
import StackOwl.Scheduler.Exclusion
import StackOwl.Scheduler.Paused
import StackOwl.Scheduler.OneShots
import StackOwl.Scheduler.Recurring
import StackOwl.Tools.TextFiles
import StackOwl.Tools.UndoStore
import StackOwl.Tools.ApplyPatch
import StackOwl.Tools.UndoWrite
import StackOwl.Process.Registry
import StackOwl.Process.Lifecycle
import StackOwl.Process.Buffers
import StackOwl.Db.SplitSql
import StackOwl.Db.Migrations
import StackOwl.Db.MigrationRuns
import StackOwl.Lib.SqlLex
import StackOwl.Tenancy.OwnedRepository
import StackOwl.Tenancy.Comparisons
import StackOwl.Tenancy.OwnerScope
import StackOwl.Lib.Delimited
import StackOwl.Memory.Curated
import StackOwl.Memory.Compressor
import StackOwl.Memory.Eviction
import StackOwl.Sessions.Policy
import StackOwl.Sessions.Store
import StackOwl.Sessions.Rollovers
import StackOwl.Sessions.Incarnations
import StackOwl.Sessions.Lanes
import StackOwl.Tools.Consent
import StackOwl.Tools.ConsentLaw
import StackOwl.ControlPlane.Password
import StackOwl.ControlPlane.LoginGuard
import StackOwl.Db.PoolCalls
import StackOwl.Objectives.Completion
import StackOwl.Objectives.Ended
import StackOwl.Objectives.Positions
import StackOwl.Objectives.Stories
import StackOwl.Durable.SubtaskProgress
import StackOwl.Providers.TranscriptCloser
import StackOwl.Journal.Prune
import StackOwl.Durable.Expiry
import StackOwl.Durable.Banned
import StackOwl.Tools.EditInPlace
import StackOwl.Agents.WidthSlots
import StackOwl.Providers.RateLimiter
import StackOwl.Providers.Truncate
import StackOwl.Pipeline.ToolGuardrails
import StackOwl.Pipeline.BudgetRuns
import StackOwl.Tools.PatchRoundTrip
import StackOwl.Notifications.QuietHours
import StackOwl.Channels.SplitterRun
