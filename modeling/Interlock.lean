import Interlock.Bench.Described
import Interlock.Bench.Script
import Interlock.Bench.Shown
import Interlock.Bench.World
import Interlock.Bytes
import Interlock.Coordinator.Action
import Interlock.Coordinator.Operation
import Interlock.Coordinator.Operations
import Interlock.Coordinator.Queue
import Interlock.Coordinator.Settings
import Interlock.Coordinator.Signal
import Interlock.Daemon.Command
import Interlock.Daemon.Config
import Interlock.Daemon.Frame
import Interlock.Daemon.Journal
import Interlock.Daemon.Message
import Interlock.Daemon.Reaction
import Interlock.Daemon.Running
import Interlock.Daemon.Services
import Interlock.Decimal.Shortest
import Interlock.Disk.Basic
import Interlock.Disk.Pathname
import Interlock.Fleet.Command
import Interlock.Fleet.Set
import Interlock.Fleet.Simulated
import Interlock.Http.Exchange
import Interlock.Http.Network
import Interlock.Ident
import Interlock.Json.Basic
import Interlock.Json.Decode
import Interlock.Json.Lenient
import Interlock.Json.Parser
import Interlock.Json.Printer
import Interlock.Json.Real
import Interlock.Json.Typed
import Interlock.Main
import Interlock.Outcome
import Interlock.Priority
import Interlock.Program
import Interlock.Record
import Interlock.Registry
import Interlock.Robot
import Interlock.Schedule.Loops
import Interlock.Schedule.Task
import Interlock.SortKey
import Interlock.Store.Call
import Interlock.Store.Document
import Interlock.Store.Error
import Interlock.Store.File
import Interlock.Store.Report
import Interlock.Store.Table
import Interlock.Text.Alphanumeric
import Interlock.Text.Blank
import Interlock.Text.CodePoint
import Interlock.Text.Quoted
import Interlock.Text.Unprintable
import Interlock.Time.Calendar
import Interlock.Time.Instant
import Interlock.Time.Rfc3339
import Interlock.Time.Spelled
import Interlock.Toml.Parser
import Interlock.Toml.Scalar
import Interlock.Toml.Tree
import Interlock.Trace
import Interlock.Trace.Directive
import Interlock.Trace.Filter
import Interlock.Trace.Pattern
import Interlock.Trace.Written
import Interlock.Proofs.Store.Entries
import Interlock.Proofs.Store.Stretch
import Interlock.Proofs.Program.Conduct
import Interlock.Proofs.Concurrent.System
import Interlock.Proofs.Concurrent.Manners
import Interlock.Proofs.Concurrent.Runs
import Interlock.Proofs.Concurrent.Grounds
import Interlock.Proofs.Store.Holders
import Interlock.Proofs.Concurrent.Moves
import Interlock.Proofs.Concurrent.Exclusion
import Interlock.Proofs.Concurrent.Blocking
import Interlock.Proofs.Concurrent.Presence
import Interlock.Proofs.Concurrent.Arrivals
import Interlock.Proofs.Concurrent.ReleaseLog
import Interlock.Proofs.Concurrent.ReleaseRace
import Interlock.Proofs.Program.Quiet
import Interlock.Proofs.Fleet.Standing
import Interlock.Proofs.Schedule.Alone
import Interlock.Proofs.Sequential.Fifo
import Interlock.Proofs.Sequential.Mirror
import Interlock.Proofs.Sequential.Refinement
import Interlock.Proofs.Concurrent.Overtaking
import Interlock.Proofs.Concurrent.Rivals
import Interlock.Proofs.Sequential.Accord
import Interlock.Proofs.Fleet.TimeLimit
import Interlock.Proofs.Store.Dated
import Interlock.Proofs.Store.Enrolled
import Interlock.Proofs.Signals.Deeds
import Interlock.Proofs.Signals.Story
import Interlock.Proofs.Signals.Watch
import Interlock.Proofs.Program.Assured
import Interlock.Proofs.Locked.System
import Interlock.Proofs.Locked.Standing
import Interlock.Proofs.Locked.Progress
import Interlock.Proofs.Locked.Serial
import Interlock.Proofs.Text.Digits
import Interlock.Proofs.Json.Pretty
import Interlock.Proofs.Time.Calendar
import Interlock.Proofs.Time.Written
import Interlock.Proofs.Store.Written
import Interlock.Proofs.Locked.Evaluation
import Interlock.Proofs.Store.OneEach
import Interlock.Proofs.Locked.OneEach
import Interlock.Proofs.Disk.Names
import Interlock.Proofs.Disk.Places
import Interlock.Proofs.Locked.OnDisk
import Interlock.Proofs.Locked.Undamaged
import Interlock.Proofs.Store.InTurn
import Interlock.Proofs.Locked.Granted
import Interlock.Proofs.Daemon.SameReplies
import Interlock.Proofs.Json.Compact
import Interlock.Proofs.Daemon.Framing
import Interlock.Proofs.Daemon.Messages
import Interlock.Proofs.Daemon.Wire
import Interlock.Proofs.Daemon.Readable
import Interlock.Proofs.Daemon.Answered
import Interlock.Proofs.Store.Held
import Interlock.Proofs.Evaluation.Course
import Interlock.Proofs.Evaluation.Failures
import Interlock.Proofs.Evaluation.Order
import Interlock.Proofs.Sequential.Listing
import Interlock.Proofs.Schedule.Wakeups
import Interlock.Proofs.Schedule.Work
import Interlock.Proofs.Schedule.Crews
import Interlock.Proofs.Fleet.FanOut
import Interlock.Proofs.Store.Swap
import Interlock.Proofs.Release.Course
import Interlock.Proofs.Release.Abandoned
import Interlock.Proofs.Release.Interrupted
import Interlock.Proofs.Release.Removed
import Interlock.Proofs.Minting.Clones
import Interlock.Proofs.Text.ByteOrder
import Interlock.Proofs.Text.Keys
import Interlock.Proofs.Store.Scans
import Interlock.Proofs.Store.Decoded
import Interlock.Proofs.Disk.Parents
import Interlock.Proofs.Daemon.Refused
import Interlock.Proofs.Daemon.Files
import Interlock.Proofs.Schedule.Failed
import Interlock.Proofs.Daemon.Periods
