import EffectEngine.Client
import EffectEngine.Code
import EffectEngine.Config
import EffectEngine.Config.Json
import EffectEngine.Context
import EffectEngine.Coroutine
import EffectEngine.Diagnostic
import EffectEngine.Error
import EffectEngine.Function
import EffectEngine.Host
import EffectEngine.Lifecycle
import EffectEngine.Machine
import EffectEngine.Middleware.Basic
import EffectEngine.Middleware.Batch
import EffectEngine.Middleware.BatchTable
import EffectEngine.Middleware.Delay
import EffectEngine.Middleware.Observe
import EffectEngine.Number.Double
import EffectEngine.Number.Shortest
import EffectEngine.Operation
import EffectEngine.Proofs.Batch.Alarms
import EffectEngine.Proofs.Batch.Book
import EffectEngine.Proofs.Batch.Bystanders
import EffectEngine.Proofs.Batch.Coalescing
import EffectEngine.Proofs.Batch.Debounce
import EffectEngine.Proofs.Batch.Diary
import EffectEngine.Proofs.Batch.Discretion
import EffectEngine.Proofs.Batch.Flushing
import EffectEngine.Proofs.Batch.Joining
import EffectEngine.Proofs.Batch.Roster
import EffectEngine.Proofs.Batch.Rounds
import EffectEngine.Proofs.Batch.Sections
import EffectEngine.Proofs.Batch.Session
import EffectEngine.Proofs.Batch.Timers
import EffectEngine.Proofs.Context.Orderly
import EffectEngine.Proofs.Context.Sections
import EffectEngine.Proofs.Context.Slots
import EffectEngine.Proofs.Context.Winner
import EffectEngine.Proofs.Coroutine.Mailbox
import EffectEngine.Proofs.Coroutine.Protocol
import EffectEngine.Proofs.Delay.Course
import EffectEngine.Proofs.Delay.Prevention
import EffectEngine.Proofs.Root.Chronicle
import EffectEngine.Proofs.Root.Course
import EffectEngine.Proofs.Root.Enactment
import EffectEngine.Proofs.Root.Moves
import EffectEngine.Proofs.Root.Release
import EffectEngine.Proofs.Task.Custody
import EffectEngine.Proofs.Task.Dispatch
import EffectEngine.Proofs.Task.Failing
import EffectEngine.Proofs.Task.ForcedReturn
import EffectEngine.Proofs.Task.Lineup
import EffectEngine.Proofs.Task.Lives
import EffectEngine.Proofs.Task.Marks
import EffectEngine.Proofs.Task.Observers
import EffectEngine.Proofs.Task.Permits
import EffectEngine.Proofs.Task.Recursion
import EffectEngine.Proofs.Task.Refinement
import EffectEngine.Proofs.Task.Replacing
import EffectEngine.Proofs.Task.Routing
import EffectEngine.Proofs.Task.Run
import EffectEngine.Proofs.Task.Settlement
import EffectEngine.Proofs.Task.Shelter
import EffectEngine.Proofs.Task.Stranding
import EffectEngine.Proofs.Task.Tally
import EffectEngine.Proofs.Task.Transparency
import EffectEngine.Proofs.Task.Turn
import EffectEngine.Proofs.Task.Unwinding
import EffectEngine.Proofs.Trace.Brackets
import EffectEngine.Proofs.Trace.Nesting
import EffectEngine.Proofs.Value.Hashing
import EffectEngine.Proofs.Value.Identity
import EffectEngine.Proofs.Value.Keys
import EffectEngine.Proofs.World.Conduct
import EffectEngine.Proofs.World.Driving
import EffectEngine.Proofs.World.Engaged
import EffectEngine.Proofs.World.Lines
import EffectEngine.Proofs.World.Moves
import EffectEngine.Proofs.World.Posts
import EffectEngine.Proofs.World.StationMoves
import EffectEngine.Proofs.World.Stations
import EffectEngine.Proofs.World.Tasks
import EffectEngine.Registry
import EffectEngine.Script.Bench
import EffectEngine.Script.Build
import EffectEngine.Script.Client
import EffectEngine.Script.Eval
import EffectEngine.Script.Exec
import EffectEngine.Script.Setup
import EffectEngine.Script.State
import EffectEngine.Script.Term
import EffectEngine.Task
import EffectEngine.Task.Frame
import EffectEngine.TaskId
import EffectEngine.Text.Printable
import EffectEngine.Text.Quoted
import EffectEngine.Value
import EffectEngine.Value.Key
import EffectEngine.World
