import JobFleet.App.Lifecycle
import JobFleet.App.Serve
import JobFleet.App.Setup
import JobFleet.Calendar
import JobFleet.Digest.Sha256
import JobFleet.Document.Job
import JobFleet.Document.Parser
import JobFleet.DomainError
import JobFleet.Duration
import JobFleet.Fleet.Executor
import JobFleet.Fleet.Members
import JobFleet.Fleet.Step
import JobFleet.Fleet.Task
import JobFleet.Fleet.World
import JobFleet.Http.ClientAddress
import JobFleet.Http.MediaType
import JobFleet.Http.Request
import JobFleet.Http.Route
import JobFleet.Job.Basic
import JobFleet.Job.Key
import JobFleet.Job.Retry
import JobFleet.Job.Status
import JobFleet.Json.Printer
import JobFleet.Json.Reader
import JobFleet.Json.Value
import JobFleet.Lock
import JobFleet.Log.Event
import JobFleet.Log.Line
import JobFleet.LogFormat
import JobFleet.Net.Address
import JobFleet.Net.Url
import JobFleet.Number.Binary64
import JobFleet.Number.Integer
import JobFleet.Proofs.Fleet.TaskSteps
import JobFleet.Proofs.Fleet.RunnerMoves
import JobFleet.Proofs.Fleet.Attempts
import JobFleet.Proofs.Fleet.Balance
import JobFleet.Proofs.Fleet.Calls
import JobFleet.Proofs.Fleet.Claim
import JobFleet.Proofs.Fleet.Conservation
import JobFleet.Proofs.Fleet.Controllers
import JobFleet.Proofs.Fleet.Counter
import JobFleet.Proofs.Fleet.Crew
import JobFleet.Proofs.Fleet.Dedup
import JobFleet.Proofs.Fleet.WorldDeeds
import JobFleet.Proofs.Fleet.Exclusion
import JobFleet.Proofs.Fleet.Fate
import JobFleet.Proofs.Fleet.Footprint
import JobFleet.Proofs.Fleet.Frame
import JobFleet.Proofs.Fleet.Gate
import JobFleet.Proofs.Fleet.Guards
import JobFleet.Proofs.Fleet.HandIns
import JobFleet.Proofs.Fleet.Lease
import JobFleet.Proofs.Fleet.Live
import JobFleet.Proofs.Fleet.Moves
import JobFleet.Proofs.Fleet.Perform
import JobFleet.Proofs.Fleet.Restart
import JobFleet.Proofs.Fleet.Roles
import JobFleet.Proofs.Fleet.Seats
import JobFleet.Proofs.Fleet.Served
import JobFleet.Proofs.Fleet.Shape
import JobFleet.Proofs.Fleet.Slots
import JobFleet.Proofs.Fleet.Staff
import JobFleet.Proofs.Fleet.Tasks
import JobFleet.Proofs.Fleet.Tenure
import JobFleet.Proofs.Fleet.Ties
import JobFleet.Proofs.Fleet.Told
import JobFleet.Proofs.Fleet.Wakeups
import JobFleet.Proofs.Fleet.Workers
import JobFleet.Proofs.Fleet.Writers
import JobFleet.Proofs.Lock.Lease
import JobFleet.Proofs.Number.Hex
import JobFleet.Proofs.Number.ReadBack
import JobFleet.Proofs.RateLimit.Turn
import JobFleet.Proofs.Redis.Backends
import JobFleet.Proofs.Redis.Interpreter
import JobFleet.Proofs.Redis.Server
import JobFleet.Proofs.Runner.Account
import JobFleet.Proofs.Runner.RunnerSteps
import JobFleet.Proofs.Runner.HandIn
import JobFleet.Proofs.Runner.Turn
import JobFleet.Proofs.Schedule.Turn
import JobFleet.Proofs.Store.Effect
import JobFleet.Proofs.Store.Grammar
import JobFleet.Proofs.Store.Keys
import JobFleet.Proofs.Table.Total
import JobFleet.RateLimit.Check
import JobFleet.RateLimit.Event
import JobFleet.RateLimit.Guard
import JobFleet.RateLimit.Key
import JobFleet.RateLimit.Limiter
import JobFleet.RateLimit.Policy
import JobFleet.Redis.Client
import JobFleet.Redis.Command
import JobFleet.Redis.Location
import JobFleet.Redis.Script
import JobFleet.Runner.Config
import JobFleet.Runner.Enqueue
import JobFleet.Runner.Event
import JobFleet.Runner.Handler
import JobFleet.Runner.HandlerCall
import JobFleet.Runner.State
import JobFleet.Runner.Stop
import JobFleet.Runner.Worker
import JobFleet.Schedule.Control
import JobFleet.Schedule.Cycle
import JobFleet.Schedule.Event
import JobFleet.Schedule.Loops
import JobFleet.Schedule.Settings
import JobFleet.Schedule.State
import JobFleet.Settings.Basic
import JobFleet.Settings.Load
import JobFleet.Store.Basic
import JobFleet.Store.Call
import JobFleet.Store.Error
import JobFleet.Table
import JobFleet.Text.Blank
import JobFleet.Text.Cased
import JobFleet.Text.CodePoints
import JobFleet.Text.CombiningMark
import JobFleet.Text.Form
import JobFleet.Text.LowerCase
import JobFleet.Text.Quoted
import JobFleet.Text.Unprintable
import JobFleet.Text.Utf8
import JobFleet.WorkerId
import JobFleet.Proofs.RateLimit.Window
import JobFleet.Proofs.Fleet.Sessions
import JobFleet.Proofs.Fleet.Overlap
import JobFleet.Proofs.Fleet.Renewal
import JobFleet.Proofs.Fleet.Tenants
import JobFleet.Proofs.Fleet.Lifecycle
import JobFleet.Proofs.Fleet.Landing
import JobFleet.Proofs.Fleet.Admission
import JobFleet.Proofs.Fleet.Refusal
import JobFleet.Proofs.Fleet.SchedulerMoves
import JobFleet.Proofs.Fleet.Closing
import JobFleet.Proofs.Fleet.Shutdown
import JobFleet.Proofs.Fleet.Trials
import JobFleet.Proofs.Http.Forwarding
import JobFleet.Proofs.Fleet.Indifference
import JobFleet.Proofs.Fleet.Cancellation
import JobFleet.Proofs.Net.Address
import JobFleet.Proofs.RateLimit.Separation
import JobFleet.Proofs.Redis.Opening
import JobFleet.Proofs.Number.Written
import JobFleet.Proofs.Settings.Accepted
import JobFleet.Proofs.Fallible
import JobFleet.Proofs.Json.Yields
import JobFleet.Proofs.Settings.Parser
import JobFleet.Proofs.Schedule.Pause
import JobFleet.Proofs.Job.Backoff
import JobFleet.Proofs.Calendar.Civil
import JobFleet.Proofs.Calendar.Stamp
import JobFleet.Proofs.Fleet.OwnKey
import JobFleet.Proofs.Schedule.Tick
import JobFleet.Proofs.Store.Expiry
import JobFleet.Proofs.Store.Eager
import JobFleet.Proofs.Schedule.Rounds
import JobFleet.Proofs.Fleet.Cadence
