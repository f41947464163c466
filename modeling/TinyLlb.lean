import TinyLlb.Backend.Exposition
import TinyLlb.Backend.Monitor
import TinyLlb.Backend.ParseSnapshot
import TinyLlb.Backend.Prometheus
import TinyLlb.Backend.Watchdog
import TinyLlb.Cadence
import TinyLlb.CadenceHistory
import TinyLlb.Config
import TinyLlb.Flow
import TinyLlb.Gateway.Answers
import TinyLlb.Gateway.Calls
import TinyLlb.Gateway.ContentLength
import TinyLlb.Gateway.FailFast
import TinyLlb.Gateway.FailedAdmissions
import TinyLlb.Gateway.ForwardedBody
import TinyLlb.Gateway.Forwarding
import TinyLlb.Gateway.FrontDoor
import TinyLlb.Gateway.HeaderFilter
import TinyLlb.Gateway.Headers
import TinyLlb.Gateway.KvGate
import TinyLlb.Gateway.KvWaits
import TinyLlb.Gateway.Ledger
import TinyLlb.Gateway.Lifecycle
import TinyLlb.Gateway.NonStreaming
import TinyLlb.Gateway.Overflow
import TinyLlb.Gateway.PrematureStop
import TinyLlb.Gateway.Progress
import TinyLlb.Gateway.StallGate
import TinyLlb.Gateway.Streams
import TinyLlb.Gateway.TransientRetry
import TinyLlb.Gateway.Volume
import TinyLlb.Library.Assoc
import TinyLlb.Library.Champion
import TinyLlb.Library.Cursor
import TinyLlb.Library.Edges
import TinyLlb.Library.Framing
import TinyLlb.Library.Inevitable
import TinyLlb.Library.Json
import TinyLlb.Library.JsonMeaning
import TinyLlb.Library.Machine
import TinyLlb.Library.Needle
import TinyLlb.Library.QueueAccount
import TinyLlb.Library.Retry
import TinyLlb.Library.Server
import TinyLlb.Library.SharedCell
import TinyLlb.Library.Slots
import TinyLlb.Library.Streak
import TinyLlb.Library.Text
import TinyLlb.Library.Unwinding
import TinyLlb.Number
import TinyLlb.PriorityHistory
import TinyLlb.Provenance
import TinyLlb.Runtime.Accounting
import TinyLlb.Runtime.ActiveCounters
import TinyLlb.Runtime.Bypass
import TinyLlb.Runtime.Competition
import TinyLlb.Runtime.CompletionBias
import TinyLlb.Runtime.CreditUpdates
import TinyLlb.Runtime.Debits
import TinyLlb.Runtime.DeficitLaw
import TinyLlb.Runtime.DepthGauge
import TinyLlb.Runtime.Drain
import TinyLlb.Runtime.EffectiveCap
import TinyLlb.Runtime.Fairness
import TinyLlb.Runtime.FlowTable
import TinyLlb.Runtime.InnerLoop
import TinyLlb.Runtime.Links
import TinyLlb.Runtime.Lulls
import TinyLlb.Runtime.Permits
import TinyLlb.Runtime.QueueDepth
import TinyLlb.Runtime.QueueOrder
import TinyLlb.Runtime.Reaper
import TinyLlb.Runtime.ReaperPass
import TinyLlb.Runtime.ReaperSteps
import TinyLlb.Runtime.Reaping
import TinyLlb.Runtime.Requests
import TinyLlb.Runtime.Service
import TinyLlb.Runtime.StarvationLaw
import TinyLlb.Runtime.Steps
import TinyLlb.Runtime.System
import TinyLlb.Runtime.Wakeup
import TinyLlb.Scheduler.Accumulation
import TinyLlb.Scheduler.BiasedSelection
import TinyLlb.Scheduler.Drr
import TinyLlb.Scheduler.Duel
import TinyLlb.Scheduler.PressureCap
import TinyLlb.Scheduler.Priority
import TinyLlb.Scheduler.Representation
import TinyLlb.Scheduler.Rounds
import TinyLlb.Scheduler.Selection
import TinyLlb.SlotAllocator
import TinyLlb.Stream.AttemptView
import TinyLlb.Stream.ChunkSums
import TinyLlb.Stream.Endings
import TinyLlb.Stream.Frames
import TinyLlb.Stream.GivingUp
import TinyLlb.Stream.MetricStream
import TinyLlb.Stream.PassThrough
import TinyLlb.Stream.Reforward
import TinyLlb.Stream.RetryBudgets
import TinyLlb.Stream.RetryStream
import TinyLlb.Stream.RetryTermination
import TinyLlb.Stream.SingleAttempt
import TinyLlb.Stream.Sse
import TinyLlb.Stream.TaskSteps
import TinyLlb.Stream.TokenScan
import TinyLlb.Stream.TransientCauses
import TinyLlb.Stream.UsageCharge
