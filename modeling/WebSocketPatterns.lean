import WebSocketPatterns.Transition.Run
import WebSocketPatterns.Transition.Progress
import WebSocketPatterns.Collections.Dict
import WebSocketPatterns.Collections.Queues
import WebSocketPatterns.Collections.BoundedFifo
import WebSocketPatterns.PubSub.MessageBus
import WebSocketPatterns.PubSub.BusRuns
import WebSocketPatterns.PubSub.Delivery
import WebSocketPatterns.PubSub.Termination
import WebSocketPatterns.Backpressure.SendQueue
import WebSocketPatterns.Backpressure.QueueRuns
import WebSocketPatterns.Backpressure.Refinement
import WebSocketPatterns.Backpressure.DropAccounting
import WebSocketPatterns.Shutdown.CloseAll
import WebSocketPatterns.FaultTolerance.Heartbeat
import WebSocketPatterns.Backpressure.Controller
import WebSocketPatterns.FaultTolerance.DeathCriterion
import WebSocketPatterns.FaultTolerance.PongWindows
import WebSocketPatterns.FaultTolerance.Detector
import WebSocketPatterns.FaultTolerance.SweepRuns
import WebSocketPatterns.FaultTolerance.SweepSafety
import WebSocketPatterns.Shutdown.ConnectionIds
import WebSocketPatterns.Backpressure.Conservation
import WebSocketPatterns.Shutdown.Drain
import WebSocketPatterns.PubSub.LiveSubscriptions
import WebSocketPatterns.PubSub.Isolation
import WebSocketPatterns.PubSub.LagSkipping
import WebSocketPatterns.PubSub.MessageJson
import WebSocketPatterns.Backpressure.HighWater
import WebSocketPatterns.Backpressure.DrainReference
import WebSocketPatterns.FaultTolerance.Reconnect
import WebSocketPatterns.FaultTolerance.SweepExact
import WebSocketPatterns.Backpressure.Fullness
import WebSocketPatterns.Collections.OrderStatistics
import WebSocketPatterns.Benchmarks.Percentile
import WebSocketPatterns.Text.Numeral
import WebSocketPatterns.Text.StringLiteral
import WebSocketPatterns.PubSub.JsonText
import WebSocketPatterns.PubSub.WireFormat
import WebSocketPatterns.Backpressure.GlobalStats
import WebSocketPatterns.Dashboard.Simulation
import WebSocketPatterns.Dashboard.DashboardRuns
import WebSocketPatterns.ShutdownDemo.EchoHandlers
import WebSocketPatterns.ShutdownDemo.DemoRuns
import WebSocketPatterns.Benchmarks.Broadcast
import WebSocketPatterns.Benchmarks.BroadcastRuns
import WebSocketPatterns.Shutdown.Lifespan
import WebSocketPatterns.Backpressure.Quiescence
import WebSocketPatterns.FaultTolerance.HeartbeatSession
import WebSocketPatterns.FaultTolerance.PingSchedule
import WebSocketPatterns.PubSub.Accounting
import WebSocketPatterns.PubSub.DefaultPublishes
import WebSocketPatterns.Backpressure.LagWarning
import WebSocketPatterns.Backpressure.DrainSequence
import WebSocketPatterns.Backpressure.CancelledDrains
import WebSocketPatterns.FaultTolerance.SweepSchedule
