import Oumigo.Foundation.Transition
import Oumigo.Foundation.Asyncio
import Oumigo.Foundation.Semaphore
import Oumigo.Foundation.Deque
import Oumigo.Foundation.Dict
import Oumigo.Foundation.Python
import Oumigo.Config
import Oumigo.Registry
import Oumigo.Messages
import Oumigo.Control.Server
import Oumigo.Worker.Coordinator
import Oumigo.Worker.Lifecycle
import Oumigo.Worker.States
import Oumigo.Worker.Ports
import Oumigo.Metrics.Reporting
import Oumigo.Metrics.Overflow
import Oumigo.Metrics.Table
import Oumigo.Metrics.Retained
import Oumigo.Auth.Authorization
import Oumigo.Auth.Spending
import Oumigo.Tunnel.Registry
import Oumigo.Tunnel.Handover
import Oumigo.Tunnel.Exclusive
import Oumigo.Tunnel.Delivery
import Oumigo.Tunnel.Passes
import Oumigo.Tunnel.Stream
import Oumigo.Tunnel.Relay
import Oumigo.Tunnel.Shutdown
import Oumigo.Tunnel.Settling
import Oumigo.Router.Pool
import Oumigo.Router.Promotion
import Oumigo.Router.Accounting
import Oumigo.Router.Admission
import Oumigo.Router.Fairness
import Oumigo.Router.Forward
import Oumigo.Router.Release
import Oumigo.Router.Capacity
import Oumigo.Agent.Chat
import Oumigo.Agent.Course
import Oumigo.Agent.Memory
import Oumigo.Agent.Screening
import Oumigo.Agent.Answers
import Oumigo.Agent.Parity
import Oumigo.Agent.Gating
import Oumigo.Agent.Timing
import Oumigo.Agent.Rehydration
import Oumigo.Agent.Expiry
import Oumigo.Agent.Recovery
import Oumigo.Agent.Endings
import Oumigo.Agent.Served
import Oumigo.Agent.Documented
import Oumigo.Agent.Declaration
import Oumigo.Agent.Advertised
import Oumigo.Auth.Credentials
import Oumigo.Control.History
import Oumigo.Metrics.VllmStats
import Oumigo.Metrics.Flattening
import Oumigo.Metrics.Collector
import Oumigo.Metrics.Mirror
import Oumigo.Worker.Identity
import Oumigo.Worker.HFServer
import Oumigo.Worker.InFlight
import Oumigo.Worker.Streaming
import Oumigo.Router.Transparency
import Oumigo.Router.Selection
import Oumigo.Router.Routing
import Oumigo.Router.Decision
import Oumigo.Router.ModelSlots
import Oumigo.Router.ModelView
import Oumigo.Router.ModelSteps
import Oumigo.Router.Isolation
import Oumigo.Router.Trimming
import Oumigo.Router.Billing
import Oumigo.Router.Reply
import Oumigo.Auth.Throttle
import Oumigo.Auth.Attempts
import Oumigo.Metrics.Rate
import Oumigo.Metrics.Histogram
