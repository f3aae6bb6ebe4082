import Oumigo.Messages

/-!
# What a worker process sends

The messages of `WorkerCoordinator` (`service/worker/coordinator.py`): one register
request, fixed for the life of the process and resent when the manager does not
know the node, and heartbeats that report the state, the port and the cap of the
backend it runs.
-/

namespace Oumigo

/-- `WorkerCoordinator`, with what `run_worker` resolved before it was built. -/
structure Coordinator where
  nodeId : NodeId
  address : String
  transport : Transport
  vllmPort : Nat
  model : String
  profile : Option String
  backend : Backend
  incarnation : Int
  capabilities : NodeCapabilities
  deriving DecidableEq, Repr

namespace Coordinator

/-- `register_req`. -/
def registerRequest (c : Coordinator) : RegisterRequest where
  nodeId := c.nodeId
  address := c.address
  transport := c.transport
  vllmPort := some c.vllmPort
  model := some c.model
  profile := c.profile
  backend := some c.backend
  incarnation := c.incarnation
  state := .registering
  capabilities := c.capabilities

/-- `report_max_concurrent`: only the transformer backend, which does not batch,
reports a cap. -/
def reportMaxConcurrent (c : Coordinator) : Option Nat :=
  if c.backend = .transformer then some 1 else none

/-- The request of `_send_heartbeat`. -/
def heartbeatRequest (c : Coordinator) (nodeState : NodeState) (runState : Option RunState)
    (vllmPort : Option Nat) (tunnelRttMs : Option Rat) : HeartbeatRequest where
  nodeId := c.nodeId
  nodeState := nodeState
  runState := runState
  vllmPort := vllmPort
  maxConcurrentRequests := c.reportMaxConcurrent
  tunnelRttMs := tunnelRttMs

end Coordinator

end Oumigo
