import Oumigo.Config

/-!
# Control-plane messages

`protocol/messages.py`: what a worker sends to register and to report that it is
alive, and what the manager answers.
-/

namespace Oumigo

/-- `RegisterRequest`. -/
structure RegisterRequest where
  nodeId : NodeId
  address : String
  transport : Transport := .direct
  vllmPort : Option Nat := none
  model : Option String := none
  profile : Option String := none
  backend : Option Backend := none
  incarnation : Int := 0
  state : NodeState := .registering
  capabilities : NodeCapabilities := ⟨none, none⟩
  deriving DecidableEq, Repr

/-- `RegisterResponse`. -/
structure RegisterResponse where
  accepted : Bool
  nodeId : NodeId
  heartbeatIntervalS : Nat
  nodeSpec : Option NodeSpec
  nodeToken : Option String
  vllmApiKey : Option String
  tunnelPoolSize : Option Nat

/-- `HeartbeatRequest`. -/
structure HeartbeatRequest where
  nodeId : NodeId
  nodeState : NodeState
  runState : Option RunState := none
  vllmPort : Option Nat := none
  maxConcurrentRequests : Option Nat := none
  tunnelRttMs : Option Rat := none
  deriving DecidableEq, Repr

/-- `HeartbeatResponse` without its `command`, which no code sets yet. -/
structure HeartbeatResponse where
  ok : Bool
  known : Bool
  tunnelPoolSize : Option Nat
  deriving DecidableEq, Repr

/-- An `HTTPException`, or its reply. -/
structure HttpError where
  status : Nat
  detail : String
  deriving DecidableEq, Repr

end Oumigo
