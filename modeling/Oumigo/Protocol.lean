import Mathlib.Tactic.Common

/-!
# Wire vocabulary shared by workers and the manager

The enumerations of `protocol/states.py` and `protocol/messages.py`, and the
Python idioms their readers use on optional strings.
-/

namespace Oumigo

/-- `node_id`: `sha256("oumigo:<host_id>:<vllm_port>")[:16]`, opaque here. -/
abbrev NodeId := String

/-- `NodeState`: the coarse lifecycle state the manager schedules against. -/
inductive NodeState where
  | registering
  | initializing
  | serving
  | draining
  | stopped
  | failed
  | lost
  deriving DecidableEq, Repr

/-- `RunState`: backend activity, while SERVING or DRAINING. -/
inductive RunState where
  | idle
  | executing
  deriving DecidableEq, Repr

/-- `Transport`: how the router reaches a worker's backend. -/
inductive Transport where
  | direct
  | tunnel
  deriving DecidableEq, Repr

/-- The `backend` a worker reports.  The request field is a free string; the
worker only ever sends the two names of `BACKENDS`. -/
inductive Backend where
  | vllm
  | transformer
  | other (name : String)
  deriving DecidableEq, Repr

/-- `NodeCapabilities`. -/
structure NodeCapabilities where
  gpu : Option String
  vramGb : Option Rat
  deriving DecidableEq, Repr

/-- Truth value of an optional string: `None` and `""` are false. -/
def truthy : Option String → Bool
  | none => false
  | some s => s ≠ ""

/-- Python's `a or b` on optional strings. -/
def pyOr (a b : Option String) : Option String := if truthy a then a else b

end Oumigo
