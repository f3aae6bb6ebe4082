import Mathlib.Logic.Function.Basic
import Oumigo.Foundation.Asyncio
import Oumigo.Foundation.Deque
import Oumigo.Foundation.Transition
import Oumigo.Protocol

/-!
# Parked tunnel connections and the waiters for them

`TunnelRegistry` of `service/manager/tunnel.py`, run by any number of `acquire`
callers on the manager's event loop.  A section of the source between two awaits
is one function here; `TunnelEvent` lists the sections, and what the outside does
(a connection closes, a waiting caller times out or is cancelled).

A `TunnelConn` object is an index into `conns`, an `acquire` call an index into
`calls` and at the same time the future it waits for.  The three `defaultdict`s
are total functions: an absent key reads as the empty deque or set, and dropping
a key empties it.  `handed` records every connection given out, for statements
about the whole life of a connection; no operation reads it.
-/

namespace Oumigo

abbrev ConnId := Nat

abbrev CallId := Nat

/-- What the registry reads of a `TunnelConn`. -/
structure TunnelConn where
  nodeId : NodeId
  closed : Bool := false
  borrowed : Bool := false
  deriving DecidableEq, Repr

/-- `TunnelRegistry`, with the connection objects it refers to. -/
structure TunnelRegistry where
  conns : List TunnelConn
  idle : NodeId → List ConnId
  all : NodeId → List ConnId
  waiters : NodeId → List CallId

/-- One `acquire` call: the node it asked for, and how far it is. -/
structure TunnelCall where
  nodeId : NodeId
  call : Asyncio.Call ConnId
  deriving DecidableEq, Repr

/-- The registry and everyone who called `acquire`. -/
structure TunnelState where
  reg : TunnelRegistry
  calls : List TunnelCall
  handed : List (CallId × ConnId)

namespace TunnelRegistry

/-- `TunnelRegistry()`. -/
def empty : TunnelRegistry := ⟨[], fun _ => [], fun _ => [], fun _ => []⟩

/-- `conn.closed.is_set()`; an index without an object counts as closed. -/
def isClosed (reg : TunnelRegistry) (c : ConnId) : Bool :=
  match reg.conns[c]? with
  | some conn => conn.closed
  | none => true

/-- `TunnelRegistry.connected`. -/
def connected (reg : TunnelRegistry) (nodeId : NodeId) : Nat :=
  (reg.all nodeId).countP fun c => !reg.isClosed c

/-- `conn.borrowed = True`. -/
def borrow (reg : TunnelRegistry) (c : ConnId) : TunnelRegistry :=
  { reg with conns := reg.conns.modify c fun conn => { conn with borrowed := true } }

/-- `conn.closed.set()`. -/
def close (reg : TunnelRegistry) (c : ConnId) : TunnelRegistry :=
  { reg with conns := reg.conns.modify c fun conn => { conn with closed := true } }

theorem getElem?_borrow {reg : TunnelRegistry} {c d : ConnId} :
    (reg.borrow c).conns[d]? =
      (reg.conns[d]?).map fun conn => if c = d then { conn with borrowed := true } else conn :=
  List.getElem?_modify ..

theorem getElem?_close {reg : TunnelRegistry} {c d : ConnId} :
    (reg.close c).conns[d]? =
      (reg.conns[d]?).map fun conn => if c = d then { conn with closed := true } else conn :=
  List.getElem?_modify ..

theorem isClosed_eq_false {reg : TunnelRegistry} {c : ConnId} :
    reg.isClosed c = false ↔ ∃ conn, reg.conns[c]? = some conn ∧ conn.closed = false := by
  unfold isClosed
  cases reg.conns[c]? <;> simp

@[simp] theorem isClosed_borrow {reg : TunnelRegistry} {c d : ConnId} :
    (reg.borrow c).isClosed d = reg.isClosed d := by
  unfold isClosed
  rw [getElem?_borrow]
  cases reg.conns[d]? with
  | none => rfl
  | some conn =>
    simp only [Option.map_some]
    split <;> rfl

theorem isClosed_concat {reg : TunnelRegistry} {x old : TunnelConn} {c : ConnId}
    {idle all : NodeId → List ConnId} {waiters : NodeId → List CallId}
    (found : reg.conns[c]? = some old)
    (isOpen : isClosed ⟨reg.conns ++ [x], idle, all, waiters⟩ c = false) :
    reg.isClosed c = false := by
  obtain ⟨conn, after, notClosed⟩ := isClosed_eq_false.mp isOpen
  cases (Deque.getElem?_append_of_some found).symm.trans after
  exact isClosed_eq_false.mpr ⟨old, found, notClosed⟩

theorem isClosed_of_close {reg : TunnelRegistry} {c d : ConnId}
    (isOpen : (reg.close c).isClosed d = false) : reg.isClosed d = false := by
  obtain ⟨conn, after, notClosed⟩ := isClosed_eq_false.mp isOpen
  rw [getElem?_close] at after
  obtain ⟨old, found, rfl⟩ := Option.map_eq_some_iff.mp after
  split at notClosed
  · cases notClosed
  · exact isClosed_eq_false.mpr ⟨old, found, notClosed⟩

/-- `TunnelRegistry.remove`. -/
def remove (reg : TunnelRegistry) (c : ConnId) (nodeId : NodeId) : TunnelRegistry :=
  let all := (reg.all nodeId).erase c
  let idle := (reg.idle nodeId).erase c
  { reg with
    all := Function.update reg.all nodeId all
    -- the node's last connection takes the node's two entries with it
    idle := Function.update reg.idle nodeId (if all = [] then [] else idle) }

end TunnelRegistry

namespace TunnelState

/-- Nobody has called anything yet. -/
def initial : TunnelState := ⟨.empty, [], []⟩

/-- `fut.done()` of a queued call. -/
def futureDone (calls : List TunnelCall) (f : CallId) : Bool :=
  match calls[f]? with
  | some c => !c.call.pending
  | none => true

/-- Put `call` in the place of call `f`. -/
def setCall (s : TunnelState) (f : CallId) (call : Asyncio.Call ConnId) : TunnelState :=
  { s with calls := s.calls.modify f fun c => { c with call := call } }

theorem getElem?_setCall {s : TunnelState} {f g : CallId} {call : Asyncio.Call ConnId} :
    (s.setCall f call).calls[g]? =
      (s.calls[g]?).map fun c => if f = g then { c with call := call } else c :=
  List.getElem?_modify ..

@[simp] theorem setCall_reg {s : TunnelState} {f : CallId} {call : Asyncio.Call ConnId} :
    (s.setCall f call).reg = s.reg := rfl

@[simp] theorem setCall_handed {s : TunnelState} {f : CallId} {call : Asyncio.Call ConnId} :
    (s.setCall f call).handed = s.handed := rfl

/-- `TunnelRegistry.add` of a connection the endpoint has just accepted. -/
def add (s : TunnelState) (nodeId : NodeId) : TunnelState :=
  let conn := s.reg.conns.length
  let reg : TunnelRegistry :=
    { s.reg with
      conns := s.reg.conns ++ [{ nodeId := nodeId }]
      all := Function.update s.reg.all nodeId (s.reg.all nodeId ++ [conn]) }
  match Deque.popUntil (fun f => !futureDone s.calls f) (s.reg.waiters nodeId) with
  | (some f, rest) =>
      let reg := { reg with waiters := Function.update s.reg.waiters nodeId rest }
      let given : TunnelState :=
        { s with reg := reg.borrow conn, handed := s.handed ++ [(f, conn)] }
      given.setCall f (.suspended (.resolved conn))
  | (none, rest) =>
      { s with reg :=
        { reg with
          waiters := Function.update s.reg.waiters nodeId rest
          idle := Function.update s.reg.idle nodeId (s.reg.idle nodeId ++ [conn]) } }

/-- `TunnelRegistry.acquire` up to its `await`. -/
def acquire (s : TunnelState) (nodeId : NodeId) : TunnelState :=
  let f := s.calls.length
  match Deque.popUntil (fun c => !s.reg.isClosed c) (s.reg.idle nodeId) with
  | (some conn, rest) =>
      let reg := { s.reg with idle := Function.update s.reg.idle nodeId rest }
      { reg := reg.borrow conn
        calls := s.calls ++ [⟨nodeId, .returned conn⟩]
        handed := s.handed ++ [(f, conn)] }
  | (none, rest) =>
      { s with
        reg :=
          { s.reg with
            idle := Function.update s.reg.idle nodeId rest
            waiters := Function.update s.reg.waiters nodeId (s.reg.waiters nodeId ++ [f]) }
        calls := s.calls ++ [⟨nodeId, .suspended .pending⟩] }

/-- The `finally` of `acquire`: leave the node's queue. -/
def leave (s : TunnelState) (nodeId : NodeId) (f : CallId) : TunnelState :=
  { s with reg :=
    { s.reg with
      waiters := Function.update s.reg.waiters nodeId ((s.reg.waiters nodeId).erase f) } }

/-- `TunnelRegistry.acquire` after its `await`: leave the queue, then return the
connection or raise (a timeout as `httpcore.ConnectTimeout`).  Defined when the
caller can run. -/
def resume (s : TunnelState) (f : CallId) : Option TunnelState :=
  match s.calls[f]? with
  | some ⟨nodeId, .suspended w⟩ =>
      match w.resume with
      | some (.ok conn) => some ((s.leave nodeId f).setCall f (.returned conn))
      | some (.error _) => some ((s.leave nodeId f).setCall f .ended)
      | none => none
  | _ => none

/-- A timeout or a cancellation reaches a suspended caller. -/
def interrupt (s : TunnelState) (f : CallId) (cause : Asyncio.Interrupt) :
    Option TunnelState :=
  match s.calls[f]? with
  | some ⟨_, .suspended w⟩ => some (s.setCall f (.suspended (w.interrupt cause)))
  | _ => none

end TunnelState

/-- One atomic step of the tunnel registry's world. -/
inductive TunnelEvent where
  | add (nodeId : NodeId)
  | remove (conn : ConnId)
  | acquire (nodeId : NodeId)
  | resume (f : CallId)
  | interrupt (f : CallId) (cause : Asyncio.Interrupt)
  | close (conn : ConnId)
  deriving DecidableEq, Repr

namespace TunnelState

def step (s : TunnelState) : TunnelEvent → Option TunnelState
  | .add nodeId => some (s.add nodeId)
  | .remove c => (s.reg.conns[c]?).map fun conn => { s with reg := s.reg.remove c conn.nodeId }
  | .acquire nodeId => some (s.acquire nodeId)
  | .resume f => s.resume f
  | .interrupt f cause => s.interrupt f cause
  | .close c => (s.reg.conns[c]?).map fun _ => { s with reg := s.reg.close c }

end TunnelState

/-- Every interleaving of the sections, from an empty registry. -/
def tunnelSystem : Transition.System TunnelState TunnelEvent where
  init s := s = .initial
  step := TunnelState.step

end Oumigo
