import Oumigo.Auth.Registration
import Oumigo.Tunnel.Registry

/-!
# Revocation cuts tunnels

`_revocation_loop` and the `/tunnel` endpoint of `service/manager/control/server.py`,
with `TunnelRegistry.close_node`, on the manager's event loop: what runs between two
awaits is one step.  The other endpoints are `RegistrationState`; their SQL statements
interleave with other processes, but no other section of the manager runs before the
call in progress is answered.

`passes` counts the completed passes of the loop; no operation reads it.
-/

namespace Oumigo

/-- A `/tunnel` call. -/
inductive Handshake where
  /-- suspended in `ws.accept()` -/
  | accepting (nodeId : NodeId)
  /-- suspended in `conn.pump()` -/
  | pumping (conn : ConnId)
  | finished
  deriving DecidableEq, Repr

/-- How far the loop is. -/
inductive RevocationLoop where
  | sleeping
  /-- suspended in the `ws.close()` of a connection of a revoked node, with the node's
  later connections and the later records of the pass -/
  | closing (revoked : List NodeId) (records : List NodeRecord) (conns : List ConnId)
  /-- an exception other than a cancellation ended it -/
  | ended
  deriving DecidableEq, Repr

/-- The manager with its tunnels. -/
structure RevocationState where
  fleet : RegistrationState
  tunnels : TunnelState
  handshakes : List Handshake
  loop : RevocationLoop
  passes : Nat

inductive RevocationEvent where
  /-- the other endpoints and the reaper, and other processes -/
  | fleet (e : RegistrationEvent)
  /-- `/tunnel` up to its first `await`; `welcome` is what the allowlist and the limiter
  say of the source -/
  | tunnel (header : Option String) (now : Rat) (welcome : Bool)
  /-- `ws.accept()` returns -/
  | accepted (index : Nat)
  /-- `ws.accept()` raises -/
  | rejected (index : Nat)
  /-- `pump` has read the end of the connection -/
  | hangUp (index : Nat)
  /-- the router's `acquire` calls, and a close from either side -/
  | router (e : TunnelEvent)
  /-- the loop's `sleep` is over -/
  | pass
  /-- its `ws.close()` returns, or raises `RuntimeError` -/
  | closed
  /-- its `ws.close()` raises another exception -/
  | closeFailed

/-- `TunnelConn.close` of the next open connection: the connections after it, or none
when all are closed. -/
def TunnelState.closeNext (t : TunnelState) : List ConnId → TunnelState × Option (List ConnId)
  | [] => (t, none)
  | c :: conns =>
      if t.reg.isClosed c then t.closeNext conns else ({ t with reg := t.reg.close c }, some conns)

/-- A pass from `records` on, up to its next suspension. -/
def RevocationLoop.visit (revoked : List NodeId) (reg : Registry) (tunnels : TunnelState) :
    List NodeRecord → Registry × TunnelState × RevocationLoop
  | [] => (reg, tunnels, .sleeping)
  | record :: records =>
      if record.nodeId ∈ revoked then
        let reg := (reg.remove record.nodeId).1
        match tunnels.closeNext (tunnels.reg.all record.nodeId) with
        | (tunnels, none) => visit revoked reg tunnels records
        | (tunnels, some conns) => (reg, tunnels, .closing revoked records conns)
      else visit revoked reg tunnels records

namespace RevocationState

variable (cfg : ControlConfig) (auth : Authenticator) (s : RevocationState)

/-- No section of the manager is at a SQL statement. -/
def free : Bool := s.fleet.calls.all (·.answered)

/-- The checks of `/tunnel`: the node whose connection is accepted. -/
def mayTunnel (header : Option String) (now : Rat) : Option NodeId :=
  match ((auth.tunnelNode header).exec (AuthDb.answer now) s.fleet.db).1 with
  | .ok (some nodeId) =>
      match s.fleet.reg.get nodeId with
      | some record =>
          if cfg.tunnelEnabled && record.transport = .tunnel then some nodeId else none
      | none => none
  | _ => none

/-- The loop has come to its next suspension. -/
def settle (r : Registry × TunnelState × RevocationLoop) : RevocationState :=
  { s with
    fleet := { s.fleet with reg := r.1 }
    tunnels := r.2.1
    loop := r.2.2
    passes := if r.2.2 = .sleeping then s.passes + 1 else s.passes }

/-- Whether an event is a step of the manager's event loop that begins a section. -/
def begins : RevocationEvent → Bool
  | .fleet (.write _) | .fleet (.advance _ _) => false
  | _ => true

/-- A step that may be taken. -/
def act : RevocationEvent → Option RevocationState
  -- only the loop removes a node
  | .fleet (.remove _) => none
  | .fleet e => (s.fleet.step cfg auth e).map fun fleet => { s with fleet := fleet }
  | .tunnel header now welcome =>
      let handshake := match s.mayTunnel cfg auth header now with
        | some nodeId => if welcome then .accepting nodeId else .finished
        | none => .finished
      some { s with handshakes := s.handshakes ++ [handshake] }
  | .accepted index =>
      match s.handshakes[index]? with
      | some (.accepting nodeId) =>
          some { s with
            tunnels := s.tunnels.add nodeId
            handshakes := s.handshakes.set index (.pumping s.tunnels.reg.conns.length) }
      | _ => none
  | .rejected index =>
      match s.handshakes[index]? with
      | some (.accepting _) => some { s with handshakes := s.handshakes.set index .finished }
      | _ => none
  | .hangUp index =>
      match s.handshakes[index]? with
      | some (.pumping conn) =>
          match s.tunnels.reg.conns[conn]? with
          | some c =>
              some { s with
                tunnels :=
                  { s.tunnels with reg := (s.tunnels.reg.close conn).remove conn c.nodeId }
                handshakes := s.handshakes.set index .finished }
          | none => none
      | _ => none
  | .router (.add _) | .router (.remove _) => none
  | .router e => (s.tunnels.step e).map fun tunnels => { s with tunnels := tunnels }
  | .pass =>
      match s.loop with
      | .sleeping =>
          some (s.settle
            (RevocationLoop.visit s.fleet.db.revoked s.fleet.reg s.tunnels s.fleet.reg.list))
      | _ => none
  | .closed =>
      match s.loop with
      | .closing revoked records conns =>
          match s.tunnels.closeNext conns with
          | (tunnels, none) =>
              some (s.settle (RevocationLoop.visit revoked s.fleet.reg tunnels records))
          | (tunnels, some conns) =>
              some { s with tunnels := tunnels, loop := .closing revoked records conns }
      | _ => none
  | .closeFailed =>
      match s.loop with
      | .closing _ _ _ => some { s with loop := .ended }
      | _ => none

def step (e : RevocationEvent) : Option RevocationState :=
  if begins e && !s.free then none else s.act cfg auth e

/-- The open connections of a node. -/
def connected (nodeId : NodeId) : Nat := s.tunnels.reg.connected nodeId

end RevocationState

/-- Every interleaving, from a manager that just started. -/
def revocationSystem (cfg : ControlConfig) (auth : Authenticator) :
    Transition.System RevocationState RevocationEvent where
  init s := (registrationSystem cfg auth).init s.fleet ∧ s.tunnels = .initial ∧
    s.handshakes = [] ∧ s.loop = .sleeping ∧ s.passes = 0
  step s e := s.step cfg auth e

end Oumigo
