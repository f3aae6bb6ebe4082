import Oumigo.Auth.Authenticator
import Oumigo.Control.Server
import Oumigo.Foundation.Transition

/-!
# Registrations on a shared auth database

`/register` and `/spec` of `service/manager/control/server.py` as queries: any number of
calls are under way, each at one of its SQL statements, while other processes mint and
revoke on the same file.  A call that is through writes the registry and is answered in
one step, on the manager's event loop.

A call's `trace` and the rows `minted` record what happened; no operation reads them.
-/

namespace Oumigo

/-- A worker-facing call. -/
inductive WorkerCall where
  | register (req : RegisterRequest)
  | spec (profile model : Option String)

/-- What a call that is through is granted: the resolved spec, and for a registration
the profile id to file the worker under. -/
structure Admitted where
  resolved : Option NodeSpec
  profileId : Option String

/-- The program of a call. -/
abbrev CallM := AuthM (Except HttpError Admitted)

namespace WorkerCall

variable (cfg : ControlConfig) (auth : Authenticator)

/-- `_deny` with a node id. -/
def deny (nodeId : NodeId) : CallM := do
  let revoked ← Statement.isNodeRevoked nodeId
  pure (.error (ControlConfig.deny (some nodeId) ⟨false, false, false, revoked⟩))

/-- `/register` up to the registry. -/
def registerProgram (header : Option String) (req : RegisterRequest) : CallM :=
  if req.transport = .tunnel && !cfg.tunnelEnabled then
    pure (.error ⟨400, "this manager does not accept tunnel workers (tunnel.enabled: false)"⟩)
  else do
    let reads ← auth.mayReadSpec header
    if !reads then deny req.nodeId
    else
      match cfg.checkProfile req with
      | .error refusal => pure (.error refusal)
      | .ok (resolved, profileId) => do
          let registers ← auth.mayRegister header req.nodeId
          if !registers then deny req.nodeId
          else pure (.ok ⟨resolved, profileId⟩)

/-- `/spec`. -/
def specProgram (header : Option String) (profile model : Option String) : CallM := do
  let reads ← auth.mayReadSpec header
  if !reads then pure (.error (ControlConfig.deny none ⟨false, false, false, false⟩))
  else pure ((cfg.resolveSpec profile model).map fun resolved => ⟨resolved, none⟩)

def program (header : Option String) : WorkerCall → CallM
  | .register req => registerProgram cfg auth header req
  | .spec profile model => specProgram cfg auth header profile model

end WorkerCall

/-- A call under way. -/
structure CallState where
  call : WorkerCall
  header : Option String
  /-- what is left of its program -/
  rest : CallM
  /-- the statements it made and their answers, newest first -/
  trace : List (Sigma Statement.Answer)
  answered : Bool

/-- The database, the manager's registry and the calls so far. -/
structure RegistrationState where
  db : AuthDb
  reg : Registry
  calls : List CallState
  minted : List JoinTokenRow

/-- One atomic step of the manager or of another process. -/
inductive RegistrationEvent where
  /-- another method of the store, by any process -/
  | write (op : AuthOp)
  | call (call : WorkerCall) (header : Option String)
  /-- the next statement of a call, or its end -/
  | advance (index : Nat) (now : Rat)
  | heartbeat (req : HeartbeatRequest) (now : Rat)
  | reap (now timeout forgetAfter : Rat)
  | remove (nodeId : NodeId)

namespace RegistrationState

variable (cfg : ControlConfig) (auth : Authenticator) (s : RegistrationState)

/-- The registry write of an accepted registration. -/
def file (now : Rat) (call : WorkerCall) (granted : Admitted) : Registry :=
  match call with
  | .register req =>
      s.reg.register now req.nodeId req.address req.state req.incarnation req.capabilities
        req.vllmPort req.model req.backend req.transport granted.profileId
  | .spec _ _ => s.reg

/-- A step of the call at `index`. -/
def advance (index : Nat) (now : Rat) (call : CallState) : RegistrationState :=
  match call.rest with
  | .ask stmt next =>
      let (answer, db) := AuthDb.answer now stmt s.db
      { s with
        db := db
        calls := s.calls.set index
          { call with rest := next answer, trace := ⟨stmt, answer⟩ :: call.trace } }
  | .done outcome =>
      let reg := match outcome with
        | .ok (.ok granted) => s.file now call.call granted
        | _ => s.reg
      { s with reg := reg, calls := s.calls.set index { call with answered := true } }

/-- The rows a method of the store adds. -/
def mints : AuthOp → List JoinTokenRow
  | .createJoinToken id tokenHash label now ttl uses => [.minted id tokenHash label now ttl uses]
  | _ => []

def step : RegistrationEvent → Option RegistrationState
  | .write op =>
      (s.db.apply op).map fun db => { s with db := db, minted := s.minted ++ mints op }
  | .call call header =>
      some { s with
        calls := s.calls ++ [⟨call, header, call.program cfg auth header, [], false⟩] }
  | .advance index now =>
      match s.calls[index]? with
      | none => none
      | some call => if call.answered then none else some (s.advance index now call)
  | .heartbeat req now =>
      some { s with
        reg := (s.reg.heartbeat now req.nodeId req.nodeState req.runState req.vllmPort
          req.maxConcurrentRequests req.tunnelRttMs).1 }
  | .reap now timeout forgetAfter => some { s with reg := s.reg.reap now timeout forgetAfter }
  | .remove nodeId => some { s with reg := (s.reg.remove nodeId).1 }

end RegistrationState

/-- Every interleaving, from a database without join tokens and an empty registry. -/
def registrationSystem (cfg : ControlConfig) (auth : Authenticator) :
    Transition.System RegistrationState RegistrationEvent where
  init s := s.db.joinTokens = [] ∧ s.reg = .empty ∧ s.calls = [] ∧ s.minted = []
  step s e := s.step cfg auth e

end Oumigo
