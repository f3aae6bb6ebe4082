import Oumigo.Foundation.Transition
import Oumigo.Worker.Coordinator

/-!
# The worker's main loop

`WorkerCoordinator.run` of `service/worker/coordinator.py` with the backend process it
supervises (`service/worker/supervisor.py`).  The state says where the main thread
stands: in one of the two interruptible waits, or before a call whose answer is not its
own.  What lies between two such points is one step.  Signals arrive at any point and
only set events; the backend ends at any point; and the process may die at any point,
which stands for `SystemExit`, an exception nobody catches, and SIGKILL.

Times do not matter here: a wait ends, a deadline passes, whenever its event says so.
`starts`, `exits`, `noPort` and `reports` record what happened; no operation reads them.
-/

namespace Oumigo

/-- `WorkerCommand`. -/
inductive WorkerCommand where
  | stop
  deriving DecidableEq, Repr

/-- `HeartbeatResponse` as the worker reads it. -/
structure HeartbeatAck extends HeartbeatResponse where
  command : Option WorkerCommand
  deriving DecidableEq, Repr

/-- How a call to the manager ends. -/
inductive Reply (α : Type) where
  | ok (response : α)
  /-- `httpx.HTTPStatusError` -/
  | status (code : Nat)
  /-- any other exception -/
  | failed

/-- `WorkerCoordinator.__init__`, for what decides its course. -/
structure WorkerSettings extends Coordinator where
  joinToken : Option String
  maxRestarts : Nat
  metricsEnabled : Bool
  deriving DecidableEq, Repr

/-- `_ServerProcess`: the port it was launched on, and whether the child still runs. -/
structure ServerProcess where
  port : Nat
  running : Bool
  deriving DecidableEq, Repr

/-- `TunnelClient`, with what the coordinator sets. -/
structure TunnelClient where
  backendPort : Nat
  poolSize : Nat
  deriving DecidableEq, Repr

/-- `TunnelClient.set_pool_size`. -/
def TunnelClient.setPoolSize (tunnel : TunnelClient) (size : Option Nat) : TunnelClient :=
  match size with
  | none => tunnel
  | some size => { tunnel with poolSize := max 1 size }

/-- `MetricsCollector`, with what the coordinator sets: `vllm_url` as its port. -/
structure MetricsCollector where
  token : Option String
  vllmPort : Option Nat
  deriving DecidableEq, Repr

/-- A node state, with the restarts before it and whether a stop was requested. -/
structure Phase where
  nodeState : NodeState
  restarts : Nat
  stop : Bool
  deriving DecidableEq, Repr

/-- A heartbeat, and the phase it was sent in. -/
structure WorkerReport where
  request : HeartbeatRequest
  phase : Phase
  deriving DecidableEq, Repr

/-- Where the main thread stands. -/
inductive WorkerPc where
  /-- before `_register` -/
  | registering
  /-- in `_stop.wait(interval)` -/
  | waiting
  /-- in `_stop.wait(backoff)` -/
  | backoff
  /-- before the heartbeat of `_loop` -/
  | reporting
  /-- before the first `client.register` of `_reregister` -/
  | reregistering
  /-- before the second -/
  | rejoining
  /-- before `_drain_and_stop` -/
  | stopping
  /-- at the head of its loop -/
  | draining
  /-- before its last heartbeat -/
  | lastReport
  | exited
  deriving DecidableEq, Repr

/-- The coordinator, its backend process, and what they did. -/
structure WorkerState where
  pc : WorkerPc
  nodeState : NodeState
  runState : Option RunState
  vllmPort : Nat
  token : Option String
  /-- `os.environ["VLLM_API_KEY"]` -/
  apiKey : Option String
  supervisor : Option ServerProcess
  tunnel : Option TunnelClient
  metrics : Option MetricsCollector
  restarts : Nat
  stop : Bool
  force : Bool
  /-- how often a backend was started -/
  starts : Nat
  /-- how often one ended -/
  exits : Nat
  /-- no port was free for a restart -/
  noPort : Bool
  /-- the heartbeats sent, newest first -/
  reports : List WorkerReport
  deriving DecidableEq, Repr

/-- One step, with the answers it gets. -/
inductive WorkerEvent where
  /-- `run` up to `_loop` -/
  | register (reply : Reply RegisterResponse)
  /-- the tick's wait times out, and `_reconcile` runs, up to a backoff -/
  | tick (healthy : Bool) (observed : RunState)
  /-- the tick's wait sees the stop -/
  | wake
  /-- the backoff ends; `taken` are the ports in use -/
  | restart (taken : Nat → Bool)
  /-- a heartbeat is sent and answered -/
  | heartbeat (rtt : Option Rat) (reply : Reply HeartbeatAck)
  /-- a registration of `_reregister` is sent and answered -/
  | reregister (reply : Reply RegisterResponse)
  /-- `_drain_and_stop` up to its loop -/
  | drain
  /-- one round of that loop -/
  | poll (expired : Bool) (observed : RunState) (rtt : Option Rat) (reply : Reply HeartbeatAck)
  /-- SIGINT or SIGTERM -/
  | signal
  /-- the backend process ends -/
  | exit
  /-- the coordinator's process ends -/
  | die

/-- `find_free_port`; `none` is `PortUnavailable`. -/
def findFreePort (taken : Nat → Bool) (preferred : Nat) : Option Nat :=
  (List.range' preferred 64).find? fun port => !taken port

namespace WorkerState

variable (c : WorkerSettings) (s : WorkerState)

/-- `__init__`, with the API key the environment has. -/
def initial (apiKey : Option String) : WorkerState where
  pc := .registering
  nodeState := .registering
  runState := none
  vllmPort := c.vllmPort
  token := c.joinToken
  apiKey := apiKey
  supervisor := none
  tunnel := none
  metrics := none
  restarts := 0
  stop := false
  force := false
  starts := 0
  exits := 0
  noPort := false
  reports := []

def phase : Phase := ⟨s.nodeState, s.restarts, s.stop⟩

/-- A backend process runs. -/
def running : Bool := s.supervisor.any (·.running)

/-- `self.supervisor = self._make_process(spec, port); self.supervisor.start()`. -/
def launch (port : Nat) : WorkerState :=
  { s with supervisor := some ⟨port, true⟩, starts := s.starts + 1 }

/-- The child of the supervised process ends. -/
def childExit : WorkerState :=
  if s.running then
    { s with
      supervisor := s.supervisor.map fun process => { process with running := false }
      exits := s.exits + 1 }
  else s

/-! ## Steps of the source -/

/-- `_start_tunnel`; `none` is `SystemExit`. -/
def startTunnel (response : RegisterResponse) : Option WorkerState :=
  match response.vllmApiKey, response.tunnelPoolSize with
  | some key, some size =>
      if key = "" ∨ size = 0 then none
      else some { s with apiKey := some key, tunnel := some ⟨s.vllmPort, max 1 size⟩ }
  | _, _ => none

/-- `_start_vllm`; its port is selected before the coordinator is built. -/
def startVllm : WorkerState := { s with nodeState := .initializing }.launch s.vllmPort

/-- `_start_metrics`. -/
def startMetrics : WorkerState :=
  if c.metricsEnabled then
    { s with metrics := some ⟨s.token, if s.vllmPort = 0 then none else some s.vllmPort⟩ }
  else s

/-- `run` up to `_loop`, when the manager answers `reply`. -/
def start (reply : Reply RegisterResponse) : WorkerState :=
  match reply with
  | .ok response =>
      let s := { s with token := pyOr response.nodeToken s.token }
      let tunnelled := match c.transport with
        | .tunnel => s.startTunnel response
        | .direct => some s
      match tunnelled with
      | some s => { s.startVllm.startMetrics c with pc := .waiting }
      | none => { s with pc := .exited }
  | _ => { s with pc := .exited }

/-- What `run` does when `_loop` returned. -/
def leave : WorkerState :=
  if s.nodeState = .failed then { s with pc := .exited, metrics := none }
  else { s with pc := .stopping }

/-- `_handle_crash` up to its wait. -/
def handleCrash : WorkerState :=
  let s := { s with runState := none }
  if c.maxRestarts ≤ s.restarts then { s with nodeState := .failed, pc := .reporting }
  else { s with restarts := s.restarts + 1, nodeState := .initializing, pc := .backoff }

/-- `_reconcile` while the child runs. -/
def observe (healthy : Bool) (observed : RunState) : WorkerState :=
  let nodeState := if s.nodeState = .initializing ∧ healthy then .serving else s.nodeState
  { s with
    nodeState := nodeState
    runState := if nodeState = .serving then some observed else s.runState
    pc := .reporting }

/-- `_reconcile`; `healthy` and `observed` are what `is_healthy` and `run_state` answer. -/
def reconcile (healthy : Bool) (observed : RunState) : WorkerState :=
  match s.supervisor with
  | none => { s with pc := .reporting }
  | some process => if process.running then s.observe healthy observed else s.handleCrash c

/-- `_select_port`. -/
def selectPort (taken : Nat → Bool) : WorkerState × Option Nat :=
  match findFreePort taken s.vllmPort with
  | none => ({ s with nodeState := .failed, noPort := true }, none)
  | some port => ({ s with vllmPort := port }, some port)

/-- `_handle_crash` after its wait. -/
def restart (taken : Nat → Bool) : WorkerState :=
  if s.stop then { s with pc := .reporting }
  else
    match s.selectPort taken with
    | (s, none) => { s with pc := .reporting }
    | (s, some port) =>
        let tunnel := s.tunnel.map fun tunnel => { tunnel with backendPort := port }
        { { s with tunnel := tunnel }.launch port with pc := .reporting }

/-- The request of `_send_heartbeat`. -/
def request (rtt : Option Rat) : HeartbeatRequest :=
  c.heartbeatRequest s.nodeState s.runState (some s.vllmPort) (s.tunnel.bind fun _ => rtt)

/-- `_send_heartbeat`. -/
def sendHeartbeat (rtt : Option Rat) (reply : Reply HeartbeatAck) :
    WorkerState × Option HeartbeatAck :=
  let s := { s with reports := ⟨s.request c rtt, s.phase⟩ :: s.reports }
  match reply with
  | .ok ack => (s, some ack)
  | .status code => (if code = 403 then { s with stop := true } else s, none)
  | .failed => (s, none)

/-- A round of `_loop` from its heartbeat on. -/
def loopHeartbeat (rtt : Option Rat) (reply : Reply HeartbeatAck) : WorkerState :=
  let (s, response) := s.sendHeartbeat c rtt reply
  if s.nodeState = .failed then s.leave
  else
    match response with
    | none => { s with pc := .waiting }
    | some ack =>
        let s := { s with tunnel := s.tunnel.map (TunnelClient.setPoolSize · ack.tunnelPoolSize) }
        if !ack.known then { s with pc := .reregistering }
        else
          match ack.command with
          | some .stop => { s with stop := true }.leave
          | none => { s with pc := .waiting }

/-- `_adopt_token`, for a token that is there. -/
def adoptToken (token : Option String) : WorkerState :=
  if truthy token then
    { s with
      token := token
      metrics := s.metrics.map fun metrics => { metrics with token := token } }
  else s

/-- `_reregister` when the manager may have handed out another API key: the backend is
stopped, and the next tick restarts it. -/
def adoptKey (key : Option String) : WorkerState :=
  if truthy key ∧ s.apiKey ≠ key then { s with apiKey := key }.childExit else s

/-- `_reregister` once the manager accepted. -/
def reregistered (response : RegisterResponse) : WorkerState :=
  { (s.adoptToken response.nodeToken).adoptKey response.vllmApiKey with pc := .waiting }

/-- `_reregister` after its first registration. -/
def reregister (reply : Reply RegisterResponse) : WorkerState :=
  match reply with
  | .ok response => s.reregistered response
  | .status code =>
      if code ≠ 401 ∨ s.token = c.joinToken then { s with pc := .waiting }
      else { s with pc := .rejoining }
  | .failed => { s with pc := .waiting }

/-- `_reregister` after its second registration, with the join token. -/
def rejoin (reply : Reply RegisterResponse) : WorkerState :=
  match reply with
  | .ok response => s.reregistered response
  | _ => { s with pc := .waiting }

/-- `_drain_and_stop` up to its loop or its last heartbeat. -/
def drain : WorkerState :=
  if s.running then { s with nodeState := .draining, pc := .draining }
  else { s with nodeState := .stopped, runState := none, pc := .lastReport }

/-- One round of the loop of `_drain_and_stop`, or what follows the loop. -/
def drainPoll (expired : Bool) (observed : RunState) (rtt : Option Rat)
    (reply : Reply HeartbeatAck) : WorkerState :=
  if s.force = false ∧ expired = false ∧ observed = .executing then
    ({ s with runState := some .executing }.sendHeartbeat c rtt reply).1
  else { s.childExit with nodeState := .stopped, runState := none, pc := .lastReport }

/-- The end of `_drain_and_stop` and of `run`. -/
def lastHeartbeat (rtt : Option Rat) (reply : Reply HeartbeatAck) : WorkerState :=
  { (s.sendHeartbeat c rtt reply).1 with pc := .exited, metrics := none }

/-- The handler of `_install_signals`. -/
def onSignal : WorkerState :=
  if s.stop then { s with force := true } else { s with stop := true }

def step : WorkerEvent → Option WorkerState
  | .register reply => if s.pc = .registering then some (s.start c reply) else none
  | .tick healthy observed =>
      if s.pc = .waiting ∧ s.stop = false then some (s.reconcile c healthy observed) else none
  | .wake => if s.pc = .waiting ∧ s.stop then some s.leave else none
  | .restart taken => if s.pc = .backoff then some (s.restart taken) else none
  | .heartbeat rtt reply =>
      if s.pc = .reporting then some (s.loopHeartbeat c rtt reply)
      else if s.pc = .lastReport then some (s.lastHeartbeat c rtt reply)
      else none
  | .reregister reply =>
      if s.pc = .reregistering then some (s.reregister c reply)
      else if s.pc = .rejoining then some (s.rejoin reply)
      else none
  | .drain => if s.pc = .stopping then some s.drain else none
  | .poll expired observed rtt reply =>
      if s.pc = .draining then some (s.drainPoll c expired observed rtt reply) else none
  | .signal => if s.pc = .exited then none else some s.onSignal
  | .exit => if s.running then some s.childExit else none
  | .die => if s.pc = .exited then none else some { s with pc := .exited }

variable {c s} {s' : WorkerState}

/-- The steps there are, each with where the main thread stood. -/
inductive Move (c : WorkerSettings) (s : WorkerState) : WorkerEvent → WorkerState → Prop
  | register (reply : Reply RegisterResponse) : s.pc = .registering →
    Move c s (.register reply) (s.start c reply)
  | tick (healthy : Bool) (observed : RunState) : s.pc = .waiting → s.stop = false →
    Move c s (.tick healthy observed) (s.reconcile c healthy observed)
  | wake : s.pc = .waiting → s.stop = true → Move c s .wake s.leave
  | restart (taken : Nat → Bool) : s.pc = .backoff → Move c s (.restart taken) (s.restart taken)
  | heartbeat (rtt : Option Rat) (reply : Reply HeartbeatAck) : s.pc = .reporting →
    Move c s (.heartbeat rtt reply) (s.loopHeartbeat c rtt reply)
  | lastHeartbeat (rtt : Option Rat) (reply : Reply HeartbeatAck) : s.pc = .lastReport →
    Move c s (.heartbeat rtt reply) (s.lastHeartbeat c rtt reply)
  | reregister (reply : Reply RegisterResponse) : s.pc = .reregistering →
    Move c s (.reregister reply) (s.reregister c reply)
  | rejoin (reply : Reply RegisterResponse) : s.pc = .rejoining →
    Move c s (.reregister reply) (s.rejoin reply)
  | drain : s.pc = .stopping → Move c s .drain s.drain
  | poll (expired : Bool) (observed : RunState) (rtt : Option Rat) (reply : Reply HeartbeatAck) :
    s.pc = .draining →
    Move c s (.poll expired observed rtt reply) (s.drainPoll c expired observed rtt reply)
  | signal : s.pc ≠ .exited → Move c s .signal s.onSignal
  | exit : s.running = true → Move c s .exit s.childExit
  | die : s.pc ≠ .exited → Move c s .die { s with pc := .exited }

theorem step_move {e : WorkerEvent} (run : s.step c e = some s') : Move c s e s' := by
  cases e with
  | heartbeat rtt reply =>
    simp only [step] at run
    split at run
    · next pc => cases run; exact .heartbeat rtt reply pc
    · split at run
      · next pc => cases run; exact .lastHeartbeat rtt reply pc
      · cases run
  | reregister reply =>
    simp only [step] at run
    split at run
    · next pc => cases run; exact .reregister reply pc
    · split at run
      · next pc => cases run; exact .rejoin reply pc
      · cases run
  | _ =>
    simp only [step] at run
    split at run <;> cases run
    next enabled =>
      first
        | exact .register _ enabled
        | exact .tick _ _ enabled.1 enabled.2
        | exact .wake enabled.1 enabled.2
        | exact .restart _ enabled
        | exact .drain enabled
        | exact .poll _ _ _ _ enabled
        | exact .signal enabled
        | exact .exit enabled
        | exact .die enabled

end WorkerState

/-- Every course of a worker process. -/
def workerSystem (c : WorkerSettings) : Transition.System WorkerState WorkerEvent where
  init s := ∃ apiKey, s = .initial c apiKey
  step s e := s.step c e

/-- A worker that may restart its backend once. -/
def oneRestart : WorkerSettings where
  nodeId := "n"
  address := "10.0.0.2"
  transport := .direct
  vllmPort := 7001
  model := "m"
  profile := none
  backend := .vllm
  incarnation := 1
  capabilities := ⟨none, none⟩
  joinToken := none
  maxRestarts := 1
  metricsEnabled := true

end Oumigo
