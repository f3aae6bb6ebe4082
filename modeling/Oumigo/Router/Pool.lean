import Oumigo.Registry
import Oumigo.Tunnel.Registry

/-!
# FIFO admission over the serving workers

`WorkerPool` of `service/manager/router/server.py`, run by any number of `acquire`
callers.  As in `Oumigo.Tunnel.Registry`, a section of the source between two
awaits is one function, an `acquire` call is an index into `calls` and at the same
time the future it queues, and `PoolEvent` lists the sections and what the outside
does: callers time out or are cancelled, slots are released, and the registry and
the tunnels change in any way.

`rng` holds the numbers the random generator will draw; an exhausted list draws
zeros.  `grants` records each slot given out with the pool as it was at that
instant; no operation reads it.
-/

namespace Oumigo

/-- Which workers a request accepts; `None` accepts all. -/
abbrev Eligible := Option (NodeRecord → Bool)

def Eligible.accepts : Eligible → NodeRecord → Bool
  | none, _ => true
  | some eligible, record => eligible record

/-- An entry of `_waiters`: a queued call's future and predicate. -/
structure Waiter where
  call : CallId
  eligible : Eligible

/-- `WorkerPool`. -/
structure WorkerPool where
  registry : Registry
  tunnels : Option TunnelRegistry
  defaultCapacity : Nat
  rng : List Nat
  inflight : NodeId → Nat
  waiters : List Waiter

/-- One `acquire` call. -/
structure PoolCall where
  eligible : Eligible
  call : Asyncio.Call NodeRecord

/-- A slot on `record` given to `call`, and the pool just before. -/
structure Grant where
  pool : WorkerPool
  call : CallId
  eligible : Eligible
  record : NodeRecord

/-- The pool and everyone who called `acquire`. -/
structure PoolState where
  pool : WorkerPool
  calls : List PoolCall
  grants : List Grant

namespace WorkerPool

/-- `WorkerPool(registry, default_capacity, …)`. -/
def new (registry : Registry) (defaultCapacity : Nat) (rng : List Nat)
    (tunnels : Option TunnelRegistry) : WorkerPool where
  registry := registry
  tunnels := tunnels
  defaultCapacity := max 1 defaultCapacity
  rng := rng
  inflight := fun _ => 0
  waiters := []

/-- `WorkerPool._capacity`. -/
def capacity (p : WorkerPool) (record : NodeRecord) : Nat :=
  record.maxConcurrentRequests.getD p.defaultCapacity

/-- `WorkerPool._routable`: SERVING, and a tunnel worker has a tunnel up. -/
def routable (p : WorkerPool) (record : NodeRecord) : Bool :=
  if record.state ≠ .serving then false
  else match record.transport with
    | .tunnel => match p.tunnels with
      | some tunnels => 0 < tunnels.connected record.nodeId
      | none => false
    | .direct => true

/-- `WorkerPool.serving`. -/
def serving (p : WorkerPool) (eligible : Eligible) : List NodeRecord :=
  p.registry.list.filter fun r => p.routable r && eligible.accepts r

/-- `WorkerPool._available`. -/
def available (p : WorkerPool) (eligible : Eligible) : List NodeRecord :=
  (p.serving eligible).filter fun r => p.inflight r.nodeId < p.capacity r

/-- `WorkerPool.healthy_count`. -/
def healthyCount (p : WorkerPool) (eligible : Eligible) : Nat := (p.serving eligible).length

/-- `self._rng.choice(avail)`, when there is one to choose. -/
def choice (p : WorkerPool) (avail : List NodeRecord) : Option (NodeRecord × WorkerPool) :=
  (avail[p.rng.headD 0 % avail.length]?).map fun record => (record, { p with rng := p.rng.tail })

/-- `WorkerPool._take`. -/
def take (p : WorkerPool) (record : NodeRecord) : WorkerPool :=
  { p with inflight :=
      Function.update p.inflight record.nodeId (p.inflight record.nodeId + 1) }

/-- The first half of `WorkerPool.release`. -/
def giveBack (p : WorkerPool) (nodeId : NodeId) : WorkerPool :=
  if p.inflight nodeId > 0 then
    { p with inflight := Function.update p.inflight nodeId (p.inflight nodeId - 1) }
  else p

theorem mem_available {p : WorkerPool} {eligible : Eligible} {r : NodeRecord} :
    r ∈ p.available eligible ↔ r ∈ p.registry.list ∧ p.routable r = true ∧
      eligible.accepts r = true ∧ p.inflight r.nodeId < p.capacity r := by
  simp only [available, serving, List.mem_filter, Bool.and_eq_true, decide_eq_true_eq, and_assoc]

theorem choice_some {p p' : WorkerPool} {avail : List NodeRecord} {r : NodeRecord}
    (chosen : p.choice avail = some (r, p')) :
    r ∈ avail ∧ p' = { p with rng := p.rng.tail } := by
  obtain ⟨record, found, eq⟩ := Option.map_eq_some_iff.mp chosen
  cases eq
  exact ⟨List.mem_of_getElem? found, rfl⟩

theorem choice_none {p : WorkerPool} {avail : List NodeRecord}
    (nothing : p.choice avail = none) : avail = [] := by
  by_contra nonempty
  have inside := Nat.mod_lt (p.rng.headD 0) (List.length_pos_iff.mpr nonempty)
  unfold choice at nothing
  rw [List.getElem?_eq_getElem inside] at nothing
  cases nothing

end WorkerPool

namespace PoolState

/-- A pool nobody has called yet. -/
def initial (pool : WorkerPool) : PoolState := ⟨pool, [], []⟩

/-- `fut.done()` of a queued call. -/
def futureDone (s : PoolState) (c : CallId) : Bool :=
  match s.calls[c]? with
  | some x => !x.call.pending
  | none => true

/-- Put `call` in the place of call `c`. -/
def setCall (s : PoolState) (c : CallId) (call : Asyncio.Call NodeRecord) : PoolState :=
  { s with calls := s.calls.modify c fun x => { x with call := call } }

/-- `_take` for call `c`. -/
def grant (s : PoolState) (c : CallId) (eligible : Eligible) (record : NodeRecord) : PoolState :=
  { s with
    pool := s.pool.take record
    grants := s.grants ++ [⟨s.pool, c, eligible, record⟩] }

/-- `fut.set_result(self._take(…))` for a waiter. -/
def resolve (s : PoolState) (w : Waiter) (record : NodeRecord) : PoolState :=
  (s.grant w.call w.eligible record).setCall w.call (.suspended (.resolved record))

/-- The loop of `_promote`: the state after it, and the waiters it kept. -/
def promoteLoop : List Waiter → PoolState → PoolState × List Waiter
  | [], s => (s, [])
  | w :: rest, s =>
      if s.futureDone w.call then promoteLoop rest s  -- timed out, or resolved already
      else match s.pool.choice (s.pool.available w.eligible) with
        | some (record, pool) => promoteLoop rest ({ s with pool }.resolve w record)
        | none =>
            let (s', kept) := promoteLoop rest s
            (s', w :: kept)

/-- `WorkerPool._promote`. -/
def promote (s : PoolState) : PoolState :=
  if s.pool.waiters.isEmpty then s
  else
    let (s', kept) := promoteLoop s.pool.waiters s
    { s' with pool := { s'.pool with waiters := kept } }

/-- `WorkerPool.acquire` up to its `await`. -/
def acquire (s : PoolState) (eligible : Eligible) : PoolState :=
  let c := s.calls.length
  let s := s.promote  -- earlier waiters first
  match s.pool.choice (s.pool.available eligible) with
  | some (record, pool) =>
      let s := { s with pool }.grant c eligible record
      { s with calls := s.calls ++ [⟨eligible, .returned record⟩] }
  | none =>
      if s.pool.healthyCount eligible = 0 then  -- NoWorkersAvailable
        { s with calls := s.calls ++ [⟨eligible, .ended⟩] }
      else
        { s with
          pool := { s.pool with waiters := s.pool.waiters ++ [⟨c, eligible⟩] }
          calls := s.calls ++ [⟨eligible, .suspended .pending⟩] }

/-- `WorkerPool.release`. -/
def release (s : PoolState) (nodeId : NodeId) : PoolState :=
  { s with pool := s.pool.giveBack nodeId }.promote

/-- `WorkerPool.acquire` after its `await`: return the worker, or leave the queue
(or give a slot back that came in the race window) and raise. -/
def resume (s : PoolState) (c : CallId) : Option PoolState :=
  match s.calls[c]? with
  | some ⟨_, .suspended w⟩ =>
      match w.resume with
      | some (.ok record) => some (s.setCall c (.returned record))
      | some (.error _) =>
          let s := s.setCall c .ended
          if s.pool.waiters.any fun x => x.call = c then
            some { s with pool :=
              { s.pool with waiters := s.pool.waiters.filter fun x => x.call ≠ c } }
          else match w.result? with
            | some record => some (s.release record.nodeId)
            | none => some s
      | none => none
  | _ => none

/-- A timeout or a cancellation reaches a queued caller. -/
def interrupt (s : PoolState) (c : CallId) (cause : Asyncio.Interrupt) : Option PoolState :=
  match s.calls[c]? with
  | some ⟨_, .suspended w⟩ => some (s.setCall c (.suspended (w.interrupt cause)))
  | _ => none

/-- The caller that holds a slot releases it. -/
def releaseHeld (s : PoolState) (c : CallId) : Option PoolState :=
  match s.calls[c]? with
  | some ⟨_, .returned record⟩ => some ((s.setCall c .ended).release record.nodeId)
  | _ => none

/-- One turn of `run_promoter`. -/
def tick (s : PoolState) : PoolState :=
  if s.pool.waiters.isEmpty then s else s.promote

end PoolState

/-- One atomic step of the pool's world. -/
inductive PoolEvent where
  | acquire (eligible : Eligible)
  | resume (c : CallId)
  | interrupt (c : CallId) (cause : Asyncio.Interrupt)
  | release (c : CallId)
  | tick
  | environment (registry : Registry) (tunnels : Option TunnelRegistry)

namespace PoolState

def step (s : PoolState) : PoolEvent → Option PoolState
  | .acquire eligible => some (s.acquire eligible)
  | .resume c => s.resume c
  | .interrupt c cause => s.interrupt c cause
  | .release c => s.releaseHeld c
  | .tick => some s.tick
  | .environment registry tunnels => some { s with pool := { s.pool with registry, tunnels } }

end PoolState

/-- Every interleaving of the sections, from a new pool. -/
def poolSystem : Transition.System PoolState PoolEvent where
  init s := ∃ registry defaultCapacity rng tunnels,
    s = .initial (.new registry defaultCapacity rng tunnels)
  step := PoolState.step

end Oumigo
