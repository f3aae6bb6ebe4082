import Oumigo.Control.Server
import Oumigo.Router.Pool
import Oumigo.Worker.Coordinator

/-!
# The cap the router applies to a worker

A closed fleet as its registry sees it: worker processes register and send
heartbeats in any order, the reaper runs and nodes are removed.  The router's cap
for a worker is the one its record holds, else the fleet default's.  A record
holds a cap only after a transformer backend of that node reported one, and keeps
it when the node changes backend; `capacity_own_iff` says when the result is the
cap of the worker's own backend or profile.
-/

namespace Oumigo

/-- The registry, the process that each node runs (the last that registered), and the
nodes whose record holds a cap reported since the node was last introduced. -/
structure FleetState where
  registry : Registry
  workers : NodeId → Option Coordinator
  capped : NodeId → Bool

inductive FleetEvent where
  | register (now : Rat) (credential : Credential) (worker : Coordinator)
  | heartbeat (now : Rat) (credential : Credential) (nodeId : NodeId) (nodeState : NodeState)
      (runState : Option RunState) (vllmPort : Option Nat) (tunnelRttMs : Option Rat)
  | reap (now timeout forgetAfter : Rat)
  | remove (nodeId : NodeId)

namespace FleetState

/-- Replace the registry; a node it has forgotten is not capped any more. -/
def forget (s : FleetState) (registry : Registry) : FleetState :=
  { s with
    registry := registry
    capped := fun n => s.capped n && (registry.get n).isSome }

def step (cfg : ControlConfig) (s : FleetState) : FleetEvent → Option FleetState
  | .register now credential worker =>
      match cfg.register s.registry now credential worker.registerRequest with
      | .ok (registry, _) => some
          { s with
            registry := registry
            workers := Function.update s.workers worker.nodeId (some worker) }
      | .error _ => some s
  | .heartbeat now credential n nodeState runState vllmPort tunnelRttMs =>
      match s.workers n with
      | none => none
      | some worker =>
          match cfg.heartbeat s.registry now credential
              (worker.heartbeatRequest nodeState runState vllmPort tunnelRttMs) with
          | .ok (registry, response) => some
              { s with
                registry := registry
                capped := Function.update s.capped worker.nodeId
                  (s.capped worker.nodeId ||
                    (response.known && worker.reportMaxConcurrent.isSome)) }
          | .error _ => some s
  | .reap now timeout forgetAfter => some (s.forget (s.registry.reap now timeout forgetAfter))
  | .remove n => some (s.forget (s.registry.remove n).1)

/-- The pool of the router that `run_server` builds on this registry. -/
def pool (cfg : ControlConfig) (s : FleetState) (rng : List Nat)
    (tunnels : Option TunnelRegistry) : WorkerPool :=
  .new s.registry cfg.defaultCapacity rng tunnels

/-- The cap of node `n`'s own backend if it reports one, else of its own profile `p`. -/
def ownCap (s : FleetState) (n : NodeId) (p : Profile) : Nat :=
  ((s.workers n).bind Coordinator.reportMaxConcurrent).getD p.engine.maxConcurrentRequests

/-- Node `n` runs the transformer backend. -/
def RunsTransformer (s : FleetState) (n : NodeId) : Prop :=
  ∃ worker, s.workers n = some worker ∧ worker.backend = .transformer

end FleetState

/-- Every sequence of messages and reaper passes, from an empty registry. -/
def fleetSystem (cfg : ControlConfig) : Transition.System FleetState FleetEvent where
  init s := s = ⟨.empty, fun _ => none, fun _ => false⟩
  step := FleetState.step cfg

theorem ControlConfig.one_le_defaultCapacity (cfg : ControlConfig) : 1 ≤ cfg.defaultCapacity := by
  unfold ControlConfig.defaultCapacity
  cases cfg.nodeSpec with
  | none => decide
  | some spec => exact spec.one_le_maxConcurrentRequests

namespace FleetState

variable {cfg : ControlConfig} {s s' : FleetState} {n : NodeId} {e : FleetEvent}

/-- What every sequence of messages keeps of the record of a node. -/
structure Tracked (cfg : ControlConfig) (s : FleetState) (n : NodeId) (r : NodeRecord) : Prop where
  cap : r.maxConcurrentRequests = if s.capped n then some 1 else none
  profile : ∃ p, r.profile = some p.id ∧ cfg.catalog.get p.id = some p
  reported : s.RunsTransformer n → r.state = .serving → s.capped n = true

structure Inv (cfg : ControlConfig) (s : FleetState) : Prop where
  tracked : ∀ n r, s.registry.get n = some r → Tracked cfg s n r
  known : ∀ n, s.capped n = true → (s.registry.get n).isSome = true
  own : ∀ n worker, s.workers n = some worker → worker.nodeId = n

theorem inv_initial : Inv cfg ⟨.empty, fun _ => none, fun _ => false⟩ where
  tracked := fun _ _ found => nomatch found
  known := fun _ capped => nomatch capped
  own := fun _ _ found => nomatch found

/-- A record without a cap is that of a node that is not capped, and so is none at all. -/
theorem Inv.bind_cap (inv : Inv cfg s) (n : NodeId) :
    (s.registry.get n).bind (·.maxConcurrentRequests) = if s.capped n then some 1 else none := by
  cases found : s.registry.get n with
  | some r => exact (inv.tracked n r found).cap
  | none =>
    have uncapped : s.capped n = false := by
      refine Bool.eq_false_iff.mpr fun capped => ?_
      have known := inv.known n capped
      rw [found] at known
      cases known
    simp [uncapped]

theorem Inv.register (closed : cfg.catalog.closed = true) (inv : Inv cfg s) {now : Rat}
    {credential : Credential} {worker : Coordinator} {registry : Registry}
    {response : RegisterResponse}
    (accepted : cfg.register s.registry now credential worker.registerRequest =
      .ok (registry, response)) :
    Inv cfg { s with
      registry := registry
      workers := Function.update s.workers worker.nodeId (some worker) } := by
  obtain ⟨resolved, profileId, admitted, rfl⟩ := ControlConfig.register_ok accepted
  obtain ⟨p, rfl, allowed, -⟩ := ControlConfig.checkProfile_allowed closed admitted
  obtain ⟨record, filed, state, cap, profile⟩ := Registry.get_register_self
    s.registry (n := worker.nodeId)
  constructor
  · intro n r found
    by_cases same : n = worker.nodeId
    · subst same
      cases filed.symm.trans found
      refine ⟨cap.trans (inv.bind_cap _), ⟨p, profile, allowed⟩, fun _ serving => ?_⟩
      cases state.symm.trans serving
    · have before := inv.tracked n r ((Registry.get_register_ne same).symm.trans found)
      refine ⟨before.cap, before.profile, fun ⟨c, runs, transformer⟩ => before.reported ⟨c, ?_, transformer⟩⟩
      exact (Function.update_of_ne same ..).symm.trans runs
  · intro n capped
    by_cases same : n = worker.nodeId
    · subst same
      exact Option.isSome_of_eq_some filed
    · exact (congrArg Option.isSome (Registry.get_register_ne same)).trans (inv.known n capped)
  · intro n c runs
    by_cases same : n = worker.nodeId
    · subst same
      cases (Function.update_self ..).symm.trans runs
      rfl
    · exact inv.own n c ((Function.update_of_ne same ..).symm.trans runs)

/-- A heartbeat of `worker` that reports its cap into the record of its node. -/
theorem Inv.beat (inv : Inv cfg s) {worker : Coordinator}
    (runs : s.workers worker.nodeId = some worker) {registry : Registry} {capped : NodeId → Bool}
    (others : ∀ n, n ≠ worker.nodeId →
      registry.get n = s.registry.get n ∧ capped n = s.capped n)
    (filed : ∀ r, registry.get worker.nodeId = some r → ∃ old,
      s.registry.get worker.nodeId = some old ∧ r.profile = old.profile ∧
      r.maxConcurrentRequests = (worker.reportMaxConcurrent <|> old.maxConcurrentRequests))
    (known : (registry.get worker.nodeId).isSome = (s.registry.get worker.nodeId).isSome)
    (reported : capped worker.nodeId = (s.capped worker.nodeId ||
      ((s.registry.get worker.nodeId).isSome && worker.reportMaxConcurrent.isSome))) :
    Inv cfg { s with registry, capped } := by
  constructor
  · intro n r found
    by_cases same : n = worker.nodeId
    · subst same
      obtain ⟨old, stored, profile, cap⟩ := filed r found
      have before := inv.tracked _ old stored
      rw [stored, Option.isSome_some, Bool.true_and] at reported
      refine ⟨?_, profile ▸ before.profile, fun ⟨c, own, transformer⟩ _ => ?_⟩
      · change r.maxConcurrentRequests = if capped worker.nodeId = true then some 1 else none
        rw [cap, reported, before.cap]
        by_cases transformer : worker.backend = .transformer
        · simp [Coordinator.reportMaxConcurrent, transformer]
        · simp [Coordinator.reportMaxConcurrent, transformer]
      · cases runs.symm.trans own
        change capped worker.nodeId = true
        rw [reported]
        simp [Coordinator.reportMaxConcurrent, transformer]
    · obtain ⟨get, cap⟩ := others n same
      have before := inv.tracked n r (get.symm.trans found)
      refine ⟨?_, before.profile, fun transformer serving => cap.trans ?_⟩
      · change r.maxConcurrentRequests = if capped n = true then some 1 else none
        rw [cap]
        exact before.cap
      · exact before.reported transformer serving
  · intro n isCapped
    by_cases same : n = worker.nodeId
    · subst same
      refine known.trans ?_
      rcases Bool.or_eq_true_iff.mp (reported.symm.trans isCapped) with earlier | now
      · exact inv.known _ earlier
      · exact (Bool.and_eq_true_iff.mp now).1
    · obtain ⟨get, cap⟩ := others n same
      exact (congrArg Option.isSome get).trans (inv.known n (cap.symm.trans isCapped))
  · exact inv.own

theorem Inv.heartbeat (inv : Inv cfg s) {now : Rat} {credential : Credential}
    {worker : Coordinator} (runs : s.workers n = some worker) {nodeState : NodeState}
    {runState : Option RunState} {vllmPort : Option Nat} {tunnelRttMs : Option Rat}
    {registry : Registry} {response : HeartbeatResponse}
    (accepted : cfg.heartbeat s.registry now credential
      (worker.heartbeatRequest nodeState runState vllmPort tunnelRttMs) = .ok (registry, response)) :
    Inv cfg { s with
      registry := registry
      capped := Function.update s.capped worker.nodeId
        (s.capped worker.nodeId || (response.known && worker.reportMaxConcurrent.isSome)) } := by
  obtain ⟨rfl, known⟩ := ControlConfig.heartbeat_ok accepted
  rw [Registry.heartbeat_known] at known
  have own := inv.own n worker runs
  subst own
  refine inv.beat runs (fun n other => ⟨Registry.get_heartbeat_ne other, ?_⟩) (fun r found => ?_)
    ?_ ?_
  · exact Function.update_of_ne other ..
  · obtain ⟨old, stored, rfl⟩ :=
      Option.map_eq_some_iff.mp (Registry.get_heartbeat_self.symm.trans found)
    exact ⟨old, stored, rfl, rfl⟩
  · exact (congrArg Option.isSome Registry.get_heartbeat_self).trans (Option.isSome_map ..)
  · rw [Function.update_self, known]
    rfl

/-- The registry forgets nodes, or marks them LOST. -/
theorem Inv.forget (inv : Inv cfg s) {registry : Registry}
    (sub : ∀ n r, registry.get n = some r → ∃ old, s.registry.get n = some old ∧
      (r = { old with state := .lost } ∨ r = old)) : Inv cfg (s.forget registry) where
  tracked := fun n r found => by
    obtain ⟨old, stored, same⟩ := sub n r found
    have before := inv.tracked n old stored
    have capped : (s.forget registry).capped n = s.capped n := by
      have kept : (registry.get n).isSome = true := Option.isSome_of_eq_some found
      change (s.capped n && (registry.get n).isSome) = s.capped n
      rw [kept, Bool.and_true]
    refine ⟨?_, ?_, fun transformer serving => capped.trans ?_⟩
    · rw [capped]
      rcases same with rfl | rfl <;> exact before.cap
    · rcases same with rfl | rfl <;> exact before.profile
    · rcases same with rfl | rfl
      · cases serving
      · exact before.reported transformer serving
  known := fun n capped => (Bool.and_eq_true_iff.mp capped).2
  own := inv.own

theorem inv_step (closed : cfg.catalog.closed = true) (inv : Inv cfg s)
    (run : s.step cfg e = some s') : Inv cfg s' := by
  cases e with
  | register now credential worker =>
    simp only [step] at run
    split at run
    · next registry response accepted =>
      cases run
      exact inv.register closed accepted
    · cases run
      exact inv
  | heartbeat now credential n nodeState runState vllmPort tunnelRttMs =>
    simp only [step] at run
    split at run
    · cases run
    · next worker runs =>
      split at run
      · next registry response accepted =>
        cases run
        exact inv.heartbeat runs accepted
      · cases run
        exact inv
  | reap now timeout forgetAfter =>
    cases run
    refine inv.forget fun n r found => ?_
    rw [Registry.get_reap] at found
    obtain ⟨old, stored, kept⟩ := Option.bind_eq_some_iff.mp found
    exact ⟨old, stored, Registry.reapRecord_cases kept⟩
  | remove n =>
    cases run
    refine inv.forget fun n' r found => ?_
    rw [Registry.get_remove] at found
    split at found
    · cases found
    · exact ⟨r, found, Or.inr rfl⟩

theorem inv_of_reachable (closed : cfg.catalog.closed = true)
    (reached : (fleetSystem cfg).Reachable s) : Inv cfg s :=
  reached.invariant (I := Inv cfg) (fun s start => by
    rw [show s = _ from start]
    exact inv_initial) fun _ _ _ inv _ run => inv_step closed inv run

/-- The cap the router applies to a tracked worker. -/
theorem Tracked.capacity {r : NodeRecord} (tracked : Tracked cfg s n r) (rng : List Nat)
    (tunnels : Option TunnelRegistry) :
    (s.pool cfg rng tunnels).capacity r = if s.capped n then 1 else cfg.defaultCapacity := by
  change r.maxConcurrentRequests.getD (max 1 cfg.defaultCapacity) = _
  rw [tracked.cap, max_eq_right cfg.one_le_defaultCapacity]
  split <;> rfl

theorem ownCap_transformer {p : Profile} (transformer : s.RunsTransformer n) :
    s.ownCap n p = 1 := by
  obtain ⟨worker, runs, backend⟩ := transformer
  simp [ownCap, runs, Coordinator.reportMaxConcurrent, backend]

theorem ownCap_other {p : Profile} (other : ¬ s.RunsTransformer n) :
    s.ownCap n p = p.engine.maxConcurrentRequests := by
  unfold ownCap
  cases runs : s.workers n with
  | none => rfl
  | some worker =>
    have backend : worker.backend ≠ .transformer := fun same => other ⟨worker, runs, same⟩
    simp [Coordinator.reportMaxConcurrent, backend]

end FleetState

open FleetState in
/-- **When a worker gets its own cap.**  For a SERVING worker of a closed fleet, in any
reachable state: the router applies the cap of its backend or profile exactly when it
runs the transformer backend, or its profile's cap is the one the router uses instead:
1 for a node that some transformer backend capped, the fleet default's otherwise. -/
theorem capacity_own_iff {cfg : ControlConfig} (closed : cfg.catalog.closed = true)
    {s : FleetState} (reached : (fleetSystem cfg).Reachable s) {n : NodeId} {r : NodeRecord}
    (found : s.registry.get n = some r) (serving : r.state = .serving) (rng : List Nat)
    (tunnels : Option TunnelRegistry) :
    ∃ p, r.profile = some p.id ∧ cfg.catalog.get p.id = some p ∧
      ((s.pool cfg rng tunnels).capacity r = s.ownCap n p ↔
        s.RunsTransformer n ∨
        (s.capped n = true ∧ p.engine.maxConcurrentRequests = 1) ∨
        (s.capped n = false ∧ p.engine.maxConcurrentRequests = cfg.defaultCapacity)) ∧
      ((s.pool cfg rng tunnels).capacity r ≤ p.engine.maxConcurrentRequests ↔
        s.capped n = true ∨ cfg.defaultCapacity ≤ p.engine.maxConcurrentRequests) := by
  have tracked := (inv_of_reachable closed reached).tracked n r found
  obtain ⟨p, profile, allowed⟩ := tracked.profile
  refine ⟨p, profile, allowed, ?_, ?_⟩
  · rw [tracked.capacity]
    by_cases transformer : s.RunsTransformer n
    · have capped := tracked.reported transformer serving
      simp [transformer, capped, ownCap_transformer transformer]
    · rw [ownCap_other transformer]
      cases s.capped n <;> simp [transformer, eq_comm]
  · rw [tracked.capacity]
    have atLeastOne := p.engine.one_le_maxConcurrentRequests
    cases s.capped n <;> simp [atLeastOne]

/-! ## A fleet whose default profile allows more than another one -/

/-- The default: 4 requests at a time. -/
def shortContext : Profile where
  id := "gemma@16k"
  model := "google/gemma"
  engine := { maxConcurrentRequests := 4 }

/-- The same weights with a long context: one request at a time. -/
def longContext : Profile where
  id := "gemma@128k"
  model := "google/gemma"
  engine := { maxConcurrentRequests := 1 }

def twoProfiles : FleetCatalog where
  profiles := (Dict.empty.set "gemma@16k" shortContext).set "gemma@128k" longContext
  default := some "gemma@16k"
  default_mem := fun id same => by cases same; exact ⟨shortContext, rfl⟩
  keyed := fun id p found => by
    rw [Dict.get?_set] at found
    split at found
    · next same => cases found; exact same.symm
    · rw [Dict.get?_set] at found
      split at found
      · next same => cases found; exact same.symm
      · cases found

def twoProfileManager : ControlConfig where
  catalog := twoProfiles
  vllmPort := 7001
  heartbeatInterval := 10
  tunnelEnabled := true
  tunnelPoolSpare := 1
  nodeToken := id
  vllmApiKey := id

/-- A vLLM worker that runs `profile`. -/
def vllmWorker (profile : String) : Coordinator where
  nodeId := "n"
  address := "10.0.0.1"
  transport := .direct
  vllmPort := 7001
  model := "google/gemma"
  profile := some profile
  backend := .vllm
  incarnation := 1
  capabilities := ⟨none, none⟩

/-- It registers, and reports that it is serving. -/
def servingRun (profile : String) : List FleetEvent :=
  [.register 0 ⟨true, true, true, false⟩ (vllmWorker profile),
    .heartbeat 1 ⟨true, true, true, false⟩ "n" .serving (some .idle) (some 7001) none]

open FleetState in
/-- A worker of the default profile gets its profile's cap. -/
theorem capacity_own_iff_default_profile :
    ∃ s r, (fleetSystem twoProfileManager).run ⟨.empty, fun _ => none, fun _ => false⟩
        (servingRun "gemma@16k") = some s ∧ s.registry.get "n" = some r ∧
      ∃ p, r.profile = some p.id ∧ (s.pool twoProfileManager [] none).capacity r = s.ownCap "n" p := by
  refine ⟨_, _, rfl, rfl, ?_⟩
  have reached := Transition.System.ReachableBy.of_run (M := fleetSystem twoProfileManager) rfl
    (rfl : (fleetSystem twoProfileManager).run _ (servingRun "gemma@16k") = some _)
  have closed : twoProfileManager.catalog.closed = true := rfl
  obtain ⟨p, profile, allowed, own, -⟩ := capacity_own_iff closed reached (n := "n") rfl rfl [] none
  refine ⟨p, profile, own.mpr (Or.inr (Or.inr ⟨rfl, ?_⟩))⟩
  rw [← Option.some.inj profile] at allowed
  cases (allowed.symm.trans rfl : some p = some shortContext)
  rfl

open FleetState in
/-- A worker of the other profile allows one request at a time, and gets four. -/
theorem capacity_ignores_profile :
    ∃ s r, (fleetSystem twoProfileManager).run ⟨.empty, fun _ => none, fun _ => false⟩
        (servingRun "gemma@128k") = some s ∧ s.registry.get "n" = some r ∧ r.state = .serving ∧
      r.profile = some longContext.id ∧ s.ownCap "n" longContext = 1 ∧
      (s.pool twoProfileManager [] none).capacity r = 4 := by
  refine ⟨_, _, rfl, rfl, rfl, rfl, rfl, rfl⟩

end Oumigo
