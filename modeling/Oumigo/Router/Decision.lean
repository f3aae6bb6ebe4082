import Oumigo.Router.Routing
import Oumigo.Router.Transparency

/-!
# What a request's model decides

`Known` is the set of ids the fleet answers for, `Starting` says that a worker a request
accepts is on its way, and `Updates` is what the heartbeats and the reaper make of the record
object a request holds: its model stays.  `Decided` collects what the requests of
`Oumigo.Router.Routing` are promised, and `routing_decision` is the promise.
-/

namespace Oumigo

open Python Shaping

/-! ## The ids the fleet answers for -/

/-- An allowed profile, the fleet default's id, or the id of a registered worker. -/
inductive Known (cfg : RouterConfig) (registry : Registry) (id : String) : Prop
  | allowed (catalog : FleetCatalog) (given : cfg.catalog = some catalog)
    (member : id ∈ catalog.profiles.keys)
  | default (spec : NodeSpec) (given : cfg.nodeSpec = some spec)
    (name : spec.servedName = some id)
  | served (record : NodeRecord) (listed : record ∈ registry.list)
    (name : cfg.served record = some id)

variable {cfg : RouterConfig} {reprFloat : PyFloat → String} {registry : Registry}
  {body : RequestBody} {id : String} {record record' : NodeRecord} {pool : WorkerPool}
  {model : Option String}

theorem mem_known (nonempty : id ≠ "") : id ∈ cfg.known registry ↔ Known cfg registry id := by
  unfold RouterConfig.known
  simp only [List.mem_dedup, List.mem_append, List.mem_filter, List.mem_filterMap,
    Option.mem_toList, decide_eq_true_eq, Option.bind_eq_some_iff]
  constructor
  · rintro ((allowed | ⟨⟨record, listed, name⟩, _⟩) | ⟨⟨spec, given, name⟩, _⟩)
    · cases catalog : cfg.catalog with
      | none => simp [catalog] at allowed
      | some catalog' =>
        rw [catalog] at allowed
        exact .allowed catalog' catalog allowed
    · exact .served record listed name
    · exact .default spec given name
  · intro known
    cases known with
    | allowed catalog given member =>
      rw [given]
      exact Or.inl (Or.inl member)
    | default spec given name => exact Or.inr ⟨⟨spec, given, name⟩, nonempty⟩
    | served record listed name => exact Or.inl (Or.inr ⟨⟨record, listed, name⟩, nonempty⟩)

/-- A request that names a model is refused with a 404 or looks for that model. -/
theorem select_named (cfg : RouterConfig) (reprFloat : PyFloat → String) (registry : Registry)
    (asked : body.requested = some (.str id)) (nonempty : id ≠ "") (one : id ≠ anyModel) :
    (Known cfg registry id ∧ cfg.select reprFloat registry body = .named id) ∨
      (¬ Known cfg registry id ∧ ∃ message, cfg.select reprFloat registry body =
        .notFound ⟨404, "model_not_found", message, none⟩) := by
  unfold RouterConfig.select
  rw [asked]
  simp only [nonempty, one, or_self, if_false]
  by_cases known : id ∈ cfg.known registry
  · rw [if_pos known]
    exact Or.inl ⟨(mem_known nonempty).mp known, rfl⟩
  · rw [if_neg known]
    exact Or.inr ⟨fun named => known ((mem_known nonempty).mpr named), _, rfl⟩

/-- A request that leaves the choice of the model to the router. -/
def AnyModel (body : RequestBody) : Prop :=
  body.requested = none ∨ body.requested = some .null ∨ body.requested = some (.str "") ∨
    body.requested = some (.str anyModel)

theorem select_any (asked : AnyModel body) : cfg.select reprFloat registry body = .any := by
  unfold RouterConfig.select
  rcases asked with asked | asked | asked | asked <;> rw [asked] <;> rfl

/-- The model a request was admitted for is the one it names. -/
theorem requested_of_select_named (selected : cfg.select reprFloat registry body = .named id) :
    body.requested = some (.str id) := by
  unfold RouterConfig.select at selected
  split at selected
  · cases selected
  · cases selected
  · next id' asked =>
    split at selected
    · cases selected
    · split at selected
      · cases selected
        exact asked
      · cases selected
  · cases selected
  · cases selected
  · cases selected

/-! ## How long a request may queue -/

theorem waitSeconds_queueSeconds (pool : WorkerPool) (model : Option String) :
    cfg.waitSeconds (cfg.queueSeconds pool model) = cfg.queueSeconds pool model := by
  have named (modelId : String) (nothing : cfg.modelQueueSeconds modelId = 0) :
      cfg.queueTimeout = 0 := by
    unfold RouterConfig.modelQueueSeconds at nothing
    generalize limit : Option.filter _ _ = wait at nothing
    cases wait with
    | none => exact nothing
    | some seconds =>
      obtain ⟨_, positive⟩ := Option.filter_eq_some_iff.mp limit
      rw [Option.getD_some] at nothing
      simp [nothing] at positive
  unfold RouterConfig.waitSeconds
  split
  · next nothing =>
    rw [nothing]
    cases model with
    | some modelId => exact named modelId nothing
    | none =>
      unfold RouterConfig.queueSeconds at nothing
      cases longest : (((pool.serving none).filterMap cfg.served).map
          cfg.modelQueueSeconds).max? with
      | none => simpa [longest] using nothing
      | some seconds =>
        obtain ⟨modelId, _, eq⟩ := List.mem_map.mp (List.max?_mem longest)
        rw [longest, Option.getD_some] at nothing
        exact named modelId (eq.trans nothing)
  · rfl

/-- The longest wait among the models being served, the router's own when none is. -/
structure LongestWait (cfg : RouterConfig) (pool : WorkerPool) (seconds : Rat) : Prop where
  upper : ∀ record ∈ pool.serving none, ∀ id, cfg.served record = some id →
    cfg.modelQueueSeconds id ≤ seconds
  attained : (∃ record ∈ pool.serving none, ∃ id, cfg.served record = some id ∧
      cfg.modelQueueSeconds id = seconds) ∨
    ((∀ record ∈ pool.serving none, cfg.served record = none) ∧ seconds = cfg.queueTimeout)

theorem queueSeconds_any (pool : WorkerPool) :
    LongestWait cfg pool (cfg.queueSeconds pool none) := by
  have waits {seconds : Rat} : seconds ∈ ((pool.serving none).filterMap cfg.served).map
      cfg.modelQueueSeconds ↔ ∃ record ∈ pool.serving none, ∃ id, cfg.served record = some id ∧
        cfg.modelQueueSeconds id = seconds := by
    simp only [List.mem_map, List.mem_filterMap]
    constructor
    · rintro ⟨id, ⟨record, member, name⟩, eq⟩
      exact ⟨record, member, id, name, eq⟩
    · rintro ⟨record, member, id, name, eq⟩
      exact ⟨id, ⟨record, member, name⟩, eq⟩
  unfold RouterConfig.queueSeconds
  cases longest : (((pool.serving none).filterMap cfg.served).map
      cfg.modelQueueSeconds).max? with
  | none =>
    have nothing := List.max?_eq_none_iff.mp longest
    have unnamed : ∀ record ∈ pool.serving none, cfg.served record = none := by
      intro record member
      cases name : cfg.served record with
      | none => rfl
      | some id =>
        have wait := waits.mpr ⟨record, member, id, name, rfl⟩
        rw [nothing] at wait
        cases wait
    refine ⟨fun record member id name => ?_, Or.inr ⟨unnamed, rfl⟩⟩
    rw [unnamed record member] at name
    cases name
  | some seconds =>
    refine ⟨fun record member id name => ?_, Or.inl (waits.mp (List.max?_mem longest))⟩
    exact (List.max?_eq_some_iff.mp longest).2 _ (waits.mpr ⟨record, member, id, name, rfl⟩)

/-! ## What a request is told that finds no worker -/

/-- A worker the request accepts is registering, initializing, or SERVING without its
tunnel. -/
def Starting (cfg : RouterConfig) (pool : WorkerPool) (model : Option String) : Prop :=
  ∃ record ∈ pool.registry.list, (∀ id, model = some id → cfg.served record = some id) ∧
    (record.state = .registering ∨ record.state = .initializing ∨
      (record.state = .serving ∧ record.transport = .tunnel ∧
        ∀ tunnels, pool.tunnels = some tunnels → tunnels.connected record.nodeId = 0))

theorem accepts_iff : (cfg.eligible model).accepts record = true ↔
    ∀ id, model = some id → cfg.served record = some id := by
  cases model with
  | none => simp [RouterConfig.eligible, Eligible.accepts]
  | some id => simp [RouterConfig.eligible, Eligible.accepts]

theorem starting_iff : RouterConfig.starting pool record = true ↔
    record.state = .registering ∨ record.state = .initializing ∨
      (record.state = .serving ∧ record.transport = .tunnel ∧
        ∀ tunnels, pool.tunnels = some tunnels → tunnels.connected record.nodeId = 0) := by
  have cut : record.state = .serving → (pool.routable record = false ↔
      record.transport = .tunnel ∧
        ∀ tunnels, pool.tunnels = some tunnels → tunnels.connected record.nodeId = 0) := by
    intro serving
    rw [← Bool.not_eq_true, WorkerPool.routable_iff]
    simp only [serving, true_and, Classical.not_imp, not_exists, not_and, Nat.not_lt,
      Nat.le_zero]
  unfold RouterConfig.starting
  simp only [Bool.or_eq_true, Bool.and_eq_true, decide_eq_true_eq, Bool.not_eq_true', or_assoc]
  constructor
  · rintro (registering | initializing | ⟨serving, closed⟩)
    · exact Or.inl registering
    · exact Or.inr (Or.inl initializing)
    · exact Or.inr (Or.inr ⟨serving, (cut serving).mp closed⟩)
  · rintro (registering | initializing | ⟨serving, closed⟩)
    · exact Or.inl registering
    · exact Or.inr (Or.inl initializing)
    · exact Or.inr (Or.inr ⟨serving, (cut serving).mpr closed⟩)

/-- The 503 of a request for which no worker is routable. -/
theorem notReady_spec (cfg : RouterConfig) (pool : WorkerPool) (model : Option String) :
    (cfg.notReady pool model).status = 503 ∧
      ((Starting cfg pool model ∧ (cfg.notReady pool model).code = "model_loading") ∨
        (¬ Starting cfg pool model ∧ (cfg.notReady pool model).code = "model_unavailable")) := by
  have iff : (pool.registry.list.any fun record =>
      (cfg.eligible model).accepts record && RouterConfig.starting pool record) = true ↔
        Starting cfg pool model := by
    simp only [List.any_eq_true, Bool.and_eq_true, accepts_iff, starting_iff, Starting]
  refine ⟨?_, ?_⟩
  · unfold RouterConfig.notReady
    simp only
    split <;> rfl
  · rw [Routing.notReady_code]
    by_cases starting : Starting cfg pool model
    · rw [if_pos (iff.mpr starting)]
      exact Or.inl ⟨starting, rfl⟩
    · rw [if_neg (mt iff.mp starting)]
      exact Or.inr ⟨starting, rfl⟩

/-! ## The model a worker is sent -/

/-- What heartbeats and the reaper make of a record object. -/
inductive Updates (record : NodeRecord) : NodeRecord → Prop
  | refl : Updates record record
  | heartbeat {r : NodeRecord} (updates : Updates record r) (now : Rat) (state : NodeState)
    (runState : Option RunState) (port cap : Option Nat) (rtt : Option Rat) :
    Updates record (Registry.beat r now state runState port cap rtt)
  | reap {r r' : NodeRecord} (updates : Updates record r) (now timeout forgetAfter : Rat)
    (kept : Registry.reapRecord now timeout forgetAfter r = some r') : Updates record r'

theorem Updates.served (updates : Updates record record') :
    cfg.served record' = cfg.served record := by
  induction updates with
  | refl => rfl
  | heartbeat _ _ _ _ _ _ _ ih => exact ih
  | reap _ _ _ _ kept ih =>
    rcases Registry.reapRecord_cases kept with rfl | rfl
    · exact ih
    · exact ih

/-- The payload the worker is sent names the model. -/
def SendsModel (cfg : RouterConfig) (record : NodeRecord) (body : RequestBody) (id : String) :
    Prop :=
  ∀ (dumps : Json → Bytes) (path : String), ∃ payload,
    (cfg.shapeBody dumps record path body).2 = some (.obj payload) ∧
      Fields.get? payload "model" = some (.str id)

theorem sendsModel {payload : Fields} (parsed : body.parsed = some (.obj payload))
    (name : cfg.served record = some id) : SendsModel cfg record body id := by
  intro dumps path
  refine ⟨_, (shapeBody_obj cfg dumps record path parsed).1, ?_⟩
  rw [(shapePayload_spec cfg record path payload).model, name]
  rfl

/-! ## Any routable worker -/

theorem WorkerPool.choice_any {avail : List NodeRecord} (p : WorkerPool) (member : record ∈ avail) :
    ∃ rng, { p with rng := rng }.choice avail =
      some (record, { p with rng := rng.tail }) := by
  obtain ⟨i, inside, here⟩ := List.mem_iff_getElem.mp member
  refine ⟨[i], ?_⟩
  have found : avail[i % avail.length]? = some record := by
    rw [Nat.mod_eq_of_lt inside, List.getElem?_eq_getElem inside, here]
  simp [WorkerPool.choice, found]

/-- The state with these numbers to draw. -/
def RoutingState.drawing (s : RoutingState) (rng : List Nat) : RoutingState :=
  { s with pool := { s.pool with pool := { s.pool.pool with rng } } }

/-- An any-model request that nobody is ahead of can be given any worker that is free. -/
theorem arrival_any (s : RoutingState) (body : RequestBody) (nobody : s.pool.pool.waiters = [])
    (offered : record ∈ s.pool.pool.available none) :
    ∃ rng, (Routing.arrival cfg (s.drawing rng) body none).phase = .forwarded record := by
  obtain ⟨rng, chosen⟩ := s.pool.pool.choice_any offered
  refine ⟨rng, ?_⟩
  have same : (s.drawing rng).pool.promote = (s.drawing rng).pool := by
    have empty : (s.drawing rng).pool.pool.waiters.isEmpty = true := by
      rw [show (s.drawing rng).pool.pool.waiters = [] from nobody]
      rfl
    exact if_pos empty
  have calls : ((s.drawing rng).pool.acquire none).calls =
      s.pool.calls ++ [⟨none, .returned record⟩] := by
    unfold PoolState.acquire
    have here : (s.drawing rng).pool.pool.choice ((s.drawing rng).pool.pool.available none) =
        some (record, { s.pool.pool with rng := rng.tail }) := chosen
    simp only [same, here]
    rfl
  have found : ((s.drawing rng).pool.acquire none).calls[s.pool.calls.length]? =
      some ⟨none, .returned record⟩ := by
    rw [calls, List.getElem?_concat_length]
  change Routing.phaseOf cfg _ none s.clock
    ((s.drawing rng).pool.acquire none).calls[s.pool.calls.length]? = _
  rw [found]
  rfl

/-! ## The decision -/

/-- The model the body asks for, as the router takes it. -/
def Asks (body : RequestBody) : Option String → Prop
  | some id => body.requested = some (.str id)
  | none => ∀ id, body.requested = some (.str id) → id = "" ∨ id = anyModel

/-- **What is decided** about a request that calls `acquire`, in a state of the router. -/
structure Decided (cfg : RouterConfig) (s : RoutingState) (c : CallId) (req : RoutedRequest) :
    Prop where
  asked : Asks req.body req.model
  seconds : match req.model with
    | some id => req.seconds = cfg.modelQueueSeconds id
    | none => LongestWait cfg req.seen req.seconds
  /-- the worker is routable at the instant of the grant, and serves the named model -/
  granted : ∀ record, req.phase = .forwarded record →
    ∃ g ∈ s.pool.grants, g.call = c ∧ g.record = record ∧ g.Admissible ∧
      ∀ id, req.model = some id → cfg.served g.record = some id
  /-- the model of the payload that is sent -/
  sent : ∀ record record', req.phase = .forwarded record → Updates record record' →
    match req.model with
    | some id => SendsModel cfg record' req.body id
    | none => ∀ payload, req.body.parsed = some (.obj payload) →
        ∀ id, cfg.served record = some id → SendsModel cfg record' req.body id
  nobody : req.seen.serving (cfg.eligible req.model) = [] →
    ∃ error, req.phase = .answered error req.arrived ∧ error.status = 503 ∧
      ((Starting cfg req.seen req.model ∧ error.code = "model_loading") ∨
        (¬ Starting cfg req.seen req.model ∧ error.code = "model_unavailable"))
  answered : ∀ error time, req.phase = .answered error time →
    req.seen.serving (cfg.eligible req.model) = [] ∨
      (error.status = 503 ∧ error.code = "model_busy" ∧ req.arrived + req.seconds ≤ time)

theorem asked_of_select (selected : cfg.select reprFloat registry body =
    match model with
    | some modelId => .named modelId
    | none => .any) :
    Asks body model := by
  cases model with
  | some id => exact requested_of_select_named selected
  | none =>
    intro id asked
    by_contra other
    obtain ⟨nonempty, one⟩ := not_or.mp other
    rcases select_named cfg reprFloat registry asked nonempty one with ⟨_, named⟩ | ⟨_, _, refused⟩
    · rw [named] at selected
      cases selected
    · rw [refused] at selected
      cases selected

/-- A tracked request is decided. -/
theorem decided {s : RoutingState} (reached : (Routing.system cfg reprFloat).Reachable s)
    {c : CallId} {req : RoutedRequest} (found : s.requests[c]? = some req) :
    Decided cfg s c req := by
  have tracked := (Routing.inv_of_reachable reached).tracked c req found
  have books := PoolState.inv_of_reachable (Routing.pool_reachable reached)
  have asked := asked_of_select tracked.selected
  have granted : ∀ record, req.phase = .forwarded record →
      ∃ g ∈ s.pool.grants, g.call = c ∧ g.record = record ∧ g.Admissible ∧
        ∀ id, req.model = some id → cfg.served g.record = some id := by
    intro record forwarded
    obtain ⟨g, member, call, eligible, same⟩ := tracked.forwarded record forwarded
    have admissible := Grant.Admissible.of_available (books.admissible g member)
    refine ⟨g, member, call, same, admissible, ?_⟩
    have accepted := admissible.eligible
    rw [eligible] at accepted
    exact accepts_iff.mp accepted
  refine ⟨asked, ?_, granted, ?_, ?_, ?_⟩
  · rw [tracked.seconds, waitSeconds_queueSeconds]
    cases req.model with
    | some id => rfl
    | none => exact queueSeconds_any req.seen
  · intro record record' forwarded updates
    obtain ⟨g, _, _, same, _, serves⟩ := granted record forwarded
    subst same
    cases model : req.model with
    | none =>
      intro payload parsed id name
      exact sendsModel parsed (updates.served.trans name)
    | some id =>
      have name := updates.served.trans (serves id model)
      have named : req.body.requested = some (.str id) := by
        rw [model] at asked
        exact asked
      unfold RequestBody.requested at named
      split at named
      · next payload parsed => exact sendsModel parsed name
      · cases named
  · intro nobody
    obtain ⟨status, code⟩ := notReady_spec cfg req.seen req.model
    exact ⟨_, tracked.ready.mp nobody, status, code⟩
  · intro error time answered
    rcases tracked.answered error time answered with ⟨nobody, _⟩ | ⟨rfl, waited⟩
    · exact Or.inl nobody
    · exact Or.inr ⟨rfl, rfl, waited⟩

/-- A fleet without a catalog. -/
def openFleet : RouterConfig where
  catalog := none
  nodeSpec := none

/-- A request for the model `m`. -/
def bodyForM : RequestBody where
  bytes := ascii "\x7b\"model\": \"m\"\x7d"
  parsed := some (.obj [("model", .str "m")])
  empty := fun none => by cases none

/-- A worker that serves `m` has joined, and nobody has called. -/
def servingM : RoutingState where
  pool := .initial (.new (Registry.empty.register 0 "n" "10.0.0.1" .serving 0 ⟨none, none⟩
    (some 7001) (some "m") none .direct none) 1 [] none)
  requests := []
  clock := 0

end Oumigo
