import Oumigo.Foundation.Python
import Oumigo.Messages
import Oumigo.Registry

/-!
# The manager's control plane

The `/spec`, `/register` and `/heartbeat` endpoints of
`service/manager/control/server.py`, as `run_server` wires them: the fleet default
is the catalog's default profile.  What the authenticator says of a caller is an
argument; each endpoint is one section on the manager's event loop.
-/

namespace Oumigo

/-- What `run_server` passes to `create_app`, as far as these endpoints read it. -/
structure ControlConfig where
  catalog : FleetCatalog
  vllmPort : Nat
  heartbeatInterval : Nat
  tunnelEnabled : Bool
  tunnelPoolSpare : Nat
  /-- `auth.store.node_token` -/
  nodeToken : NodeId → String
  /-- `auth.store.vllm_api_key` -/
  vllmApiKey : NodeId → String

/-- What the authenticator says of a request's credential. -/
structure Credential where
  mayReadSpec : Bool
  mayRegister : Bool
  mayActAs : Bool
  revoked : Bool
  deriving DecidableEq, Repr

namespace ControlConfig

variable (cfg : ControlConfig)

/-- The fleet default: `build_node_spec(manager_config)`. -/
def nodeSpec : Option NodeSpec := buildNodeSpec cfg.catalog cfg.vllmPort

/-- `default_capacity`, here and in the router. -/
def defaultCapacity : Nat :=
  match cfg.nodeSpec with
  | some spec => spec.maxConcurrentRequests
  | none => 4

/-- `_allowed_list`. -/
def allowedList : String := Python.joinSorted cfg.catalog.profiles.keys

/-- `_pool_size`. -/
def poolSize (capacity : Option Nat) : Nat :=
  capacity.getD cfg.defaultCapacity + cfg.tunnelPoolSpare

/-- `_resolve_spec`. -/
def resolveSpec (profile model : Option String) : Except HttpError (Option NodeSpec) :=
  if !cfg.catalog.closed then .ok cfg.nodeSpec
  else if truthy profile then
    match profile.bind cfg.catalog.get with
    | some chosen => .ok (some (chosen.nodeSpec cfg.vllmPort))
    | none => .error ⟨403, "profile " ++ Python.reprStr (profile.getD "") ++
        " is not allowed in this fleet; allowed: " ++ cfg.allowedList⟩
  else if truthy model then
    match cfg.catalog.profiles.values.filter fun p => some p.model = model with
    | [chosen] => .ok (some (chosen.nodeSpec cfg.vllmPort))
    | found => .error ⟨403, "MODEL_NAME=" ++ Python.reprStr (model.getD "") ++ " matches " ++
        toString found.length ++ " allowed profiles; set OUMIGO_MODEL_PROFILE to one of: " ++
        cfg.allowedList⟩
  else
    match cfg.catalog.defaultProfile with
    | some chosen => .ok (some (chosen.nodeSpec cfg.vllmPort))
    | none => .error ⟨403, "this fleet has no default profile; set OUMIGO_MODEL_PROFILE " ++
        "to one of: " ++ cfg.allowedList⟩

/-- `_deny`. -/
def deny (nodeId : Option NodeId) (credential : Credential) : HttpError :=
  match nodeId with
  | some n =>
      if credential.revoked then ⟨403, "node " ++ n ++ " is revoked"⟩
      else ⟨401, "invalid or missing bearer token"⟩
  | none => ⟨401, "invalid or missing bearer token"⟩

/-- `GET /spec`. -/
def spec (credential : Credential) (profile model : Option String) :
    Except HttpError (Option NodeSpec) :=
  if !credential.mayReadSpec then .error (deny none credential)
  else cfg.resolveSpec profile model

/-- The checks of `POST /register` on the profile: the spec it resolves to, and the
profile id to file the worker under. -/
def checkProfile (req : RegisterRequest) : Except HttpError (Option NodeSpec × Option String) :=
  if !cfg.catalog.closed then .ok (cfg.nodeSpec, req.profile)
  else if !truthy req.profile then
    .error ⟨403, "this manager runs a model catalog (oumigo 0.5+): upgrade the " ++
      "worker to oumigo 0.5 and choose a profile with OUMIGO_MODEL_PROFILE " ++
      "(or none for the default); allowed: " ++ cfg.allowedList⟩
  else do
    let resolved ← cfg.resolveSpec req.profile none
    match resolved, req.model with
    | some chosen, some model =>
        if chosen.model ≠ model then
          .error ⟨403, "worker loads " ++ Python.reprStr model ++ ", but profile " ++
            Python.reprStr (chosen.profile.getD "") ++ " needs " ++ Python.reprStr chosen.model⟩
        else .ok (resolved, chosen.profile)
    | _, _ => .ok (resolved, resolved.bind (·.profile))

/-- `POST /register`: the new registry and the response, or the refusal. -/
def register (reg : Registry) (now : Rat) (credential : Credential) (req : RegisterRequest) :
    Except HttpError (Registry × RegisterResponse) :=
  if req.transport = .tunnel && !cfg.tunnelEnabled then
    .error ⟨400, "this manager does not accept tunnel workers (tunnel.enabled: false)"⟩
  else if !credential.mayReadSpec then .error (deny (some req.nodeId) credential)
  else do
    let (resolved, profileId) ← cfg.checkProfile req
    if !credential.mayRegister then .error (deny (some req.nodeId) credential)
    else
      .ok (reg.register now req.nodeId req.address req.state req.incarnation req.capabilities
          req.vllmPort req.model req.backend req.transport profileId,
        { accepted := true
          nodeId := req.nodeId
          heartbeatIntervalS := cfg.heartbeatInterval
          nodeSpec := resolved
          nodeToken := some (cfg.nodeToken req.nodeId)
          vllmApiKey :=
            if req.transport = .tunnel then some (cfg.vllmApiKey req.nodeId) else none
          -- the transformer backend serves one request at a time: one slot
          tunnelPoolSize :=
            if req.transport = .tunnel then
              some (cfg.poolSize (if req.backend = some .transformer then some 1 else none))
            else none })

/-- `POST /heartbeat`: the new registry and the response, or the refusal. -/
def heartbeat (reg : Registry) (now : Rat) (credential : Credential) (req : HeartbeatRequest) :
    Except HttpError (Registry × HeartbeatResponse) :=
  if !credential.mayActAs then .error (deny (some req.nodeId) credential)
  else
    let (reg', known) := reg.heartbeat now req.nodeId req.nodeState req.runState req.vllmPort
      req.maxConcurrentRequests req.tunnelRttMs
    let record := if known then reg'.get req.nodeId else none
    .ok (reg',
      { ok := true
        known := known
        tunnelPoolSize := record.bind fun r =>
          if r.transport = .tunnel then some (cfg.poolSize r.maxConcurrentRequests) else none })

variable {cfg : ControlConfig}

/-- A spec resolved for a named profile is that profile's. -/
theorem resolveSpec_profile {profile model : Option String} {resolved : Option NodeSpec}
    (closed : cfg.catalog.closed = true) (named : truthy profile = true)
    (found : cfg.resolveSpec profile model = .ok resolved) :
    ∃ p, cfg.catalog.get p.id = some p ∧ resolved = some (p.nodeSpec cfg.vllmPort) ∧
      p.id ≠ "" := by
  unfold resolveSpec at found
  rw [closed, named] at found
  cases chosen : profile.bind cfg.catalog.get with
  | none => rw [chosen] at found; cases found
  | some p =>
    rw [chosen] at found
    obtain ⟨id, named', got⟩ := Option.bind_eq_some_iff.mp chosen
    have same := FleetCatalog.get_id got
    have nonempty : p.id ≠ "" := by
      rw [same]
      rw [named'] at named
      simpa [truthy] using named
    cases found
    exact ⟨p, same ▸ got, rfl, nonempty⟩

/-- A closed fleet admits a worker only under an allowed profile. -/
theorem checkProfile_allowed {req : RegisterRequest} {resolved : Option NodeSpec}
    {profileId : Option String} (closed : cfg.catalog.closed = true)
    (admitted : cfg.checkProfile req = .ok (resolved, profileId)) :
    ∃ p, profileId = some p.id ∧ cfg.catalog.get p.id = some p ∧ p.id ≠ "" := by
  unfold checkProfile at admitted
  rw [closed] at admitted
  cases named : truthy req.profile with
  | false => rw [named] at admitted; cases admitted
  | true =>
    rw [named] at admitted
    cases found : cfg.resolveSpec req.profile none with
    | error refusal => rw [found] at admitted; cases admitted
    | ok spec =>
      obtain ⟨p, got, rfl, nonempty⟩ := resolveSpec_profile closed named found
      rw [found] at admitted
      cases model : req.model with
      | none => rw [model] at admitted; cases admitted; exact ⟨p, rfl, got, nonempty⟩
      | some weights =>
        rw [model] at admitted
        by_cases same : (p.nodeSpec cfg.vllmPort).model ≠ weights
        · exact absurd admitted (by simp [same, bind, Except.bind])
        · simp only [bind, Except.bind, if_neg same] at admitted
          cases admitted
          exact ⟨p, rfl, got, nonempty⟩

/-- What a successful registration files. -/
theorem register_ok {reg reg' : Registry} {now : Rat} {credential : Credential}
    {req : RegisterRequest} {response : RegisterResponse}
    (accepted : cfg.register reg now credential req = .ok (reg', response)) :
    ∃ resolved profileId, cfg.checkProfile req = .ok (resolved, profileId) ∧
      reg' = reg.register now req.nodeId req.address req.state req.incarnation req.capabilities
        req.vllmPort req.model req.backend req.transport profileId := by
  unfold register at accepted
  split at accepted
  · cases accepted
  · split at accepted
    · cases accepted
    · cases admitted : cfg.checkProfile req with
      | error refusal => rw [admitted] at accepted; cases accepted
      | ok pair =>
        obtain ⟨resolved, profileId⟩ := pair
        rw [admitted] at accepted
        cases allowed : credential.mayRegister with
        | false => simp [allowed, bind, Except.bind] at accepted
        | true =>
          simp only [allowed, bind, Except.bind] at accepted
          cases accepted
          exact ⟨resolved, profileId, rfl, rfl⟩

/-- What an accepted heartbeat does to the registry. -/
theorem heartbeat_ok {reg reg' : Registry} {now : Rat} {credential : Credential}
    {req : HeartbeatRequest} {response : HeartbeatResponse}
    (accepted : cfg.heartbeat reg now credential req = .ok (reg', response)) :
    reg' = (reg.heartbeat now req.nodeId req.nodeState req.runState req.vllmPort
      req.maxConcurrentRequests req.tunnelRttMs).1 ∧
    response.known = (reg.heartbeat now req.nodeId req.nodeState req.runState req.vllmPort
      req.maxConcurrentRequests req.tunnelRttMs).2 := by
  unfold heartbeat at accepted
  split at accepted
  · cases accepted
  · cases accepted
    exact ⟨rfl, rfl⟩

end ControlConfig

end Oumigo
