import Oumigo.Router.Admission
import Oumigo.Router.Selection

/-!
# From a request's model to its worker or its error

The pool of `Oumigo.Router.Pool` with the requests that call it: each of `_forward`'s calls
of `acquire` belongs to one request, which knows what it asked for and how long it may queue.
`Routing.step` adds the clock: `wait_for` raises its `TimeoutError` no sooner than that.

`seen` and `arrived` record the pool and the time of a request's arrival, for statements
about it; no operation reads `seen`.
-/

namespace Oumigo

/-- What has become of a request. -/
inductive RoutedPhase where
  | queued
  /-- it holds a slot on the worker, or did -/
  | forwarded (record : NodeRecord)
  | answered (error : ModelError) (time : Rat)
  /-- the client has gone -/
  | cancelled

/-- A request that called `acquire`. -/
structure RoutedRequest where
  body : RequestBody
  /-- the id it names, if it names one -/
  model : Option String
  /-- the timeout of its `wait_for` -/
  seconds : Rat
  phase : RoutedPhase
  seen : WorkerPool
  arrived : Rat

/-- The pool, its requests by their calls, and the time. -/
structure RoutingState where
  pool : PoolState
  requests : List RoutedRequest
  clock : Rat

/-- One atomic step. -/
inductive RoutingEvent where
  | arrive (body : RequestBody)
  /-- the `acquire` of a queued request runs again -/
  | resume (c : CallId)
  /-- the timer of its `wait_for` -/
  | expire (c : CallId)
  /-- its client disconnects -/
  | disconnect (c : CallId)
  /-- its slot is released -/
  | release (c : CallId)
  | tick
  | environment (registry : Registry) (tunnels : Option TunnelRegistry)
  | wait (seconds : Rat)

namespace Routing

variable (cfg : RouterConfig) (reprFloat : Python.PyFloat → String)

/-- What the call of a request tells it, as its section ends. -/
def phaseOf (pool : WorkerPool) (model : Option String) (clock : Rat) :
    Option PoolCall → RoutedPhase
  | some ⟨_, .returned record⟩ => .forwarded record
  | some ⟨_, .suspended _⟩ => .queued
  | _ => .answered (cfg.notReady pool model) clock

/-- A request that calls `acquire`, once its call's first section has run. -/
def arrival (s : RoutingState) (body : RequestBody) (model : Option String) : RoutedRequest where
  body := body
  model := model
  seconds := cfg.waitSeconds (cfg.queueSeconds s.pool.pool model)
  phase := phaseOf cfg s.pool.pool model s.clock
    (s.pool.acquire (cfg.eligible model)).calls[s.pool.calls.length]?
  seen := s.pool.pool
  arrived := s.clock

/-- `_forward` up to the `await` of `acquire`, for a request that is not refused. -/
def enter (s : RoutingState) (body : RequestBody) (model : Option String) : RoutingState :=
  { s with
    pool := s.pool.acquire (cfg.eligible model)
    requests := s.requests ++ [arrival cfg s body model] }

/-- The phase of a request whose `await` raises or returns. -/
def resumed (model : Option String) (clock : Rat) :
    Except Asyncio.Interrupt NodeRecord → RoutedPhase
  | .ok record => .forwarded record
  | .error .timeout => .answered (RouterConfig.busy model) clock
  | .error .cancelled => .cancelled

/-- `acquire` runs again. -/
def resume (s : RoutingState) (c : CallId) : Option RoutingState :=
  match s.pool.calls[c]?, s.pool.resume c with
  | some ⟨_, .suspended w⟩, some pool =>
      w.resume.map fun outcome =>
        { s with
          pool := pool
          requests := s.requests.modify c fun req =>
            { req with phase := resumed req.model s.clock outcome } }
  | _, _ => none

/-- A step. -/
def step (s : RoutingState) : RoutingEvent → Option RoutingState
  | .arrive body =>
      match cfg.select reprFloat s.pool.pool.registry body with
      | .any => some (enter cfg s body none)
      | .named modelId => some (enter cfg s body (some modelId))
      | .notFound _ => some s
      | .typeError => some s
  | .resume c => resume s c
  | .expire c =>
      match s.requests[c]? with
      | some req =>
          if req.arrived + req.seconds ≤ s.clock then
            (s.pool.interrupt c .timeout).map fun pool => { s with pool }
          else none
      | none => none
  | .disconnect c => (s.pool.interrupt c .cancelled).map fun pool => { s with pool }
  | .release c => (s.pool.releaseHeld c).map fun pool => { s with pool }
  | .tick => some { s with pool := s.pool.tick }
  | .environment registry tunnels =>
      (s.pool.step (.environment registry tunnels)).map fun pool => { s with pool }
  | .wait seconds => if 0 ≤ seconds then some { s with clock := s.clock + seconds } else none

/-- Every course the requests of a fleet can take. -/
def system : Transition.System RoutingState RoutingEvent where
  init s := poolSystem.init s.pool ∧ s.requests = []
  step := step cfg reprFloat

end Routing

/-! ## What a section of the pool does to the other calls -/

namespace PoolState

variable {s s' s'' : PoolState} {c d : CallId} {eligible : Eligible} {r : NodeRecord}
  {l kept : List Waiter} {x x' : PoolCall}

/-- A call another section may have touched: it is as it was, or its future has its
worker. -/
inductive Drifts : PoolCall → PoolCall → Prop
  | same (x : PoolCall) : Drifts x x
  | granted (eligible : Eligible) (r : NodeRecord) :
    Drifts ⟨eligible, .suspended .pending⟩ ⟨eligible, .suspended (.resolved r)⟩

theorem Drifts.trans {x'' : PoolCall} (first : Drifts x x') (second : Drifts x' x'') :
    Drifts x x'' := by
  cases first with
  | same => exact second
  | granted eligible r => cases second with
    | same => exact .granted eligible r

theorem Drifts.eligible_eq (drifts : Drifts x x') : x'.eligible = x.eligible := by
  cases drifts <;> rfl

/-- Every call drifts from one state to the other. -/
def CallsDrift (s s' : PoolState) : Prop :=
  ∀ (c : CallId) (x : PoolCall), s.calls[c]? = some x →
    ∃ x', s'.calls[c]? = some x' ∧ Drifts x x'

theorem CallsDrift.of_calls_eq (same : s'.calls = s.calls) : CallsDrift s s' :=
  fun _ x found => ⟨x, by rw [same]; exact found, .same x⟩

theorem CallsDrift.trans (first : CallsDrift s s') (second : CallsDrift s' s'') :
    CallsDrift s s'' := by
  intro c x found
  obtain ⟨x', found', drifts⟩ := first c x found
  obtain ⟨x'', found'', drifts'⟩ := second c x' found'
  exact ⟨x'', found'', drifts.trans drifts'⟩

/-- Another call than the one that is set. -/
theorem getElem?_setCall_ne {call : Asyncio.Call NodeRecord} (other : d ≠ c) :
    (s.setCall c call).calls[d]? = s.calls[d]? := by
  rw [getElem?_setCall]
  simp [Ne.symm other]

theorem getElem?_setCall_self {call : Asyncio.Call NodeRecord} (found : s.calls[c]? = some x) :
    (s.setCall c call).calls[c]? = some { x with call := call } := by
  rw [getElem?_setCall, found]
  simp

theorem Promotes.drift (loop : Promotes s l s' kept) : CallsDrift s s' := by
  induction loop with
  | nil => exact .of_calls_eq rfl
  | skip _ _ ih => exact ih
  | @grant s _ w _ _ r waits _ _ ih =>
    refine CallsDrift.trans (fun d x found => ?_) ih
    obtain ⟨eligible, pending⟩ := futureDone_eq_false.mp waits
    by_cases same : d = w.call
    · subst same
      cases pending.symm.trans found
      exact ⟨_, getElem?_setCall_self found, .granted eligible r⟩
    · exact ⟨x, (getElem?_setCall_ne same).trans found, .same x⟩
  | keep _ _ _ ih => exact ih

theorem Promoted.drift (promoted : Promoted s s') : CallsDrift s s' := by
  obtain ⟨s₁, kept, loop, rfl⟩ := promoted
  exact loop.drift

theorem drift_release (s : PoolState) (n : NodeId) : CallsDrift s (s.release n) :=
  fun c x found => (promoted_release s n).drift c x found

theorem length_setCall {call : Asyncio.Call NodeRecord} :
    (s.setCall c call).calls.length = s.calls.length := List.length_modify ..

theorem length_release {n : NodeId} : (s.release n).calls.length = s.calls.length :=
  (promoted_release s n).length

/-- What the resumed call becomes, and how the others drift. -/
theorem resume_spec (run : s.resume c = some s') : ∃ eligible w outcome,
    s.calls[c]? = some ⟨eligible, .suspended w⟩ ∧ w.resume = some outcome ∧
    s'.calls.length = s.calls.length ∧
    (∀ d, d ≠ c → ∀ x, s.calls[d]? = some x → ∃ x', s'.calls[d]? = some x' ∧ Drifts x x') ∧
    ((∃ r, outcome = .ok r ∧ s'.calls[c]? = some ⟨eligible, .returned r⟩) ∨
      (∃ cause, outcome = .error cause ∧ s'.calls[c]? = some ⟨eligible, .ended⟩)) := by
  have others (call : Asyncio.Call NodeRecord) {t : PoolState}
      (drift : CallsDrift (s.setCall c call) t) (d : CallId) (other : d ≠ c) (x : PoolCall)
      (found : s.calls[d]? = some x) : ∃ x', t.calls[d]? = some x' ∧ Drifts x x' :=
    drift d x ((getElem?_setCall_ne other).trans found)
  obtain ⟨eligible, w, called, ⟨r, outcome, rfl⟩ | ⟨cause, outcome, left⟩⟩ := resume_cases run
  · refine ⟨eligible, w, _, called, outcome, length_setCall, others _ (.of_calls_eq rfl),
      Or.inl ⟨r, rfl, ?_⟩⟩
    exact getElem?_setCall_self called
  · have ended : (s.setCall c .ended).calls[c]? = some ⟨eligible, .ended⟩ :=
      getElem?_setCall_self called
    refine ⟨eligible, w, _, called, outcome, ?_, ?_, Or.inr ⟨cause, rfl, ?_⟩⟩
    · rcases left with ⟨_, rfl⟩ | ⟨_, ⟨r, _, rfl⟩ | ⟨_, rfl⟩⟩
      · exact length_setCall
      · exact length_release.trans length_setCall
      · exact length_setCall
    · rcases left with ⟨_, rfl⟩ | ⟨_, ⟨r, _, rfl⟩ | ⟨_, rfl⟩⟩
      · exact others .ended (.of_calls_eq rfl)
      · exact others .ended (drift_release _ _)
      · exact others .ended (.of_calls_eq rfl)
    · rcases left with ⟨_, rfl⟩ | ⟨_, ⟨r, _, rfl⟩ | ⟨_, rfl⟩⟩
      · exact ended
      · obtain ⟨x', found, drifts⟩ := drift_release _ r.nodeId c _ ended
        cases drifts with
        | same => exact found
      · exact ended

end PoolState

namespace Routing

open PoolState

/-! ## What holds of every request -/

/-- The same workers and tunnels, the same workers to choose from. -/
theorem serving_congr {p p' : WorkerPool} (registry : p'.registry = p.registry)
    (tunnels : p'.tunnels = p.tunnels) (eligible : Eligible) :
    p'.serving eligible = p.serving eligible := by
  unfold WorkerPool.serving WorkerPool.routable
  rw [registry, tunnels]

/-- A request, its call, and what has become of it. -/
structure Tracked (cfg : RouterConfig) (reprFloat : Python.PyFloat → String)
    (s : PoolState) (clock : Rat) (c : CallId) (req : RoutedRequest) : Prop where
  selected : cfg.select reprFloat req.seen.registry req.body =
    match req.model with
    | some modelId => .named modelId
    | none => .any
  seconds : req.seconds = cfg.waitSeconds (cfg.queueSeconds req.seen req.model)
  call : ∃ call, s.calls[c]? = some ⟨cfg.eligible req.model, call⟩ ∧
    (req.phase = .queued ↔ ∃ w, call = .suspended w) ∧
    ∀ w, call = .suspended w → w.resume = some (.error .timeout) →
      req.arrived + req.seconds ≤ clock
  ready : req.seen.serving (cfg.eligible req.model) = [] ↔
    req.phase = .answered (cfg.notReady req.seen req.model) req.arrived
  forwarded : ∀ record, req.phase = .forwarded record → ∃ g ∈ s.grants,
    g.call = c ∧ g.eligible = cfg.eligible req.model ∧ g.record = record
  answered : ∀ error time, req.phase = .answered error time →
    (req.seen.serving (cfg.eligible req.model) = [] ∧ error = cfg.notReady req.seen req.model) ∨
    (error = RouterConfig.busy req.model ∧ req.arrived + req.seconds ≤ time)

variable {cfg : RouterConfig} {reprFloat : Python.PyFloat → String} {s s' : RoutingState}
  {c d : CallId} {req : RoutedRequest} {event : RoutingEvent} {pool : WorkerPool}
  {model : Option String}

theorem notReady_code (cfg : RouterConfig) (pool : WorkerPool) (model : Option String) :
    (cfg.notReady pool model).code =
      if pool.registry.list.any fun record =>
        (cfg.eligible model).accepts record && RouterConfig.starting pool record
      then "model_loading" else "model_unavailable" := by
  unfold RouterConfig.notReady
  simp only [List.any_filter]
  split <;> rfl

theorem notReady_ne_busy : cfg.notReady pool model ≠ RouterConfig.busy model := by
  intro same
  have busy : (RouterConfig.busy model).code = "model_busy" := rfl
  have codes := congrArg ModelError.code same
  rw [notReady_code, busy] at codes
  split at codes <;> exact absurd codes (by decide)

/-- A request whose call drifts. -/
theorem Tracked.drift {pool pool' : PoolState} {clock clock' : Rat}
    (tracked : Tracked cfg reprFloat pool clock c req)
    (drifts : ∀ x, pool.calls[c]? = some x → ∃ x', pool'.calls[c]? = some x' ∧ Drifts x x')
    (grants : ∃ new, pool'.grants = pool.grants ++ new) (later : clock ≤ clock') :
    Tracked cfg reprFloat pool' clock' c req := by
  refine ⟨tracked.selected, tracked.seconds, ?_, tracked.ready, ?_, tracked.answered⟩
  · obtain ⟨call, called, queued, expired⟩ := tracked.call
    obtain ⟨x', called', drift⟩ := drifts _ called
    cases drift with
    | same =>
      exact ⟨call, called', queued, fun w same late => (expired w same late).trans later⟩
    | granted eligible r =>
      refine ⟨_, called', ?_, fun w same late => ?_⟩
      · rw [queued]
        exact ⟨fun _ => ⟨_, rfl⟩, fun _ => ⟨_, rfl⟩⟩
      · cases same
        cases late
  · intro record forwarded
    obtain ⟨g, member, source⟩ := tracked.forwarded record forwarded
    obtain ⟨new, eq⟩ := grants
    exact ⟨g, by simp [eq, member], source⟩

/-- Every request is tracked by its own call. -/
structure Inv (cfg : RouterConfig) (reprFloat : Python.PyFloat → String) (s : RoutingState) :
    Prop where
  length : s.requests.length = s.pool.calls.length
  tracked : ∀ (c : CallId) (req : RoutedRequest), s.requests[c]? = some req →
    Tracked cfg reprFloat s.pool s.clock c req

/-- A section of the pool that is no section of a request's own call. -/
theorem Inv.drift {pool : PoolState} {clock : Rat} (inv : Inv cfg reprFloat s)
    (length : pool.calls.length = s.pool.calls.length) (drift : CallsDrift s.pool pool)
    (grants : ∃ new, pool.grants = s.pool.grants ++ new) (later : s.clock ≤ clock) :
    Inv cfg reprFloat { s with pool := pool, clock := clock } where
  length := inv.length.trans length.symm
  tracked := fun c req found => (inv.tracked c req found).drift (drift c) grants later

/-- What a step does to the pool: it takes a step of its own, or none. -/
theorem pool_step (run : step cfg reprFloat s event = some s') :
    s'.pool = s.pool ∨ ∃ e, s.pool.step e = some s'.pool := by
  cases event with
  | arrive body =>
    simp only [step] at run
    split at run <;> cases run
    · exact Or.inr ⟨.acquire _, rfl⟩
    · exact Or.inr ⟨.acquire _, rfl⟩
    · exact Or.inl rfl
    · exact Or.inl rfl
  | resume c =>
    simp only [step, resume] at run
    split at run
    · next eligible w pool called resumed =>
      obtain ⟨outcome, _, rfl⟩ := Option.map_eq_some_iff.mp run
      exact Or.inr ⟨.resume c, resumed⟩
    · cases run
  | expire c =>
    simp only [step] at run
    split at run
    · split at run
      · obtain ⟨pool, interrupted, rfl⟩ := Option.map_eq_some_iff.mp run
        exact Or.inr ⟨.interrupt c .timeout, interrupted⟩
      · cases run
    · cases run
  | disconnect c =>
    obtain ⟨pool, interrupted, rfl⟩ := Option.map_eq_some_iff.mp run
    exact Or.inr ⟨.interrupt c .cancelled, interrupted⟩
  | release c =>
    obtain ⟨pool, released, rfl⟩ := Option.map_eq_some_iff.mp run
    exact Or.inr ⟨.release c, released⟩
  | tick =>
    cases run
    exact Or.inr ⟨.tick, rfl⟩
  | environment registry tunnels =>
    cases run
    exact Or.inr ⟨.environment registry tunnels, rfl⟩
  | wait seconds =>
    simp only [step] at run
    split at run
    · cases run
      exact Or.inl rfl
    · cases run

/-- The pool of a reached state is one the pool's own system reaches. -/
theorem pool_reachable (reached : (system cfg reprFloat).Reachable s) :
    poolSystem.Reachable s.pool := by
  induction reached with
  | init start => exact .init start.1
  | step _ _ run ih =>
    rcases pool_step run with same | ⟨e, moved⟩
    · rw [same]
      exact ih
    · exact .step ih trivial moved

/-- A step of the pool keeps the grants it made. -/
theorem grants_of_step {pool pool' : PoolState} {e : PoolEvent} (moved : pool.step e = some pool') :
    ∃ new, pool'.grants = pool.grants ++ new := by
  obtain ⟨new, grants, _⟩ := new_grants moved
  exact ⟨new, grants⟩

/-- **An arrival**: the new call has a worker, or waits, or there is nothing to wait for. -/
theorem acquire_spec (s : PoolState) (eligible : Eligible) :
    (s.acquire eligible).calls.length = s.calls.length + 1 ∧
    CallsDrift s (s.acquire eligible) ∧
    ∃ call, (s.acquire eligible).calls[s.calls.length]? = some ⟨eligible, call⟩ ∧
      ((∃ r, call = .returned r ∧ s.pool.serving eligible ≠ []) ∨
        (call = .ended ∧ s.pool.serving eligible = []) ∨
        (call = .suspended .pending ∧ s.pool.serving eligible ≠ [])) := by
  obtain ⟨s₁, promoted, outcome⟩ := s.acquire_cases eligible
  have length := promoted.length
  have serving : s₁.pool.serving eligible = s.pool.serving eligible := by
    obtain ⟨new, granted⟩ := promoted.granted
    exact serving_congr granted.fleet.registry granted.fleet.tunnels eligible
  -- the calls after the section, whatever the new one is
  have concat (x : PoolCall) {t : PoolState} (calls : t.calls = s₁.calls ++ [x]) :
      t.calls.length = s.calls.length + 1 ∧ CallsDrift s t ∧
        t.calls[s.calls.length]? = some x := by
    rw [calls, List.length_append, List.length_singleton, length]
    refine ⟨rfl, fun c y found => ?_, ?_⟩
    · obtain ⟨y', found', drifts⟩ := promoted.drift c y found
      refine ⟨y', ?_, drifts⟩
      rw [calls, List.getElem?_append_left (List.getElem?_eq_some_iff.mp found').1]
      exact found'
    · rw [← length, List.getElem?_concat_length]
  rw [← serving]
  rcases outcome with ⟨r, offered, result⟩ | ⟨_, nobody, result⟩ | ⟨_, somebody, result⟩
  · have calls : (s.acquire eligible).calls = s₁.calls ++ [⟨eligible, .returned r⟩] := by
      rw [result]
    obtain ⟨total, drift, here⟩ := concat _ calls
    refine ⟨total, drift, _, here, Or.inl ⟨r, rfl, fun nobody => ?_⟩⟩
    obtain ⟨listed, routable, accepted, _⟩ := WorkerPool.mem_available.mp offered
    have member : r ∈ s₁.pool.serving eligible :=
      List.mem_filter.mpr ⟨listed, by rw [routable, accepted]; rfl⟩
    rw [nobody] at member
    cases member
  · have calls : (s.acquire eligible).calls = s₁.calls ++ [⟨eligible, .ended⟩] := by rw [result]
    obtain ⟨total, drift, here⟩ := concat _ calls
    exact ⟨total, drift, _, here, Or.inr (Or.inl ⟨rfl, nobody⟩)⟩
  · have calls : (s.acquire eligible).calls =
        s₁.calls ++ [⟨eligible, .suspended .pending⟩] := by rw [result]
    obtain ⟨total, drift, here⟩ := concat _ calls
    exact ⟨total, drift, _, here, Or.inr (Or.inr ⟨rfl, somebody⟩)⟩

/-- The request that arrives. -/
theorem Tracked.arrival {body : RequestBody}
    (selected : cfg.select reprFloat s.pool.pool.registry body =
      match model with
      | some modelId => .named modelId
      | none => .any)
    (books : (s.pool.acquire (cfg.eligible model)).Inv) :
    Tracked cfg reprFloat (s.pool.acquire (cfg.eligible model)) s.clock s.pool.calls.length
      (arrival cfg s body model) := by
  obtain ⟨_, _, call, called, outcome⟩ := acquire_spec s.pool (cfg.eligible model)
  have told : (Routing.arrival cfg s body model).phase =
      phaseOf cfg s.pool.pool model s.clock (some ⟨cfg.eligible model, call⟩) := by
    rw [← called]
    rfl
  rcases outcome with ⟨r, rfl, somebody⟩ | ⟨rfl, nobody⟩ | ⟨rfl, somebody⟩
  · -- there was a free slot
    have phase : (Routing.arrival cfg s body model).phase = .forwarded r := told
    refine ⟨selected, rfl, ⟨_, called, ?_, fun _ same => nomatch same⟩, ?_, ?_, ?_⟩
    · rw [phase]
      exact ⟨(nomatch ·), fun ⟨_, same⟩ => nomatch same⟩
    · rw [phase]
      exact ⟨fun nobody => absurd nobody somebody, (nomatch ·)⟩
    · intro record forwarded
      rw [phase] at forwarded
      cases forwarded
      exact books.granted _ _ _ _ called rfl
    · intro error time same
      rw [phase] at same
      cases same
  · -- nobody to wait for
    have phase : (Routing.arrival cfg s body model).phase =
        .answered (cfg.notReady s.pool.pool model) s.clock := told
    refine ⟨selected, rfl, ⟨_, called, ?_, fun _ same => nomatch same⟩, ?_, ?_, ?_⟩
    · rw [phase]
      exact ⟨(nomatch ·), fun ⟨_, same⟩ => nomatch same⟩
    · rw [phase]
      exact ⟨fun _ => rfl, fun _ => nobody⟩
    · intro record forwarded
      rw [phase] at forwarded
      cases forwarded
    · intro error time same
      rw [phase] at same
      cases same
      exact Or.inl ⟨nobody, rfl⟩
  · -- it waits
    have phase : (Routing.arrival cfg s body model).phase = .queued := told
    refine ⟨selected, rfl, ⟨_, called, ?_, ?_⟩, ?_, ?_, ?_⟩
    · rw [phase]
      exact ⟨fun _ => ⟨_, rfl⟩, fun _ => rfl⟩
    · intro w same late
      cases same
      cases late
    · rw [phase]
      exact ⟨fun nobody => absurd nobody somebody, (nomatch ·)⟩
    · intro record forwarded
      rw [phase] at forwarded
      cases forwarded
    · intro error time same
      rw [phase] at same
      cases same

/-- A request is admitted. -/
theorem Inv.enter {body : RequestBody} (inv : Inv cfg reprFloat s) (model : Option String)
    (selected : cfg.select reprFloat s.pool.pool.registry body =
      match model with
      | some modelId => .named modelId
      | none => .any)
    (books : (s.pool.acquire (cfg.eligible model)).Inv) :
    Inv cfg reprFloat (enter cfg s body model) := by
  obtain ⟨length, drift, _⟩ := acquire_spec s.pool (cfg.eligible model)
  have grants : ∃ new, (s.pool.acquire (cfg.eligible model)).grants = s.pool.grants ++ new :=
    grants_of_step (e := .acquire (cfg.eligible model)) rfl
  refine ⟨?_, fun c req found => ?_⟩
  · calc (s.requests ++ [arrival cfg s body model]).length
        = s.pool.calls.length + 1 := by
          rw [List.length_append, List.length_singleton, inv.length]
      _ = _ := length.symm
  · rcases Deque.getElem?_concat_cases found with before | ⟨rfl, eq⟩
    · exact (inv.tracked c req before).drift (drift c) grants (le_refl _)
    · rw [eq, inv.length]
      exact .arrival selected books

/-- The request whose call runs again. -/
theorem Tracked.resumed {w : Asyncio.WaitFor NodeRecord} {eligible : Eligible}
    {outcome : Except Asyncio.Interrupt NodeRecord} {pool : PoolState}
    (tracked : Tracked cfg reprFloat s.pool s.clock c req)
    (called : s.pool.calls[c]? = some ⟨eligible, .suspended w⟩)
    (back : w.resume = some outcome)
    (after : ∃ call, pool.calls[c]? = some ⟨eligible, call⟩ ∧ ∀ w, call ≠ .suspended w)
    (granted : ∀ r, outcome = .ok r → ∃ g ∈ pool.grants,
      g.call = c ∧ g.eligible = eligible ∧ g.record = r) :
    Tracked cfg reprFloat pool s.clock c
      { req with phase := resumed req.model s.clock outcome } := by
  obtain ⟨call, here, queued, expired⟩ := tracked.call
  cases called.symm.trans here
  obtain ⟨call', called', settled⟩ := after
  have waiting : req.phase = .queued := queued.mpr ⟨w, rfl⟩
  have somebody : req.seen.serving (cfg.eligible req.model) ≠ [] := by
    intro nobody
    have phase := tracked.ready.mp nobody
    rw [waiting] at phase
    cases phase
  refine ⟨tracked.selected, tracked.seconds, ⟨call', called', ?_, ?_⟩, ?_, ?_, ?_⟩
  · refine ⟨fun same => ?_, fun ⟨w', same⟩ => absurd same (settled w')⟩
    rcases outcome with (_ | _) | r <;> cases same
  · exact fun w' same => absurd same (settled w')
  · refine ⟨fun nobody => absurd nobody somebody, fun same => ?_⟩
    rcases outcome with (_ | _) | r
    · injection same with codes
      exact absurd codes.symm notReady_ne_busy
    · cases same
    · cases same
  · intro record forwarded
    rcases outcome with (_ | _) | r <;> cases forwarded
    exact granted record rfl
  · intro error time same
    rcases outcome with (_ | _) | r <;> cases same
    exact Or.inr ⟨rfl, expired w rfl back⟩

theorem Inv.resume (inv : Inv cfg reprFloat s) (books : s.pool.Inv)
    (run : resume s c = some s') : Inv cfg reprFloat s' := by
  simp only [Routing.resume] at run
  split at run
  · next eligible w pool called moved =>
    obtain ⟨outcome, back, rfl⟩ := Option.map_eq_some_iff.mp run
    obtain ⟨eligible', w', outcome', called', back', length, others, own⟩ := resume_spec moved
    cases called.symm.trans called'
    cases back.symm.trans back'
    obtain ⟨new, grants⟩ := grants_of_step (e := .resume c) moved
    refine ⟨?_, fun d req found => ?_⟩
    · calc (s.requests.modify c _).length
          = s.pool.calls.length := (List.length_modify ..).trans inv.length
        _ = _ := length.symm
    · rw [List.getElem?_modify] at found
      obtain ⟨before, known, eq⟩ := Option.map_eq_some_iff.mp found
      by_cases same : c = d
      · subst same
        rw [if_pos rfl] at eq
        subst eq
        refine (inv.tracked c before known).resumed called back ?_ fun r same => ?_
        · rcases own with ⟨r, _, ended⟩ | ⟨cause, _, ended⟩
          · exact ⟨_, ended, fun _ same => nomatch same⟩
          · exact ⟨_, ended, fun _ same => nomatch same⟩
        · subst same
          obtain ⟨g, member, source⟩ := books.granted c eligible _ r called
            (Asyncio.WaitFor.result?_of_resume_ok back)
          exact ⟨g, by simp [grants, member], source⟩
      · rw [if_neg same] at eq
        subst eq
        exact (inv.tracked d _ known).drift (others d (Ne.symm same)) ⟨new, grants⟩ (le_refl _)
  · cases run

/-- A timeout or a cancellation reaches a queued request; a timeout no sooner than it may. -/
theorem Inv.interrupt {cause : Asyncio.Interrupt} {pool : PoolState}
    (inv : Inv cfg reprFloat s) (run : s.pool.interrupt c cause = some pool)
    (due : ∀ req, s.requests[c]? = some req → cause = .timeout →
      req.arrived + req.seconds ≤ s.clock) :
    Inv cfg reprFloat { s with pool } := by
  obtain ⟨eligible, w, called, rfl⟩ := interrupt_cases run
  refine ⟨inv.length.trans length_setCall.symm, fun d req found => ?_⟩
  have tracked := inv.tracked d req found
  by_cases same : d = c
  · subst same
    obtain ⟨call, here, queued, expired⟩ := tracked.call
    cases called.symm.trans here
    refine ⟨tracked.selected, tracked.seconds,
      ⟨_, getElem?_setCall_self called, ?_, ?_⟩, tracked.ready, tracked.forwarded,
      tracked.answered⟩
    · rw [queued]
      exact ⟨fun _ => ⟨_, rfl⟩, fun _ => ⟨_, rfl⟩⟩
    · intro w' same late
      cases same
      exact due req found (Asyncio.WaitFor.timeout_of_resume_interrupt late)
  · exact tracked.drift (fun x found => ⟨x, (getElem?_setCall_ne same).trans found, .same x⟩)
      ⟨[], (List.append_nil _).symm⟩ (le_refl _)

/-- The caller that holds a slot gives it back; its request was forwarded. -/
theorem Inv.release {pool : PoolState} (inv : Inv cfg reprFloat s)
    (run : s.pool.releaseHeld c = some pool) : Inv cfg reprFloat { s with pool } := by
  obtain ⟨eligible, r, called, rfl⟩ := releaseHeld_cases run
  obtain ⟨new, grants⟩ := grants_of_step (e := .release c) run
  refine ⟨inv.length.trans (length_release.trans length_setCall).symm, fun d req found => ?_⟩
  have tracked := inv.tracked d req found
  have drifts := drift_release (s.pool.setCall c .ended) r.nodeId
  by_cases same : d = c
  · subst same
    obtain ⟨call, here, queued, _⟩ := tracked.call
    cases called.symm.trans here
    obtain ⟨x', found', drift⟩ := drifts d _ (getElem?_setCall_self called)
    cases drift
    refine ⟨tracked.selected, tracked.seconds, ⟨_, found', ?_, fun _ same => nomatch same⟩,
      tracked.ready, fun record forwarded => ?_, tracked.answered⟩
    · rw [queued]
      exact ⟨fun ⟨_, same⟩ => (nomatch same), fun ⟨_, same⟩ => nomatch same⟩
    · obtain ⟨g, member, source⟩ := tracked.forwarded record forwarded
      exact ⟨g, by simp [grants, member], source⟩
  · exact tracked.drift (fun x found => drifts d x ((getElem?_setCall_ne same).trans found))
      ⟨new, grants⟩ (le_refl _)

/-- **One step** keeps every request with its call. -/
theorem Inv.step (inv : Inv cfg reprFloat s) (reached : (system cfg reprFloat).Reachable s)
    (run : step cfg reprFloat s event = some s') : Inv cfg reprFloat s' := by
  have books := inv_of_reachable (pool_reachable reached)
  have later (eligible : Eligible) : (s.pool.acquire eligible).Inv :=
    inv_step books (e := .acquire eligible) rfl
  cases event with
  | arrive body =>
    simp only [Routing.step] at run
    split at run <;> cases run
    · next selected => exact inv.enter none selected (later _)
    · next modelId selected => exact inv.enter (some modelId) selected (later _)
    · exact inv
    · exact inv
  | resume c => exact inv.resume books run
  | expire c =>
    simp only [Routing.step] at run
    split at run
    · next req found =>
      split at run
      · next due =>
        obtain ⟨pool, interrupted, rfl⟩ := Option.map_eq_some_iff.mp run
        refine inv.interrupt interrupted fun req' found' _ => ?_
        cases found.symm.trans found'
        exact due
      · cases run
    · cases run
  | disconnect c =>
    obtain ⟨pool, interrupted, rfl⟩ := Option.map_eq_some_iff.mp run
    exact inv.interrupt interrupted fun _ _ same => nomatch same
  | release c =>
    obtain ⟨pool, released, rfl⟩ := Option.map_eq_some_iff.mp run
    exact inv.release released
  | tick =>
    cases run
    have promoted := promoted_tick s.pool
    exact inv.drift promoted.length promoted.drift (grants_of_step (e := .tick) rfl) (le_refl _)
  | environment registry tunnels =>
    cases run
    exact inv.drift rfl (.of_calls_eq rfl) ⟨[], (List.append_nil _).symm⟩ (le_refl _)
  | wait seconds =>
    simp only [Routing.step] at run
    split at run
    · next ahead =>
      cases run
      refine inv.drift rfl (.of_calls_eq rfl) ⟨[], (List.append_nil _).symm⟩ ?_
      simpa using ahead
    · cases run

/-- Every request of a reached state is tracked. -/
theorem inv_of_reachable (reached : (system cfg reprFloat).Reachable s) :
    Inv cfg reprFloat s := by
  induction reached with
  | init start =>
    obtain ⟨⟨_, _, _, _, same⟩, nobody⟩ := start
    refine ⟨by rw [same, nobody]; rfl, fun c req found => ?_⟩
    rw [nobody] at found
    cases found
  | step reached _ run ih => exact ih.step reached run

end Routing

end Oumigo
