import Oumigo.Router.ModelSteps

/-!
# Models do not delay one another

`course` runs a list of events and notes, for each of them, the requests that were granted a
slot at it.  `models_isolated` compares a run with the one that is left when every event of the
other models is deleted, whatever the random generator draws in either: the view of the model
is the same in both after every event that is left (`Alike.step_own`), and the events that are
deleted do not change it (`Alike.step_other`).
-/

namespace Oumigo

namespace CallerPool

/-- The requests granted a slot between the two states, in order. -/
def newlyGranted (n n' : CallerPool) : List Caller :=
  (n'.state.grants.drop n.state.grants.length).filterMap fun g => n'.callers[g.call]?

/-- A run: its events, each with the requests it grants a slot. -/
def course (cfg : RouterConfig) (n : CallerPool) :
    List CallerEvent → Option (List (CallerEvent × List Caller))
  | [] => some []
  | e :: rest =>
      (step cfg n e).bind fun n' => (course cfg n' rest).map ((e, newlyGranted n n') :: ·)

/-- A new pool that nobody has called. -/
def start (registry : Registry) (defaultCapacity : Nat) (rng : List Nat)
    (tunnels : Option TunnelRegistry) : CallerPool :=
  ⟨.initial (.new registry defaultCapacity rng tunnels), []⟩

variable {cfg : RouterConfig} {modelId : String} {n n' m m' : CallerPool} {e : CallerEvent}

/-! ## What a step adds -/

/-- What a step adds to the requests and to the grants, and what it keeps. -/
structure Frame (cfg : RouterConfig) (n : CallerPool) (e : CallerEvent) (n' : CallerPool) :
    Prop where
  callers : ∃ more, n'.callers = n.callers ++ more ∧ ∀ a ∈ more, e.caller = some a
  grants : ∃ new, n'.state.grants = n.state.grants ++ new
  workers : n'.state.pool.workers cfg = n.state.pool.workers cfg
  capacity : n'.state.pool.defaultCapacity = n.state.pool.defaultCapacity

theorem Frame.of_pool {state : PoolState} {more : List Caller} (event : PoolEvent)
    (run : n.state.step event = some state)
    (inside : ∀ reg tunnels, event ≠ .environment reg tunnels)
    (about : ∀ a ∈ more, e.caller = some a) : Frame cfg n e ⟨state, n.callers ++ more⟩ := by
  obtain ⟨new, granted⟩ := PoolState.granted_step run inside
  exact ⟨⟨more, rfl, about⟩, ⟨new, granted.grants⟩, granted.fleet.workers,
    granted.fleet.defaultCapacity⟩

theorem frame (run : step cfg n e = some n') : Frame cfg n e n' := by
  have alone {state : PoolState} (event : PoolEvent) (run : n.state.step event = some state)
      (inside : ∀ reg tunnels, event ≠ .environment reg tunnels) :
      Frame cfg n e { n with state } := by
    have nobody : ∀ a ∈ ([] : List Caller), e.caller = some a := fun _ member => nomatch member
    have here : Frame cfg n e ⟨state, n.callers ++ []⟩ := .of_pool event run inside nobody
    rw [List.append_nil] at here
    exact here
  cases e with
  | acquire a =>
    simp only [step] at run
    split at run
    · cases run
    · cases run
      refine .of_pool (.acquire _) rfl (by simp) fun b member => ?_
      rw [List.mem_singleton.mp member]
      rfl
  | resume a =>
    obtain ⟨state, moved, rfl⟩ := Option.map_eq_some_iff.mp run
    exact alone (.resume _) moved (by simp)
  | interrupt a cause =>
    obtain ⟨state, moved, rfl⟩ := Option.map_eq_some_iff.mp run
    exact alone (.interrupt _ cause) moved (by simp)
  | release a =>
    obtain ⟨state, moved, rfl⟩ := Option.map_eq_some_iff.mp run
    exact alone (.release _) moved (by simp)
  | tick =>
    cases run
    exact alone .tick rfl (by simp)
  | environment registry tunnels =>
    simp only [step] at run
    split at run
    · next same =>
      cases run
      exact ⟨⟨[], (List.append_nil _).symm, fun _ member => nomatch member⟩,
        ⟨[], (List.append_nil _).symm⟩, same, rfl⟩
    · cases run

/-- The view's grants are those of the step to the model's requests. -/
theorem Frame.granted (frame : Frame cfg n e n') (inv : n.Inv cfg) :
    (n'.view cfg modelId).granted = (n.view cfg modelId).granted ++
      (newlyGranted n n').filter (·.modelId = modelId) := by
  obtain ⟨more, callers, _⟩ := frame.callers
  obtain ⟨new, grants⟩ := frame.grants
  have earlier : n.state.grants.filterMap (fun g => ownCaller modelId n'.callers g.call) =
      n.state.grants.filterMap fun g => ownCaller modelId n.callers g.call := by
    apply List.filterMap_congr
    intro g member
    obtain ⟨x, called, _⟩ := inv.books.answered g member
    have inside := Deque.lt_length_of_some called
    unfold ownCaller
    rw [callers, List.getElem?_append_left (inv.length ▸ inside)]
  have recent : newlyGranted n n' = new.filterMap fun g => n'.callers[g.call]? := by
    unfold newlyGranted
    rw [grants, List.drop_left]
  rw [recent, List.filter_filterMap]
  change n'.state.grants.filterMap _ = _
  rw [grants, List.filterMap_append, earlier]
  rfl

theorem inv_start (cfg : RouterConfig) (registry : Registry) (defaultCapacity : Nat)
    (rng : List Nat) (tunnels : Option TunnelRegistry) :
    (start registry defaultCapacity rng tunnels).Inv cfg where
  books := PoolState.inv_initial
  distinct := List.nodup_nil
  eligible := rfl
  fleet := fun _ member => nomatch member
  bounded := fun _ _ _ _ => Nat.zero_le _

/-! ## Two runs side by side -/

/-- The two pools look alike to the model's requests; the second has no others. -/
structure Alike (cfg : RouterConfig) (modelId : String) (n m : CallerPool) : Prop where
  left : n.Inv cfg
  right : m.Inv cfg
  view : n.view cfg modelId = m.view cfg modelId
  settled : (n.view cfg modelId).Settled
  workers : n.state.pool.workers cfg = m.state.pool.workers cfg
  capacity : n.state.pool.defaultCapacity = m.state.pool.defaultCapacity
  own : ∀ a ∈ m.callers, a.modelId = modelId

/-- An event of another model, in the first run only. -/
theorem Alike.step_other (alike : Alike cfg modelId n m) (other : e.concerns modelId = false)
    (run : step cfg n e = some n') :
    Alike cfg modelId n' m ∧ ∀ a ∈ newlyGranted n n', a.modelId ≠ modelId := by
  have same := alike.left.view_step_other alike.settled other run
  have here := frame run
  refine ⟨⟨alike.left.step run, alike.right, same.trans alike.view, ?_,
    here.workers.trans alike.workers, here.capacity.trans alike.capacity, alike.own⟩, ?_⟩
  · rw [same]
    exact alike.settled
  · have granted : (n'.view cfg modelId).granted = _ := here.granted alike.left
    rw [same] at granted
    have nobody := List.self_eq_append_right.mp granted
    intro a member own
    exact List.filter_eq_nil_iff.mp nobody a member (decide_eq_true own)

/-- What the workers are depends on the registry, the tunnels and the default. -/
theorem workers_outside {p p' : WorkerPool} (same : p.defaultCapacity = p'.defaultCapacity)
    (registry : Registry) (tunnels : Option TunnelRegistry) :
    ({ p with registry, tunnels } : WorkerPool).workers cfg =
      ({ p' with registry, tunnels } : WorkerPool).workers cfg := by
  unfold WorkerPool.workers WorkerPool.capacity
  dsimp only
  rw [same]
  rfl

/-- An event of the model, in both runs. -/
theorem Alike.step_own (alike : Alike cfg modelId n m) (concerns : e.concerns modelId = true)
    (run : step cfg n e = some n') : ∃ m', step cfg m e = some m' ∧ Alike cfg modelId n' m' ∧
      newlyGranted m m' = (newlyGranted n n').filter (·.modelId = modelId) := by
  have moved := alike.left.view_step_own alike.settled concerns run
  have settled : (m.view cfg modelId).Settled := alike.view ▸ alike.settled
  have enabled : ∃ m', step cfg m e = some m' := by
    by_cases outside : ∃ registry tunnels, e = .environment registry tunnels
    · obtain ⟨registry, tunnels, rfl⟩ := outside
      simp only [step] at run
      split at run
      · next same =>
        have there := (workers_outside alike.capacity registry tunnels).symm.trans same
        rw [alike.workers] at there
        exact ⟨_, if_pos there⟩
      · cases run
    · have possible : (m.view cfg modelId).step e.operation = some (n'.view cfg modelId) := by
        rw [← alike.view]
        exact moved
      exact alike.right.enabled concerns (fun registry tunnels same =>
        outside ⟨registry, tunnels, same⟩) possible
  obtain ⟨m', run'⟩ := enabled
  have moved' := alike.right.view_step_own settled concerns run'
  rw [← alike.view, moved] at moved'
  have view := Option.some.inj moved'
  have here := frame run
  have there := frame run'
  have own : ∀ a ∈ m'.callers, a.modelId = modelId := by
    obtain ⟨more, callers, about⟩ := there.callers
    intro a member
    rw [callers] at member
    rcases List.mem_append.mp member with old | new
    · exact alike.own a old
    · exact own_of_concerns concerns (about a new)
  refine ⟨m', run', ⟨alike.left.step run, alike.right.step run', view,
    alike.settled.step moved, ?_, ?_, own⟩, ?_⟩
  · rw [here.workers, there.workers, alike.workers]
  · rw [here.capacity, there.capacity, alike.capacity]
  · have granted : (n'.view cfg modelId).granted = _ := here.granted alike.left
    have granted' : (m'.view cfg modelId).granted = _ := there.granted alike.right
    rw [← view, ← alike.view, granted] at granted'
    rw [List.append_cancel_left granted']
    symm
    refine List.filter_eq_self.mpr fun a member => decide_eq_true ?_
    obtain ⟨g, _, known⟩ := List.mem_filterMap.mp member
    exact own a (List.mem_of_getElem? known)

/-- Two runs from pools that look alike. -/
theorem Alike.course (alike : Alike cfg modelId n m) {events : List CallerEvent}
    {log : List (CallerEvent × List Caller)} (run : CallerPool.course cfg n events = some log) :
    CallerPool.course cfg m (events.filter (·.concerns modelId)) =
        some ((log.filter (·.1.concerns modelId)).map fun entry =>
          (entry.1, entry.2.filter (·.modelId = modelId))) ∧
      ∀ entry ∈ log, entry.1.concerns modelId = false → ∀ a ∈ entry.2, a.modelId ≠ modelId := by
  induction events generalizing n m log with
  | nil =>
    cases run
    exact ⟨rfl, fun _ member => nomatch member⟩
  | cons e rest ih =>
    obtain ⟨n', moved, later⟩ := Option.bind_eq_some_iff.mp run
    obtain ⟨log', tail, rfl⟩ := Option.map_eq_some_iff.mp later
    cases concerns : e.concerns modelId with
    | true =>
      obtain ⟨m', moved', alike', granted⟩ := alike.step_own concerns moved
      obtain ⟨same, others⟩ := ih alike' tail
      refine ⟨?_, fun entry member outside => ?_⟩
      · rw [List.filter_cons_of_pos concerns, List.filter_cons_of_pos (by exact concerns)]
        unfold CallerPool.course
        rw [moved', Option.bind_some, same, granted]
        rfl
      · rcases List.mem_cons.mp member with rfl | member
        · rw [concerns] at outside
          cases outside
        · exact others entry member outside
    | false =>
      obtain ⟨alike', nobody⟩ := alike.step_other concerns moved
      obtain ⟨same, others⟩ := ih alike' tail
      have dropped : ¬ e.concerns modelId = true := by simp [concerns]
      refine ⟨?_, fun entry member outside => ?_⟩
      · rw [List.filter_cons_of_neg dropped, List.filter_cons_of_neg (by exact dropped)]
        exact same
      · rcases List.mem_cons.mp member with rfl | member
        · exact nobody
        · exact others entry member outside

end CallerPool

open CallerPool in
/-- **Models do not delay one another.**  Of any run in which every request names a model, over
workers that stay as they are, delete every event of the other models: what is left is a run,
it grants the same requests of the model at the same events in the same order, whatever the two
runs draw, and the deleted events grant none of them. -/
theorem models_isolated (cfg : RouterConfig) (modelId : String) (registry : Registry)
    (defaultCapacity : Nat) (tunnels : Option TunnelRegistry) (rng rng' : List Nat)
    (events : List CallerEvent) (log : List (CallerEvent × List Caller))
    (run : course cfg (start registry defaultCapacity rng tunnels) events = some log) :
    course cfg (start registry defaultCapacity rng' tunnels)
        (events.filter (·.concerns modelId)) =
      some ((log.filter (·.1.concerns modelId)).map fun entry =>
        (entry.1, entry.2.filter (·.modelId = modelId))) ∧
    ∀ entry ∈ log, entry.1.concerns modelId = false → ∀ a ∈ entry.2, a.modelId ≠ modelId := by
  have alike : Alike cfg modelId (start registry defaultCapacity rng tunnels)
      (start registry defaultCapacity rng' tunnels) :=
    ⟨inv_start .., inv_start .., rfl, Or.inr rfl, rfl, rfl, fun _ member => nomatch member⟩
  exact alike.course run

/-- A fleet of two models, one worker each. -/
def twoModels : Registry :=
  (Registry.empty.register 0 "a" "10.0.0.1" .serving 0 ⟨none, none⟩ (some 7001) (some "m")
    none .direct none).register 0 "b" "10.0.0.2" .serving 0 ⟨none, none⟩ (some 7001) (some "k")
    none .direct none

/-- A fleet without a catalog, as the router was given it. -/
def noCatalog : RouterConfig where
  catalog := none
  nodeSpec := none

/-- Three requests for `m` share its slot while one for `k` comes and goes. -/
def shared : List CallerEvent :=
  [.acquire ⟨0, "m"⟩, .acquire ⟨1, "k"⟩, .acquire ⟨2, "m"⟩, .acquire ⟨3, "m"⟩,
    .release ⟨1, "k"⟩, .interrupt ⟨2, "m"⟩ .timeout, .release ⟨0, "m"⟩, .tick]

/-- The last of them is granted the slot that the first gives back, with and without `k`. -/
theorem models_isolated_shared :
    CallerPool.course noCatalog (CallerPool.start twoModels 1 [] none)
        (shared.filter (·.concerns "m")) =
      some [(.acquire ⟨0, "m"⟩, [⟨0, "m"⟩]), (.acquire ⟨2, "m"⟩, []), (.acquire ⟨3, "m"⟩, []),
        (.interrupt ⟨2, "m"⟩ .timeout, []), (.release ⟨0, "m"⟩, [⟨3, "m"⟩]), (.tick, [])] :=
  (models_isolated noCatalog "m" twoModels 1 none [5, 7] [] shared _ rfl).1

end Oumigo
