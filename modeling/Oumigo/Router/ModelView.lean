import Oumigo.Foundation.Semaphore
import Oumigo.Router.ModelSlots

/-!
# The pool as one model's requests see it

`CallerPool` is the pool with the requests of its calls, each of which names a model.  Its
`view` for one model forgets everything but that model's requests and the number of its free
slots, and is a `Semaphore`: what the pool does for a request of the model is what the
semaphore does (`view_step_own`), and what it does for any other request only settles it
(`view_step_other`).
-/

namespace Oumigo

/-- A request and the model it names. -/
structure Caller where
  number : Nat
  modelId : String
  deriving DecidableEq, Repr

/-- The pool and, by their calls, the requests that called `acquire`. -/
structure CallerPool where
  state : PoolState
  callers : List Caller

/-- One atomic step. -/
inductive CallerEvent where
  | acquire (a : Caller)
  | resume (a : Caller)
  | interrupt (a : Caller) (cause : Asyncio.Interrupt)
  | release (a : Caller)
  | tick
  /-- heartbeats that change neither a capacity nor who is routable -/
  | environment (registry : Registry) (tunnels : Option TunnelRegistry)

namespace CallerPool

variable (cfg : RouterConfig)

def step (n : CallerPool) : CallerEvent → Option CallerPool
  | .acquire a =>
      if a ∈ n.callers then none
      else some ⟨n.state.acquire (cfg.eligible (some a.modelId)), n.callers ++ [a]⟩
  | .resume a => (n.state.resume (n.callers.idxOf a)).map fun state => { n with state }
  | .interrupt a cause =>
      (n.state.interrupt (n.callers.idxOf a) cause).map fun state => { n with state }
  | .release a => (n.state.releaseHeld (n.callers.idxOf a)).map fun state => { n with state }
  | .tick => some { n with state := n.state.tick }
  | .environment registry tunnels =>
      let pool := { n.state.pool with registry, tunnels }
      if pool.workers cfg = n.state.pool.workers cfg then
        some { n with state := { n.state with pool } }
      else none

end CallerPool

/-! ## The view -/

section View

variable (cfg : RouterConfig) (modelId : String) (callers : List Caller) (s : PoolState)

/-- The request of a call, if it names the model. -/
def ownCaller (c : CallId) : Option Caller := callers[c]?.filter (·.modelId = modelId)

/-- The requests for the model among the waiters whose futures are not done. -/
def ownQueue (l : List Waiter) : List Caller :=
  l.filterMap fun w => if s.futureDone w.call then none else ownCaller modelId callers w.call

/-- The call of a request, without its worker. -/
def ownCall (a : Caller) : Option (Asyncio.Call Unit) :=
  if a.modelId = modelId then
    s.calls[callers.idxOf a]?.map fun x => x.call.map fun _ => ()
  else none

/-- What the pool is to the requests for the model. -/
def view : Semaphore Caller where
  free := s.pool.freeSlots cfg modelId
  alive := !(s.pool.workersOf cfg modelId).isEmpty
  calls := ownCall modelId callers s
  waiting := ownQueue modelId callers s s.pool.waiters
  granted := s.grants.filterMap fun g => ownCaller modelId callers g.call

end View

variable {cfg : RouterConfig} {modelId : String} {callers : List Caller} {s s' : PoolState}
  {a b : Caller} {c : CallId} {x : PoolCall} {call : Asyncio.Call NodeRecord} {r : NodeRecord}
  {w : Waiter} {l kept : List Waiter}

theorem ownCaller_eq_some : ownCaller modelId callers c = some a ↔
    callers[c]? = some a ∧ a.modelId = modelId := by
  simp [ownCaller, Option.filter_eq_some_iff]

theorem ownCaller_eq_none (known : callers[c]? = some a) (other : a.modelId ≠ modelId) :
    ownCaller modelId callers c = none := by
  simp [ownCaller, known, other]

theorem idxOf_caller (distinct : callers.Nodup) (known : callers[c]? = some a) :
    callers.idxOf a = c := by
  obtain ⟨inside, here⟩ := List.getElem?_eq_some_iff.mp known
  rw [← here]
  exact distinct.idxOf_getElem c inside

theorem ownCall_eq (distinct : callers.Nodup) (known : callers[c]? = some a)
    (own : a.modelId = modelId) :
    ownCall modelId callers s a = s.calls[c]?.map fun x => x.call.map fun _ => () := by
  unfold ownCall
  rw [if_pos own, idxOf_caller distinct known]

theorem ownQueue_cons : ownQueue modelId callers s (w :: l) =
    (if s.futureDone w.call then [] else (ownCaller modelId callers w.call).toList) ++
      ownQueue modelId callers s l := by
  unfold ownQueue
  rw [List.filterMap_cons]
  cases s.futureDone w.call with
  | true => rfl
  | false => cases ownCaller modelId callers w.call <;> rfl

/-- A call that is done is the call of nobody who waits. -/
theorem not_mem_ownQueue (distinct : callers.Nodup) (known : callers[c]? = some a)
    (done : s.futureDone c = true) : a ∉ ownQueue modelId callers s l := by
  intro member
  obtain ⟨w, _, waits⟩ := List.mem_filterMap.mp member
  split at waits
  · cases waits
  · next pending =>
    obtain ⟨known', _⟩ := ownCaller_eq_some.mp waits
    have same : w.call = c := (idxOf_caller distinct known').symm.trans (idxOf_caller distinct known)
    rw [same] at pending
    exact pending done

/-! ## The view when one call changes -/

theorem futureDone_setCall (found : s.calls[c]? = some x) (d : CallId) :
    (s.setCall c call).futureDone d = if c = d then !call.pending else s.futureDone d := by
  unfold PoolState.futureDone
  rw [PoolState.getElem?_setCall]
  by_cases same : c = d
  · subst same
    simp [found]
  · simp only [same, if_false, Option.map_id']

theorem ownQueue_setCall (distinct : callers.Nodup) (known : callers[c]? = some a)
    (found : s.calls[c]? = some x) (done : call.pending = false) (l : List Waiter) :
    ownQueue modelId callers (s.setCall c call) l =
      (ownQueue modelId callers s l).filter (· ≠ a) := by
  induction l with
  | nil => rfl
  | cons w rest ih =>
    rw [ownQueue_cons, ownQueue_cons, futureDone_setCall found, ih, List.filter_append]
    congr 1
    by_cases same : c = w.call
    · rw [if_pos same, done, ← same]
      cases s.futureDone c with
      | true => rfl
      | false =>
        cases caller : ownCaller modelId callers c with
        | none => rfl
        | some b =>
          have eq : b = a := Option.some.inj ((ownCaller_eq_some.mp caller).1.symm.trans known)
          simp [eq]
    · rw [if_neg same]
      cases s.futureDone w.call with
      | true => rfl
      | false =>
        cases caller : ownCaller modelId callers w.call with
        | none => rfl
        | some b =>
          have other : b ≠ a := by
            rintro rfl
            have index := idxOf_caller distinct (ownCaller_eq_some.mp caller).1
            exact same ((idxOf_caller distinct known).symm.trans index)
          simp [other]

/-- The call of a request for the model changes, and is not pending any more. -/
theorem view_setCall (distinct : callers.Nodup) (known : callers[c]? = some a)
    (own : a.modelId = modelId) (found : s.calls[c]? = some x) (done : call.pending = false) :
    view cfg modelId callers (s.setCall c call) =
      { (view cfg modelId callers s).setCall a (call.map fun _ => ()) with
        waiting := (view cfg modelId callers s).waiting.filter (· ≠ a) } := by
  have calls : ownCall modelId callers (s.setCall c call) =
      Function.update (ownCall modelId callers s) a (some (call.map fun _ => ())) := by
    funext b
    by_cases same : b = a
    · subst same
      rw [Function.update_self, ownCall_eq distinct known own, PoolState.getElem?_setCall, found]
      simp
    · rw [Function.update_of_ne same]
      unfold ownCall
      split
      · have other : c ≠ callers.idxOf b := by
          intro index
          subst index
          have here := List.getElem?_eq_some_iff.mp known
          exact same ((List.getElem_idxOf here.1).symm.trans here.2)
        rw [PoolState.getElem?_setCall]
        simp [other]
      · rfl
  unfold view Semaphore.setCall
  rw [calls]
  dsimp only
  rw [← ownQueue_setCall distinct known found done]
  rfl

/-- The call of another model's request changes. -/
theorem view_setCall_other (known : callers[c]? = some a)
    (other : a.modelId ≠ modelId) (found : s.calls[c]? = some x) :
    view cfg modelId callers (s.setCall c call) = view cfg modelId callers s := by
  have calls : ownCall modelId callers (s.setCall c call) = ownCall modelId callers s := by
    funext b
    unfold ownCall
    split
    · next own =>
      have differs : c ≠ callers.idxOf b := by
        intro index
        subst index
        have here := List.getElem?_eq_some_iff.mp known
        have same := (List.getElem_idxOf here.1).symm.trans here.2
        exact other (same ▸ own)
      rw [PoolState.getElem?_setCall]
      simp [differs]
    · rfl
  have waiting (l : List Waiter) :
      ownQueue modelId callers (s.setCall c call) l = ownQueue modelId callers s l := by
    induction l with
    | nil => rfl
    | cons w rest ih =>
      rw [ownQueue_cons, ownQueue_cons, futureDone_setCall found, ih]
      congr 1
      by_cases same : c = w.call
      · rw [← same, ownCaller_eq_none known other]
        simp
      · rw [if_neg same]
  unfold view
  rw [calls, waiting]
  rfl

/-! ## The view when a slot is granted -/

/-- A slot of the model is granted to one of its requests. -/
theorem view_grant (eligible : Eligible)
    (offered : r ∈ s.pool.available (cfg.eligible (some modelId)))
    (caller : ownCaller modelId callers c = some a) :
    view cfg modelId callers (s.drawn.grant c eligible r) =
      { view cfg modelId callers s with
        free := (view cfg modelId callers s).free - 1
        granted := (view cfg modelId callers s).granted ++ [a] } := by
  have free : (s.drawn.grant c eligible r).pool.freeSlots cfg modelId =
      s.pool.freeSlots cfg modelId - 1 :=
    Nat.eq_sub_of_add_eq (WorkerPool.freeSlots_take offered)
  unfold view
  rw [free]
  have granted : (s.drawn.grant c eligible r).grants.filterMap
      (fun g => ownCaller modelId callers g.call) =
        s.grants.filterMap (fun g => ownCaller modelId callers g.call) ++ [a] := by
    change (s.grants ++ [_]).filterMap _ = _
    rw [List.filterMap_append, List.filterMap_cons, caller]
    rfl
  rw [granted]
  rfl

/-- A slot of another model is granted to one of its requests. -/
theorem view_grant_other {other : String} (eligible : Eligible)
    (offered : r ∈ s.pool.available (cfg.eligible (some other))) (differs : other ≠ modelId)
    (caller : ownCaller modelId callers c = none) :
    view cfg modelId callers (s.drawn.grant c eligible r) = view cfg modelId callers s := by
  have free : (s.drawn.grant c eligible r).pool.freeSlots cfg modelId =
      s.pool.freeSlots cfg modelId :=
    WorkerPool.freeSlots_take_other (p := s.drawn.pool) offered differs
  unfold view
  rw [free]
  have granted : (s.drawn.grant c eligible r).grants.filterMap
      (fun g => ownCaller modelId callers g.call) =
        s.grants.filterMap fun g => ownCaller modelId callers g.call := by
    change (s.grants ++ [_]).filterMap _ = _
    rw [List.filterMap_append, List.filterMap_cons, caller]
    exact List.append_nil _
  rw [granted]
  rfl

theorem view_free_eq_zero : (view cfg modelId callers s).free = 0 ↔
    s.pool.available (cfg.eligible (some modelId)) = [] :=
  WorkerPool.available_eq_nil_iff.symm

/-! ## The view when waiters are promoted -/

namespace PoolState

/-- The loop leaves the calls alone that are not in its list. -/
theorem Promotes.untouched (loop : Promotes s l s' kept) (absent : ∀ w ∈ l, w.call ≠ c) :
    s'.calls[c]? = s.calls[c]? := by
  induction loop with
  | nil => rfl
  | skip _ _ ih => exact ih fun w member => absent w (List.mem_cons_of_mem _ member)
  | grant _ _ _ ih =>
    have other := absent _ List.mem_cons_self
    rw [ih fun w member => absent w (List.mem_cons_of_mem _ member)]
    exact (getElem?_setCall ..).trans (by simp [other, drawn])
  | keep _ _ _ ih => exact ih fun w member => absent w (List.mem_cons_of_mem _ member)

end PoolState

/-- The waiters' predicates are those of their requests. -/
def WaitersNamed (cfg : RouterConfig) (callers : List Caller) (l : List Waiter) : Prop :=
  ∀ w ∈ l, ∃ a, callers[w.call]? = some a ∧ w.eligible = cfg.eligible (some a.modelId)

theorem WaitersNamed.of_cons (named : WaitersNamed cfg callers (w :: l)) :
    WaitersNamed cfg callers l :=
  fun w' member => named w' (List.mem_cons_of_mem _ member)

/-- The view when the loop resolves the future of a request for the model. -/
theorem view_resolve (distinct : callers.Nodup) (caller : ownCaller modelId callers w.call = some a)
    (waits : s.futureDone w.call = false)
    (offered : r ∈ s.pool.available (cfg.eligible (some modelId))) :
    view cfg modelId callers (s.drawn.resolve w r) =
      { (view cfg modelId callers s).take a (.suspended (.resolved ())) with
        waiting := (view cfg modelId callers s).waiting.filter (· ≠ a) } := by
  obtain ⟨known, own⟩ := ownCaller_eq_some.mp caller
  obtain ⟨eligible, pending⟩ := PoolState.futureDone_eq_false.mp waits
  have resolved : view cfg modelId callers (s.drawn.resolve w r) = _ :=
    view_setCall distinct known own pending rfl
  rw [resolved, view_grant _ offered caller]
  rfl

theorem view_resolve_other (known : callers[w.call]? = some a)
    (differs : a.modelId ≠ modelId) (waits : s.futureDone w.call = false)
    (offered : r ∈ s.pool.available (cfg.eligible (some a.modelId))) :
    view cfg modelId callers (s.drawn.resolve w r) = view cfg modelId callers s := by
  obtain ⟨eligible, pending⟩ := PoolState.futureDone_eq_false.mp waits
  have caller := ownCaller_eq_none known differs
  have resolved : view cfg modelId callers (s.drawn.resolve w r) = _ :=
    view_setCall_other known differs pending
  exact resolved.trans (view_grant_other _ offered differs caller)

theorem not_mem_ownQueue_of_absent (distinct : callers.Nodup) (known : callers[c]? = some a)
    (absent : ∀ w ∈ l, w.call ≠ c) : a ∉ ownQueue modelId callers s l := by
  intro member
  obtain ⟨w, queued, waits⟩ := List.mem_filterMap.mp member
  split at waits
  · cases waits
  · obtain ⟨known', _⟩ := ownCaller_eq_some.mp waits
    exact absent w queued ((idxOf_caller distinct known').symm.trans (idxOf_caller distinct known))

/-- Slots are handed out to the callers in the list, in its order. -/
theorem Promotes.view (loop : PoolState.Promotes s l s' kept) (distinct : callers.Nodup)
    (arrival : l.Pairwise fun w w' => w.call < w'.call) (named : WaitersNamed cfg callers l) :
    Semaphore.handOut (ownQueue modelId callers s l) (view cfg modelId callers s) =
      { view cfg modelId callers s' with waiting := ownQueue modelId callers s' kept } := by
  induction loop with
  | nil => rfl
  | skip done _ ih =>
    rw [ownQueue_cons, done]
    exact ih (List.pairwise_cons.mp arrival).2 named.of_cons
  | @grant s s' w rest kept r waits offered loop ih =>
    obtain ⟨behind, sorted⟩ := List.pairwise_cons.mp arrival
    obtain ⟨a, known, accepts⟩ := named w List.mem_cons_self
    rw [accepts] at offered
    have after := ih sorted named.of_cons
    obtain ⟨eligible, pending⟩ := PoolState.futureDone_eq_false.mp waits
    have absent : a ∉ ownQueue modelId callers s rest :=
      not_mem_ownQueue_of_absent distinct known fun w' member => Nat.ne_of_gt (behind w' member)
    have rest_eq : ownQueue modelId callers (s.drawn.resolve w r) rest =
        ownQueue modelId callers s rest := by
      have filtered : ownQueue modelId callers (s.drawn.resolve w r) rest = _ :=
        ownQueue_setCall distinct known pending rfl rest
      rw [filtered]
      refine List.filter_eq_self.mpr fun b member => ?_
      exact decide_eq_true fun same => absent (same ▸ member)
    rw [rest_eq] at after
    rw [ownQueue_cons, waits, ← after]
    by_cases own : a.modelId = modelId
    · have caller := ownCaller_eq_some.mpr ⟨known, own⟩
      rw [own] at offered
      have somebody : (Oumigo.view cfg modelId callers s).free ≠ 0 := by
        intro nothing
        rw [view_free_eq_zero.mp nothing] at offered
        cases offered
      rw [caller, view_resolve distinct caller waits offered]
      exact (if_neg somebody).trans (Semaphore.handOut_waiting ..).symm
    · rw [ownCaller_eq_none known own, view_resolve_other known own waits offered]
      rfl
  | @keep s s' w rest kept waits nothing loop ih =>
    obtain ⟨behind, sorted⟩ := List.pairwise_cons.mp arrival
    obtain ⟨a, known, accepts⟩ := named w List.mem_cons_self
    rw [accepts] at nothing
    have after := ih sorted named.of_cons
    have still : s'.futureDone w.call = s.futureDone w.call := by
      unfold PoolState.futureDone
      rw [loop.untouched fun w' member => Nat.ne_of_gt (behind w' member)]
    rw [ownQueue_cons, ownQueue_cons, still, waits]
    by_cases own : a.modelId = modelId
    · -- nothing is free for the requests behind it either
      rw [own] at nothing
      have none_free : (Oumigo.view cfg modelId callers s).free = 0 :=
        view_free_eq_zero.mpr nothing
      rw [ownCaller_eq_some.mpr ⟨known, own⟩]
      rw [Semaphore.handOut_of_free_eq_zero none_free] at after ⊢
      exact congrArg (fun q => { q with waiting := a :: q.waiting }) after
    · rw [ownCaller_eq_none known own]
      exact after

/-! ## What holds of the pool and its requests -/

/-- **The invariant**: the pool's books are right, every call has its own request, whose model
is what it waits for; the workers are those of every grant, and none is past its capacity. -/
structure CallerPool.Inv (cfg : RouterConfig) (n : CallerPool) : Prop where
  books : n.state.Inv
  distinct : n.callers.Nodup
  eligible : n.state.calls.map PoolCall.eligible =
    n.callers.map fun a => cfg.eligible (some a.modelId)
  fleet : ∀ g ∈ n.state.grants, g.pool.workers cfg = n.state.pool.workers cfg
  bounded : ∀ model n' cap, (n', cap) ∈ n.state.pool.workersOf cfg model →
    n.state.pool.inflight n' ≤ cap

namespace PoolState

/-- The predicates of the calls. -/
theorem eligible_setCall : (s.setCall c call).calls.map PoolCall.eligible =
    s.calls.map PoolCall.eligible := by
  apply List.ext_getElem?
  intro d
  rw [List.getElem?_map, List.getElem?_map, getElem?_setCall, Option.map_map]
  congr 1
  funext x
  simp only [Function.comp_apply]
  split <;> rfl

theorem Promotes.eligible (loop : Promotes s l s' kept) :
    s'.calls.map PoolCall.eligible = s.calls.map PoolCall.eligible := by
  induction loop with
  | nil => rfl
  | skip _ _ ih => exact ih
  | grant _ _ _ ih => exact ih.trans eligible_setCall
  | keep _ _ _ ih => exact ih

theorem Promoted.eligible (promoted : Promoted s s') :
    s'.calls.map PoolCall.eligible = s.calls.map PoolCall.eligible := by
  obtain ⟨s₁, kept, loop, rfl⟩ := promoted
  exact loop.eligible

theorem eligible_release (s : PoolState) (n : NodeId) :
    (s.release n).calls.map PoolCall.eligible = s.calls.map PoolCall.eligible :=
  (promoted_release s n).eligible

theorem eligible_acquire (s : PoolState) (eligible : Eligible) :
    (s.acquire eligible).calls.map PoolCall.eligible =
      s.calls.map PoolCall.eligible ++ [eligible] := by
  obtain ⟨s₁, promoted, ⟨r, _, result⟩ | ⟨_, _, result⟩ | ⟨_, _, result⟩⟩ :=
    s.acquire_cases eligible <;>
    rw [result, ← promoted.eligible] <;> exact List.map_append

theorem eligible_resume (run : s.resume c = some s') :
    s'.calls.map PoolCall.eligible = s.calls.map PoolCall.eligible := by
  obtain ⟨_, w, _, ⟨r, _, rfl⟩ | ⟨cause, _, ⟨_, rfl⟩ | ⟨_, ⟨r, _, rfl⟩ | ⟨_, rfl⟩⟩⟩⟩ :=
    resume_cases run
  · exact eligible_setCall
  · exact eligible_setCall
  · exact (eligible_release _ _).trans eligible_setCall
  · exact eligible_setCall

theorem eligible_interrupt {cause : Asyncio.Interrupt} (run : s.interrupt c cause = some s') :
    s'.calls.map PoolCall.eligible = s.calls.map PoolCall.eligible := by
  obtain ⟨_, w, _, rfl⟩ := interrupt_cases run
  exact eligible_setCall

theorem eligible_releaseHeld (run : s.releaseHeld c = some s') :
    s'.calls.map PoolCall.eligible = s.calls.map PoolCall.eligible := by
  obtain ⟨_, r, _, rfl⟩ := releaseHeld_cases run
  exact (eligible_release _ _).trans eligible_setCall

end PoolState

namespace CallerPool

variable {n n' : CallerPool} {e : CallerEvent}

/-- A step of the pool that keeps the calls' predicates keeps the invariant. -/
theorem Inv.of_pool {state : PoolState} {callers : List Caller} (inv : n.Inv cfg)
    (event : PoolEvent) (run : n.state.step event = some state)
    (inside : ∀ reg tunnels, event ≠ .environment reg tunnels) (distinct : callers.Nodup)
    (eligible : state.calls.map PoolCall.eligible =
      callers.map fun a => cfg.eligible (some a.modelId)) :
    Inv cfg ⟨state, callers⟩ := by
  obtain ⟨new, granted⟩ := PoolState.granted_step run inside
  have same : state.pool.workers cfg = n.state.pool.workers cfg := granted.fleet.workers
  refine ⟨PoolState.inv_step inv.books run, distinct, eligible, fun g member => ?_,
    fun model node cap worker => ?_⟩
  · change g.pool.workers cfg = state.pool.workers cfg
    rw [same]
    rw [granted.grants] at member
    rcases List.mem_append.mp member with earlier | recent
    · exact inv.fleet g earlier
    · exact (granted.grant_fleet g recent).workers
  · rw [WorkerPool.workersOf_congr same] at worker
    rcases granted.within node with le | ⟨r, listed, here, le⟩
    · exact le.trans (inv.bounded model node cap worker)
    · obtain ⟨r', listed', _, _, here', rfl⟩ := WorkerPool.mem_workersOf.mp worker
      cases Registry.eq_of_mem_list listed listed' (here.trans here'.symm)
      exact le

theorem Inv.step (inv : n.Inv cfg) (run : step cfg n e = some n') : n'.Inv cfg := by
  cases e with
  | acquire a =>
    simp only [CallerPool.step] at run
    split at run
    · cases run
    · next fresh =>
      cases run
      refine inv.of_pool (.acquire _) rfl (fun _ _ => nofun) ?_ ?_
      · exact Deque.nodup_concat fresh inv.distinct
      · rw [PoolState.eligible_acquire, inv.eligible, List.map_append]
        rfl
  | resume a =>
    obtain ⟨state, moved, rfl⟩ := Option.map_eq_some_iff.mp run
    exact inv.of_pool (.resume _) moved (fun _ _ => nofun) inv.distinct
      ((PoolState.eligible_resume moved).trans inv.eligible)
  | interrupt a cause =>
    obtain ⟨state, moved, rfl⟩ := Option.map_eq_some_iff.mp run
    exact inv.of_pool (.interrupt _ cause) moved (fun _ _ => nofun) inv.distinct
      ((PoolState.eligible_interrupt moved).trans inv.eligible)
  | release a =>
    obtain ⟨state, moved, rfl⟩ := Option.map_eq_some_iff.mp run
    exact inv.of_pool (.release _) moved (fun _ _ => nofun) inv.distinct
      ((PoolState.eligible_releaseHeld moved).trans inv.eligible)
  | tick =>
    cases run
    exact inv.of_pool .tick rfl (fun _ _ => nofun) inv.distinct
      ((PoolState.promoted_tick _).eligible.trans inv.eligible)
  | environment registry tunnels =>
    simp only [CallerPool.step] at run
    split at run
    · next same =>
      cases run
      refine ⟨PoolState.inv_step inv.books (e := .environment registry tunnels) rfl,
        inv.distinct, inv.eligible, fun g member => (inv.fleet g member).trans same.symm,
        fun model node cap worker => ?_⟩
      rw [WorkerPool.workersOf_congr same] at worker
      exact inv.bounded model node cap worker
    · cases run

/-! ## What the invariant says about one call -/

theorem Inv.length (inv : n.Inv cfg) : n.callers.length = n.state.calls.length := by
  have total := congrArg List.length inv.eligible
  simpa using total.symm

theorem Inv.caller (inv : n.Inv cfg) (called : n.state.calls[c]? = some x) :
    ∃ a, n.callers[c]? = some a ∧ x.eligible = cfg.eligible (some a.modelId) := by
  have here := congrArg (fun l => l[c]?) inv.eligible
  simp only [List.getElem?_map, called, Option.map_some] at here
  obtain ⟨a, known, same⟩ := Option.map_eq_some_iff.mp here.symm
  exact ⟨a, known, same.symm⟩

/-- The call at a request's index is the request's. -/
theorem Inv.known (inv : n.Inv cfg) (called : n.state.calls[n.callers.idxOf a]? = some x) :
    n.callers[n.callers.idxOf a]? = some a ∧ x.eligible = cfg.eligible (some a.modelId) := by
  obtain ⟨b, known, eligible⟩ := inv.caller called
  have same : b = a := by
    obtain ⟨inside, here⟩ := List.getElem?_eq_some_iff.mp known
    exact here.symm.trans (List.getElem_idxOf inside)
  subst same
  exact ⟨known, eligible⟩

theorem Inv.named (inv : n.Inv cfg) : WaitersNamed cfg n.callers n.state.pool.waiters := by
  intro w member
  obtain ⟨call, called, _⟩ := inv.books.waiting w member
  exact inv.caller called

/-- A request that holds a slot holds it on a worker of its model. -/
theorem Inv.worker (inv : n.Inv cfg) (known : n.callers[c]? = some a)
    (called : n.state.calls[c]? = some x) (held : x.call.held? = some r) :
    ∃ cap, (r.nodeId, cap) ∈ n.state.pool.workersOf cfg a.modelId := by
  obtain ⟨g, member, _, eligible, rfl⟩ := inv.books.granted c x.eligible x.call r called held
  obtain ⟨b, known', accepts⟩ := inv.caller called
  cases known.symm.trans known'
  have offered := inv.books.admissible g member
  rw [eligible, accepts] at offered
  have worker := WorkerPool.mem_workersOf_of_available offered
  rw [← WorkerPool.workersOf_congr (inv.fleet g member)]
  exact ⟨_, worker⟩

end CallerPool

end Oumigo
