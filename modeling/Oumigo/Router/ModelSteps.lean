import Oumigo.Router.ModelView

/-!
# What each section of the pool does to a model's view

For a request of the model the section is the operation of the semaphore
(`view_step_own`); for another model's request it settles the view (`view_step_other`), which
a settled view does not notice.
-/

namespace Oumigo

variable {cfg : RouterConfig} {modelId : String} {callers : List Caller} {s s' : PoolState}
  {a b : Caller} {c : CallId} {x : PoolCall} {call : Asyncio.Call NodeRecord} {r : NodeRecord}
  {w : Waiter}

/-- `_promote` settles the view. -/
theorem Promoted.view (promoted : s.Promoted s') (distinct : callers.Nodup)
    (arrival : s.pool.waiters.Pairwise fun w w' => w.call < w'.call)
    (named : WaitersNamed cfg callers s.pool.waiters) :
    view cfg modelId callers s' = (view cfg modelId callers s).settle := by
  obtain ⟨s₁, kept, loop, rfl⟩ := promoted
  exact (Promotes.view loop distinct arrival named).symm

namespace CallerPool

variable {n n' : CallerPool} {e : CallerEvent} {cause : Asyncio.Interrupt}

/-- The pool as the requests for the model see it. -/
def view (cfg : RouterConfig) (modelId : String) (n : CallerPool) : Semaphore Caller :=
  Oumigo.view cfg modelId n.callers n.state

theorem Inv.promoted_view (inv : n.Inv cfg) {state : PoolState}
    (promoted : n.state.Promoted state) :
    Oumigo.view cfg modelId n.callers state = (n.view cfg modelId).settle :=
  Promoted.view promoted inv.distinct inv.books.arrival inv.named

/-- The view knows what the call of a request of the model waits for. -/
theorem Inv.view_calls (inv : n.Inv cfg) (called : n.state.calls[n.callers.idxOf a]? = some x)
    (own : a.modelId = modelId) :
    (n.view cfg modelId).calls a = some (x.call.map fun _ => ()) := by
  have here := ownCall_eq (s := n.state) inv.distinct (inv.known called).1 own
  rw [called] at here
  exact here

theorem view_calls_none (missing : n.state.calls[n.callers.idxOf a]? = none) :
    (n.view cfg modelId).calls a = none := by
  unfold view Oumigo.view ownCall
  simp [missing]

/-- The call of a request changes that nobody waits with. -/
theorem Inv.view_setCall (inv : n.Inv cfg)
    (called : n.state.calls[n.callers.idxOf a]? = some x) (settled : x.call.pending = false)
    (own : a.modelId = modelId) (done : call.pending = false) :
    Oumigo.view cfg modelId n.callers (n.state.setCall (n.callers.idxOf a) call) =
      (n.view cfg modelId).setCall a (call.map fun _ => ()) := by
  obtain ⟨known, _⟩ := inv.known called
  have finished : n.state.futureDone (n.callers.idxOf a) = true := by
    unfold PoolState.futureDone
    rw [called]
    simp [settled]
  have nobody : (n.view cfg modelId).waiting.filter (· ≠ a) = (n.view cfg modelId).waiting := by
    refine List.filter_eq_self.mpr fun b member => decide_eq_true fun same => ?_
    exact not_mem_ownQueue inv.distinct known finished (same ▸ member)
  have changed : Oumigo.view cfg modelId n.callers
      (n.state.setCall (n.callers.idxOf a) call) = _ :=
    Oumigo.view_setCall inv.distinct known own called done
  rw [changed]
  change { (n.view cfg modelId).setCall a _ with
    waiting := (n.view cfg modelId).waiting.filter (· ≠ a) } = _
  rw [nobody]
  rfl

/-! ## A slot that comes back -/

theorem view_giveBack_pool (s : PoolState) (m : NodeId) :
    Oumigo.view cfg modelId callers { s with pool := s.pool.giveBack m } =
      { Oumigo.view cfg modelId callers s with
        free := (s.pool.giveBack m).freeSlots cfg modelId } := by
  have same : (s.pool.giveBack m).workers cfg = s.pool.workers cfg :=
    (s.pool.sameFleet_giveBack m).workers
  have workers := WorkerPool.workersOf_congr same modelId
  unfold Oumigo.view
  simp only [workers, WorkerPool.giveBack_waiters]
  rfl

/-- A release, once the call of the request is over. -/
theorem Inv.release_view (inv : n.Inv cfg) (a : Caller) (r : NodeRecord) :
    Oumigo.view cfg modelId n.callers
        ((n.state.setCall (n.callers.idxOf a) .ended).release r.nodeId) =
      { Oumigo.view cfg modelId n.callers (n.state.setCall (n.callers.idxOf a) .ended) with
        free := (n.state.pool.giveBack r.nodeId).freeSlots cfg modelId : Semaphore Caller }.settle := by
  have promoted := PoolState.promoted_release (n.state.setCall (n.callers.idxOf a) .ended) r.nodeId
  rw [Promoted.view promoted inv.distinct (by simpa using inv.books.arrival)
    (by simpa using inv.named), view_giveBack_pool]
  rfl

/-- A request for the model gives its slot back. -/
theorem Inv.view_giveBack (inv : n.Inv cfg)
    (called : n.state.calls[n.callers.idxOf a]? = some x) (held : x.call.held? = some r)
    (own : a.modelId = modelId) :
    Oumigo.view cfg modelId n.callers
        ((n.state.setCall (n.callers.idxOf a) .ended).release r.nodeId) =
      ((n.view cfg modelId).setCall a .ended).giveBack := by
  obtain ⟨known, _⟩ := inv.known called
  obtain ⟨cap, worker⟩ := inv.worker known called held
  rw [own] at worker
  have free := WorkerPool.freeSlots_giveBack worker (inv.books.inflight_pos called held)
    (inv.bounded _ _ _ worker)
  have settled : x.call.pending = false := by
    cases pending : x.call.pending with
    | false => rfl
    | true =>
      rw [Asyncio.Call.pending_iff.mp pending] at held
      cases held
  rw [inv.release_view a r, free, inv.view_setCall called settled own rfl]
  rfl

/-- Another model's request gives its slot back. -/
theorem Inv.view_giveBack_other (inv : n.Inv cfg)
    (called : n.state.calls[n.callers.idxOf a]? = some x) (held : x.call.held? = some r)
    (other : a.modelId ≠ modelId) :
    Oumigo.view cfg modelId n.callers
        ((n.state.setCall (n.callers.idxOf a) .ended).release r.nodeId) =
      (n.view cfg modelId).settle := by
  obtain ⟨known, _⟩ := inv.known called
  obtain ⟨cap, worker⟩ := inv.worker known called held
  have free := WorkerPool.freeSlots_giveBack_other worker other
  rw [inv.release_view a r, free]
  have changed : Oumigo.view cfg modelId n.callers
      (n.state.setCall (n.callers.idxOf a) .ended) = _ :=
    view_setCall_other known other called
  rw [changed]
  rfl

/-! ## A request that arrives -/

/-- The queue of a state with one more call. -/
theorem ownQueue_concat {l : List Waiter} (length : callers.length = s.calls.length)
    (known : ∀ w ∈ l, w.call < s.calls.length) (a : Caller) (x : PoolCall) :
    ownQueue modelId (callers ++ [a]) { s with calls := s.calls ++ [x] } l =
      ownQueue modelId callers s l := by
  apply List.filterMap_congr
  intro w member
  have inside := known w member
  have done : ({ s with calls := s.calls ++ [x] } : PoolState).futureDone w.call =
      s.futureDone w.call := by
    unfold PoolState.futureDone
    dsimp only
    rw [List.getElem?_append_left inside]
  have caller : ownCaller modelId (callers ++ [a]) w.call = ownCaller modelId callers w.call := by
    unfold ownCaller
    rw [List.getElem?_append_left (length ▸ inside)]
  rw [done, caller]

/-- The calls of a state with one more call. -/
theorem ownCall_concat (length : callers.length = s.calls.length) (fresh : a ∉ callers)
    (x : PoolCall) : ownCall modelId (callers ++ [a]) { s with calls := s.calls ++ [x] } =
      if a.modelId = modelId then
        Function.update (ownCall modelId callers s) a (some (x.call.map fun _ => ()))
      else ownCall modelId callers s := by
  have last : (callers ++ [a]).idxOf a = s.calls.length := by
    rw [List.idxOf_append_of_notMem fresh, length]
    simp
  have others (b : Caller) (differs : b ≠ a) :
      ownCall modelId (callers ++ [a]) { s with calls := s.calls ++ [x] } b =
        ownCall modelId callers s b := by
    unfold ownCall
    split
    · by_cases known : b ∈ callers
      · rw [List.idxOf_append_of_mem known]
        have inside := List.idxOf_lt_length_of_mem known
        rw [List.getElem?_append_left (length ▸ inside)]
      · rw [List.idxOf_append_of_notMem known, List.idxOf_eq_length known, length]
        simp [Ne.symm differs]
    · rfl
  funext b
  by_cases same : b = a
  · subst same
    split
    · next own =>
      rw [Function.update_self]
      unfold ownCall
      rw [if_pos own, last, List.getElem?_concat_length]
      rfl
    · next other =>
      unfold ownCall
      rw [if_neg other, if_neg other]
  · rw [others b same]
    split
    · rw [Function.update_of_ne same]
    · rfl

/-- The view of a state with one more call. -/
theorem view_concat (length : callers.length = s.calls.length) (fresh : a ∉ callers)
    (waiters : ∀ w ∈ s.pool.waiters, w.call < s.calls.length)
    (grants : ∀ g ∈ s.grants, g.call < s.calls.length) (x : PoolCall) :
    Oumigo.view cfg modelId (callers ++ [a]) { s with calls := s.calls ++ [x] } =
      if a.modelId = modelId then
        (Oumigo.view cfg modelId callers s).setCall a (x.call.map fun _ => ())
      else Oumigo.view cfg modelId callers s := by
  have granted : s.grants.filterMap (fun g => ownCaller modelId (callers ++ [a]) g.call) =
      s.grants.filterMap fun g => ownCaller modelId callers g.call := by
    apply List.filterMap_congr
    intro g member
    unfold ownCaller
    rw [List.getElem?_append_left (length ▸ grants g member)]
  unfold Oumigo.view
  rw [ownCall_concat length fresh, ownQueue_concat length waiters, granted]
  split <;> rfl

/-- A waiter joins the queue. -/
theorem view_enqueue (w : Waiter) (waits : s.futureDone w.call = false) :
    Oumigo.view cfg modelId callers
        { s with pool := { s.pool with waiters := s.pool.waiters ++ [w] } } =
      { Oumigo.view cfg modelId callers s with
        waiting := (Oumigo.view cfg modelId callers s).waiting ++
          (ownCaller modelId callers w.call).toList } := by
  have queue : ownQueue modelId callers s (s.pool.waiters ++ [w]) =
      ownQueue modelId callers s s.pool.waiters ++ (ownCaller modelId callers w.call).toList := by
    have one : ownQueue modelId callers s [w] = (ownCaller modelId callers w.call).toList := by
      rw [ownQueue_cons, waits]
      exact List.append_nil _
    rw [← one]
    exact List.filterMap_append
  unfold Oumigo.view
  rw [← queue]
  rfl

/-- **An arrival**, seen by the model's requests. -/
theorem Inv.view_acquire (inv : n.Inv cfg) (fresh : a ∉ n.callers) :
    Oumigo.view cfg modelId (n.callers ++ [a])
        (n.state.acquire (cfg.eligible (some a.modelId))) =
      if a.modelId = modelId then (n.view cfg modelId).acquire a
      else (n.view cfg modelId).settle := by
  obtain ⟨s₁, promoted, outcome⟩ := n.state.acquire_cases (cfg.eligible (some a.modelId))
  have settled : Oumigo.view cfg modelId n.callers s₁ = (n.view cfg modelId).settle :=
    inv.promoted_view promoted
  have length : n.callers.length = s₁.calls.length := inv.length.trans promoted.length.symm
  have books := promoted.inv inv.books
  have waiters : ∀ w ∈ s₁.pool.waiters, w.call < s₁.calls.length := by
    intro w member
    obtain ⟨_, called, _⟩ := books.waiting w member
    exact Deque.lt_length_of_some called
  have grants : ∀ g ∈ s₁.grants, g.call < s₁.calls.length := by
    intro g member
    obtain ⟨_, called, _⟩ := books.answered g member
    exact Deque.lt_length_of_some called
  have last : (n.callers ++ [a])[n.state.calls.length]? = some a := by
    rw [← inv.length]
    exact List.getElem?_concat_length
  have arrived (x : PoolCall) : Oumigo.view cfg modelId (n.callers ++ [a])
      { s₁ with calls := s₁.calls ++ [x] } = if a.modelId = modelId then
        (n.view cfg modelId).settle.setCall a (x.call.map fun _ => ())
      else (n.view cfg modelId).settle := by
    rw [← settled]
    exact view_concat length fresh waiters grants x
  have free : (n.view cfg modelId).settle.free = 0 ↔
      s₁.pool.available (cfg.eligible (some modelId)) = [] := by
    rw [← settled]
    exact view_free_eq_zero
  rcases outcome with ⟨r, offered, result⟩ | ⟨nothing, nobody, result⟩ |
    ⟨nothing, somebody, result⟩
  · rw [result]
    have after := arrived ⟨cfg.eligible (some a.modelId), .returned r⟩
    by_cases own : a.modelId = modelId
    · rw [own] at offered
      have somewhere : (n.view cfg modelId).settle.free ≠ 0 := by
        intro zero
        rw [free.mp zero] at offered
        cases offered
      rw [if_pos own] at after ⊢
      have granted := view_grant (s := { s₁ with
        calls := s₁.calls ++ [⟨cfg.eligible (some a.modelId), .returned r⟩] })
        (cfg.eligible (some a.modelId)) offered (ownCaller_eq_some.mpr ⟨last, own⟩)
      rw [after] at granted
      refine granted.trans ?_
      unfold Semaphore.acquire
      simp only [somewhere, if_false]
      rfl
    · rw [if_neg own] at after ⊢
      have granted := view_grant_other (s := { s₁ with
        calls := s₁.calls ++ [⟨cfg.eligible (some a.modelId), .returned r⟩] })
        (cfg.eligible (some a.modelId)) offered own (ownCaller_eq_none last own)
      exact granted.trans after
  · rw [result]
    have after := arrived ⟨cfg.eligible (some a.modelId), .ended⟩
    refine after.trans ?_
    by_cases own : a.modelId = modelId
    · rw [if_pos own, if_pos own]
      rw [own] at nothing nobody
      have dead : (n.view cfg modelId).settle.alive = false := by
        rw [← settled]
        exact (by simp [Oumigo.view, WorkerPool.serving_eq_nil_iff.mp nobody])
      unfold Semaphore.acquire
      simp only [free.mpr nothing, if_true, dead]
      rfl
    · rw [if_neg own, if_neg own]
  · rw [result]
    have after := arrived ⟨cfg.eligible (some a.modelId), .suspended .pending⟩
    have waits : ({ s₁ with calls := s₁.calls ++
        [⟨cfg.eligible (some a.modelId), .suspended .pending⟩] } : PoolState).futureDone
          n.state.calls.length = false := by
      rw [PoolState.futureDone_eq_false, ← promoted.length]
      exact ⟨_, List.getElem?_concat_length⟩
    refine (view_enqueue ⟨n.state.calls.length, cfg.eligible (some a.modelId)⟩ waits).trans ?_
    rw [after]
    by_cases own : a.modelId = modelId
    · rw [if_pos own, if_pos own, ownCaller_eq_some.mpr ⟨last, own⟩]
      rw [own] at nothing somebody
      have alive : (n.view cfg modelId).settle.alive = true := by
        rw [← settled]
        have workers := mt WorkerPool.serving_eq_nil_iff.mpr somebody
        simpa [Oumigo.view, List.isEmpty_iff] using workers
      unfold Semaphore.acquire
      simp only [free.mpr nothing, if_true, alive]
      rfl
    · rw [if_neg own, if_neg own, ownCaller_eq_none last own]
      simp

/-! ## A request that goes on, or leaves -/

/-- A waiter leaves the queue whose future is done. -/
theorem view_leave (done : s.futureDone c = true) :
    Oumigo.view cfg modelId callers
        { s with pool := { s.pool with waiters := s.pool.waiters.filter fun w => w.call ≠ c } } =
      Oumigo.view cfg modelId callers s := by
  have queue (l : List Waiter) : ownQueue modelId callers s (l.filter fun w => w.call ≠ c) =
      ownQueue modelId callers s l := by
    induction l with
    | nil => rfl
    | cons w rest ih =>
      by_cases same : w.call = c
      · rw [List.filter_cons, if_neg (by simp [same]), ih, ownQueue_cons, same, done]
        rfl
      · rw [List.filter_cons, if_pos (by simp [same]), ownQueue_cons, ownQueue_cons, ih]
  unfold Oumigo.view
  rw [← queue s.pool.waiters]
  rfl

/-- The queued call is over, and with it its place in the queue. -/
theorem futureDone_ended (called : s.calls[c]? = some x) :
    (s.setCall c .ended).futureDone c = true := by
  rw [futureDone_setCall called, if_pos rfl]
  rfl

theorem Inv.view_resume (inv : n.Inv cfg) {state : PoolState} (own : a.modelId = modelId)
    (run : n.state.resume (n.callers.idxOf a) = some state) :
    (n.view cfg modelId).resume a = some (Oumigo.view cfg modelId n.callers state) := by
  obtain ⟨eligible, w, called, outcome⟩ := PoolState.resume_cases run
  have known := inv.view_calls called own
  have settled : (Asyncio.Call.suspended w).pending = false := by
    have runs : w ≠ .pending := by
      rintro rfl
      rcases outcome with ⟨_, back, _⟩ | ⟨_, back, _⟩ <;> cases back
    cases w <;> first | rfl | exact absurd rfl runs
  have ended : Oumigo.view cfg modelId n.callers (n.state.setCall (n.callers.idxOf a) .ended) =
      (n.view cfg modelId).setCall a .ended := inv.view_setCall called settled own rfl
  unfold Semaphore.resume
  rw [known]
  rcases outcome with ⟨r, back, rfl⟩ | ⟨cause, back, ⟨queued, rfl⟩ | ⟨_, ⟨r, held, rfl⟩ |
    ⟨nothing, rfl⟩⟩⟩
  · rw [inv.view_setCall called settled own rfl]
    simp [back, Except.map]
  · have empty : w.result? = none := by
      obtain ⟨w', member, same⟩ := queued
      obtain ⟨call, called', nothing⟩ := inv.books.waiting w' member
      rw [same] at called'
      cases called.symm.trans called'
      exact nothing
    have left : Oumigo.view cfg modelId n.callers
        { n.state.setCall (n.callers.idxOf a) .ended with
          pool := { n.state.pool with
            waiters := n.state.pool.waiters.filter fun x => x.call ≠ n.callers.idxOf a } } = _ :=
      view_leave (futureDone_ended called)
    rw [left, ended]
    simp [back, empty, Except.map]
  · rw [inv.view_giveBack called held own]
    simp [back, held, Except.map]
  · rw [ended]
    simp [back, nothing, Except.map]

theorem Inv.view_resume_other (inv : n.Inv cfg) {state : PoolState} (other : a.modelId ≠ modelId)
    (run : n.state.resume (n.callers.idxOf a) = some state) :
    Oumigo.view cfg modelId n.callers state = n.view cfg modelId ∨
      Oumigo.view cfg modelId n.callers state = (n.view cfg modelId).settle := by
  obtain ⟨eligible, w, called, outcome⟩ := PoolState.resume_cases run
  obtain ⟨known, _⟩ := inv.known called
  rcases outcome with ⟨r, back, rfl⟩ | ⟨cause, back, ⟨queued, rfl⟩ | ⟨_, ⟨r, held, rfl⟩ |
    ⟨nothing, rfl⟩⟩⟩
  · exact Or.inl (view_setCall_other known other called)
  · have left : Oumigo.view cfg modelId n.callers
        { n.state.setCall (n.callers.idxOf a) .ended with
          pool := { n.state.pool with
            waiters := n.state.pool.waiters.filter fun x => x.call ≠ n.callers.idxOf a } } = _ :=
      view_leave (futureDone_ended called)
    exact Or.inl (left.trans (view_setCall_other known other called))
  · exact Or.inr (inv.view_giveBack_other called held other)
  · exact Or.inl (view_setCall_other known other called)

theorem Inv.view_interrupt (inv : n.Inv cfg) {state : PoolState} (own : a.modelId = modelId)
    (run : n.state.interrupt (n.callers.idxOf a) cause = some state) :
    (n.view cfg modelId).interrupt a cause =
      some (Oumigo.view cfg modelId n.callers state) := by
  obtain ⟨eligible, w, called, rfl⟩ := PoolState.interrupt_cases run
  obtain ⟨known, _⟩ := inv.known called
  have done : (Asyncio.Call.suspended (w.interrupt cause)).pending = false := by
    cases w <;> rfl
  have changed : Oumigo.view cfg modelId n.callers (n.state.setCall (n.callers.idxOf a)
      (.suspended (w.interrupt cause))) = _ :=
    Oumigo.view_setCall inv.distinct known own called done
  have seen : (Asyncio.Call.suspended (w.interrupt cause)).map (fun _ => ()) =
      .suspended ((w.map fun _ => ()).interrupt cause) :=
    congrArg Asyncio.Call.suspended Asyncio.WaitFor.map_interrupt
  rw [seen] at changed
  unfold Semaphore.interrupt
  rw [inv.view_calls called own, changed]
  rfl

theorem Inv.view_release (inv : n.Inv cfg) {state : PoolState} (own : a.modelId = modelId)
    (run : n.state.releaseHeld (n.callers.idxOf a) = some state) :
    (n.view cfg modelId).release a = some (Oumigo.view cfg modelId n.callers state) := by
  obtain ⟨eligible, r, called, rfl⟩ := PoolState.releaseHeld_cases run
  unfold Semaphore.release
  rw [inv.view_calls called own, inv.view_giveBack called rfl own]
  rfl

end CallerPool

/-! ## The steps -/

namespace CallerEvent

/-- The request an event is about. -/
def caller : CallerEvent → Option Caller
  | .acquire a => some a
  | .resume a => some a
  | .interrupt a _ => some a
  | .release a => some a
  | .tick => none
  | .environment _ _ => none

/-- An event of the model, or of no model. -/
def concerns (modelId : String) (e : CallerEvent) : Bool :=
  e.caller.all fun a => a.modelId = modelId

/-- What the event is to a view. -/
def operation : CallerEvent → Semaphore.Event Caller
  | .acquire a => .acquire a
  | .resume a => .resume a
  | .interrupt a cause => .interrupt a cause
  | .release a => .release a
  | .tick => .settle
  | .environment _ _ => .settle

end CallerEvent

/-- A call whose wait is over can go on. -/
theorem PoolState.resume_awake {eligible : Eligible} {awaits : Asyncio.WaitFor NodeRecord}
    {outcome : Except Asyncio.Interrupt NodeRecord}
    (called : s.calls[c]? = some ⟨eligible, .suspended awaits⟩)
    (back : awaits.resume = some outcome) : ∃ s', s.resume c = some s' := by
  unfold PoolState.resume
  simp only [called, back]
  cases outcome with
  | ok r => exact ⟨_, rfl⟩
  | error cause =>
    dsimp only
    split
    · exact ⟨_, rfl⟩
    · cases awaits.result? with
      | some r => exact ⟨_, rfl⟩
      | none => exact ⟨_, rfl⟩

namespace CallerPool

variable {n n' : CallerPool} {e : CallerEvent} {cause : Asyncio.Interrupt}

theorem own_of_concerns (concerns : e.concerns modelId = true) (about : e.caller = some a) :
    a.modelId = modelId := by
  unfold CallerEvent.concerns at concerns
  simpa [about] using concerns

theorem view_environment {registry : Registry} {tunnels : Option TunnelRegistry}
    (same : ({ n.state.pool with registry, tunnels } : WorkerPool).workers cfg =
      n.state.pool.workers cfg) :
    Oumigo.view cfg modelId n.callers
        { n.state with pool := { n.state.pool with registry, tunnels } } = n.view cfg modelId := by
  have workers := WorkerPool.workersOf_congr same modelId
  unfold view Oumigo.view WorkerPool.freeSlots
  rw [workers]
  rfl

/-- A request the view has not seen has not called. -/
theorem Inv.fresh (inv : n.Inv cfg) (own : a.modelId = modelId)
    (unseen : (n.view cfg modelId).calls a = none) : a ∉ n.callers := by
  intro member
  have inside := List.idxOf_lt_length_of_mem member
  rw [inv.length] at inside
  have seen := inv.view_calls (List.getElem?_eq_getElem inside) own
  rw [unseen] at seen
  cases seen

theorem view_unseen (fresh : a ∉ n.callers) (inv : n.Inv cfg) :
    (n.view cfg modelId).calls a = none := by
  apply view_calls_none
  rw [List.idxOf_eq_length fresh, inv.length]
  exact List.getElem?_eq_none (Nat.le_refl _)

/-- **A step of the model**, or of no model, is the operation of the view. -/
theorem Inv.view_step_own (inv : n.Inv cfg) (settled : (n.view cfg modelId).Settled)
    (concerns : e.concerns modelId = true) (run : CallerPool.step cfg n e = some n') :
    (n.view cfg modelId).step e.operation = some (n'.view cfg modelId) := by
  cases e with
  | acquire a =>
    have own : a.modelId = modelId := own_of_concerns concerns rfl
    simp only [CallerPool.step] at run
    split at run
    · cases run
    · next fresh =>
      cases run
      have arrived : Oumigo.view cfg modelId (n.callers ++ [a]) _ = _ := inv.view_acquire fresh
      rw [if_pos own] at arrived
      simp only [CallerEvent.operation, Semaphore.step, view_unseen fresh inv, Option.isSome_none]
      exact congrArg some arrived.symm
  | resume a =>
    obtain ⟨state, moved, rfl⟩ := Option.map_eq_some_iff.mp run
    exact inv.view_resume (own_of_concerns concerns rfl) moved
  | interrupt a cause =>
    obtain ⟨state, moved, rfl⟩ := Option.map_eq_some_iff.mp run
    exact inv.view_interrupt (own_of_concerns concerns rfl) moved
  | release a =>
    obtain ⟨state, moved, rfl⟩ := Option.map_eq_some_iff.mp run
    exact inv.view_release (own_of_concerns concerns rfl) moved
  | tick =>
    cases run
    exact congrArg some (inv.promoted_view (PoolState.promoted_tick n.state)).symm
  | environment registry tunnels =>
    simp only [CallerPool.step] at run
    split at run
    · next same =>
      cases run
      exact congrArg some (settled.settle_eq.trans (view_environment same).symm)
    · cases run

/-- **A step of another model** changes nothing in the view. -/
theorem Inv.view_step_other (inv : n.Inv cfg) (settled : (n.view cfg modelId).Settled)
    (other : e.concerns modelId = false) (run : CallerPool.step cfg n e = some n') :
    n'.view cfg modelId = n.view cfg modelId := by
  have differs {a : Caller} (about : e.caller = some a) : a.modelId ≠ modelId := by
    intro own
    unfold CallerEvent.concerns at other
    simp [about, own] at other
  cases e with
  | acquire a =>
    simp only [CallerPool.step] at run
    split at run
    · cases run
    · next fresh =>
      cases run
      have arrived : Oumigo.view cfg modelId (n.callers ++ [a]) _ = _ := inv.view_acquire fresh
      rw [if_neg (differs rfl), settled.settle_eq] at arrived
      exact arrived
  | resume a =>
    obtain ⟨state, moved, rfl⟩ := Option.map_eq_some_iff.mp run
    rcases inv.view_resume_other (differs rfl) moved with same | same
    · exact same
    · exact same.trans settled.settle_eq
  | interrupt a cause =>
    obtain ⟨state, moved, rfl⟩ := Option.map_eq_some_iff.mp run
    obtain ⟨eligible, w, called, rfl⟩ := PoolState.interrupt_cases moved
    exact view_setCall_other (inv.known called).1 (differs rfl) called
  | release a =>
    obtain ⟨state, moved, rfl⟩ := Option.map_eq_some_iff.mp run
    obtain ⟨eligible, r, called, rfl⟩ := PoolState.releaseHeld_cases moved
    exact (inv.view_giveBack_other called rfl (differs rfl)).trans settled.settle_eq
  | tick => cases other
  | environment registry tunnels => cases other

/-- What the view can do, the pool can do. -/
theorem Inv.enabled (inv : n.Inv cfg) (concerns : e.concerns modelId = true)
    (inside : ∀ registry tunnels, e ≠ .environment registry tunnels)
    {q : Semaphore Caller} (run : (n.view cfg modelId).step e.operation = some q) :
    ∃ n', CallerPool.step cfg n e = some n' := by
  cases e with
  | acquire a =>
    have own : a.modelId = modelId := own_of_concerns concerns rfl
    simp only [CallerEvent.operation, Semaphore.step] at run
    split at run
    · cases run
    · next unseen =>
      have fresh := inv.fresh own (Option.not_isSome_iff_eq_none.mp unseen)
      exact ⟨_, if_neg fresh⟩
  | resume a =>
    have own : a.modelId = modelId := own_of_concerns concerns rfl
    have moves : ∃ state, n.state.resume (n.callers.idxOf a) = some state := by
      change (n.view cfg modelId).resume a = some q at run
      unfold Semaphore.resume at run
      cases called : n.state.calls[n.callers.idxOf a]? with
      | none =>
        rw [view_calls_none called] at run
        cases run
      | some x =>
        rw [inv.view_calls called own] at run
        obtain ⟨eligible, call⟩ := x
        cases call with
        | suspended w =>
          cases back : w.resume with
          | none => simp [back] at run
          | some outcome => exact PoolState.resume_awake called back
        | returned r => cases run
        | ended => cases run
    obtain ⟨state, moved⟩ := moves
    exact ⟨{ n with state }, Option.map_eq_some_iff.mpr ⟨state, moved, rfl⟩⟩
  | interrupt a cause =>
    have own : a.modelId = modelId := own_of_concerns concerns rfl
    have moves : ∃ state, n.state.interrupt (n.callers.idxOf a) cause = some state := by
      change (n.view cfg modelId).interrupt a cause = some q at run
      unfold Semaphore.interrupt at run
      unfold PoolState.interrupt
      cases called : n.state.calls[n.callers.idxOf a]? with
      | none =>
        rw [view_calls_none called] at run
        cases run
      | some x =>
        rw [inv.view_calls called own] at run
        obtain ⟨eligible, call⟩ := x
        cases call with
        | suspended w => exact ⟨_, rfl⟩
        | returned r => cases run
        | ended => cases run
    obtain ⟨state, moved⟩ := moves
    exact ⟨{ n with state }, Option.map_eq_some_iff.mpr ⟨state, moved, rfl⟩⟩
  | release a =>
    have own : a.modelId = modelId := own_of_concerns concerns rfl
    have moves : ∃ state, n.state.releaseHeld (n.callers.idxOf a) = some state := by
      change (n.view cfg modelId).release a = some q at run
      unfold Semaphore.release at run
      unfold PoolState.releaseHeld
      cases called : n.state.calls[n.callers.idxOf a]? with
      | none =>
        rw [view_calls_none called] at run
        cases run
      | some x =>
        rw [inv.view_calls called own] at run
        obtain ⟨eligible, call⟩ := x
        cases call with
        | suspended w => cases run
        | returned r => exact ⟨_, rfl⟩
        | ended => cases run
    obtain ⟨state, moved⟩ := moves
    exact ⟨{ n with state }, Option.map_eq_some_iff.mpr ⟨state, moved, rfl⟩⟩
  | tick => exact ⟨_, rfl⟩
  | environment registry tunnels => exact absurd rfl (inside registry tunnels)

end CallerPool

end Oumigo
