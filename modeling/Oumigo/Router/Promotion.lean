import Oumigo.Router.Pool

/-!
# What one step of the pool can do

`Promotes` is a run of the loop in `_promote` as a relation: a waiter is dropped
because its future is done, resolved with a worker that was available to it at
that instant, or kept because none was.  `acquire_cases`, `resume_cases`,
`interrupt_cases` and `releaseHeld_cases` give the outcomes of the other sections
once, so that nothing later unfolds them.
-/

namespace Oumigo

namespace WorkerPool

variable {p : WorkerPool} {r : NodeRecord} {n : NodeId} {eligible : Eligible}

theorem inflight_take : (p.take r).inflight n =
    p.inflight n + if r.nodeId = n then 1 else 0 := by
  by_cases same : r.nodeId = n
  · subst same
    simp [take]
  · simp [take, same, Ne.symm same]

theorem inflight_giveBack : (p.giveBack n).inflight n = p.inflight n - 1 := by
  unfold giveBack
  split
  · simp
  · omega

theorem inflight_giveBack_ne {n' : NodeId} (other : n' ≠ n) :
    (p.giveBack n).inflight n' = p.inflight n' := by
  unfold giveBack
  split
  · simp [other]
  · rfl

@[simp] theorem giveBack_waiters : (p.giveBack n).waiters = p.waiters := by
  unfold giveBack
  split <;> rfl

@[simp] theorem giveBack_registry : (p.giveBack n).registry = p.registry := by
  unfold giveBack
  split <;> rfl

@[simp] theorem giveBack_tunnels : (p.giveBack n).tunnels = p.tunnels := by
  unfold giveBack
  split <;> rfl

@[simp] theorem giveBack_defaultCapacity :
    (p.giveBack n).defaultCapacity = p.defaultCapacity := by
  unfold giveBack
  split <;> rfl

/-- The same workers with the same limits, and no slot fewer in use. -/
structure Busier (p p' : WorkerPool) : Prop where
  registry : p'.registry = p.registry
  tunnels : p'.tunnels = p.tunnels
  defaultCapacity : p'.defaultCapacity = p.defaultCapacity
  inflight : ∀ n, p.inflight n ≤ p'.inflight n

theorem Busier.refl (p : WorkerPool) : p.Busier p := ⟨rfl, rfl, rfl, fun _ => Nat.le_refl _⟩

theorem Busier.trans {p' p'' : WorkerPool} (first : p.Busier p') (second : p'.Busier p'') :
    p.Busier p'' where
  registry := second.registry.trans first.registry
  tunnels := second.tunnels.trans first.tunnels
  defaultCapacity := second.defaultCapacity.trans first.defaultCapacity
  inflight := fun n => (first.inflight n).trans (second.inflight n)

theorem Busier.take (p : WorkerPool) (r : NodeRecord) : p.Busier (p.take r) :=
  ⟨rfl, rfl, rfl, fun n => by rw [inflight_take]; exact Nat.le_add_right _ _⟩

theorem Busier.capacity {p' : WorkerPool} (busier : p.Busier p') :
    p'.capacity r = p.capacity r := by
  unfold WorkerPool.capacity
  rw [busier.defaultCapacity]

theorem Busier.routable {p' : WorkerPool} (busier : p.Busier p') :
    p'.routable r = p.routable r := by
  unfold WorkerPool.routable
  rw [busier.tunnels]

/-- What a busier pool has to offer, the pool had to offer. -/
theorem Busier.available {p' : WorkerPool} (busier : p.Busier p')
    (offered : r ∈ p'.available eligible) : r ∈ p.available eligible := by
  obtain ⟨listed, routable, accepted, free⟩ := mem_available.mp offered
  rw [busier.registry] at listed
  rw [busier.routable] at routable
  rw [busier.capacity] at free
  exact mem_available.mpr
    ⟨listed, routable, accepted, Nat.lt_of_le_of_lt (busier.inflight _) free⟩

theorem Busier.available_eq_nil {p' : WorkerPool} (busier : p.Busier p')
    (nothing : p.available eligible = []) : p'.available eligible = [] := by
  rw [List.eq_nil_iff_forall_not_mem] at nothing ⊢
  exact fun r offered => nothing r (busier.available offered)

end WorkerPool

namespace PoolState

variable {s s' : PoolState} {c d : CallId} {eligible : Eligible} {r : NodeRecord}
  {call : Asyncio.Call NodeRecord}

/-- Call `c` is queued: it waits for a future that is not done. -/
def Pending (s : PoolState) (c : CallId) (eligible : Eligible) : Prop :=
  s.calls[c]? = some ⟨eligible, .suspended .pending⟩

theorem futureDone_eq_false :
    s.futureDone c = false ↔ ∃ eligible, s.Pending c eligible := by
  unfold futureDone Pending
  cases found : s.calls[c]? with
  | none => simp
  | some x =>
      obtain ⟨eligible, call⟩ := x
      simp

theorem getElem?_setCall :
    (s.setCall c call).calls[d]? =
      (s.calls[d]?).map fun x => if c = d then { x with call := call } else x :=
  List.getElem?_modify ..

@[simp] theorem setCall_pool : (s.setCall c call).pool = s.pool := rfl

@[simp] theorem setCall_grants : (s.setCall c call).grants = s.grants := rfl

@[simp] theorem grant_calls : (s.grant c eligible r).calls = s.calls := rfl

theorem pending_setCall (pending : (s.setCall c call).Pending d eligible) :
    (d ≠ c ∧ s.Pending d eligible) ∨ (d = c ∧ call = .suspended .pending) := by
  unfold Pending at pending
  rw [getElem?_setCall] at pending
  obtain ⟨old, found, eq⟩ := Option.map_eq_some_iff.mp pending
  by_cases same : c = d
  · rw [if_pos same] at eq
    exact Or.inr ⟨same.symm, congrArg PoolCall.call eq⟩
  · rw [if_neg same] at eq
    exact Or.inl ⟨Ne.symm same, found.trans (congrArg some eq)⟩

theorem Pending.setCall_ne (pending : s.Pending d eligible) (other : d ≠ c) :
    (s.setCall c call).Pending d eligible := by
  unfold Pending
  rw [getElem?_setCall, pending, Option.map_some, if_neg (Ne.symm other)]

/-! ## The loop of `_promote` -/

/-- The state once the generator has drawn a number. -/
def drawn (s : PoolState) : PoolState := { s with pool := { s.pool with rng := s.pool.rng.tail } }

/-- `Promotes s l s' kept`: from `s` the loop over `l` ends in `s'` and keeps `kept`. -/
inductive Promotes : PoolState → List Waiter → PoolState → List Waiter → Prop
  | nil {s : PoolState} : Promotes s [] s []
  | skip {s s' : PoolState} {w : Waiter} {rest kept : List Waiter} :
    s.futureDone w.call = true → Promotes s rest s' kept → Promotes s (w :: rest) s' kept
  | grant {s s' : PoolState} {w : Waiter} {rest kept : List Waiter} {r : NodeRecord} :
    s.futureDone w.call = false → r ∈ s.pool.available w.eligible →
    Promotes (s.drawn.resolve w r) rest s' kept → Promotes s (w :: rest) s' kept
  | keep {s s' : PoolState} {w : Waiter} {rest kept : List Waiter} :
    s.futureDone w.call = false → s.pool.available w.eligible = [] →
    Promotes s rest s' kept → Promotes s (w :: rest) s' (w :: kept)

theorem promotes_loop (l : List Waiter) (s : PoolState) :
    Promotes s l (promoteLoop l s).1 (promoteLoop l s).2 := by
  induction l generalizing s with
  | nil => exact .nil
  | cons w rest ih =>
    unfold promoteLoop
    cases done : s.futureDone w.call with
    | true => exact .skip done (ih s)
    | false =>
      rw [if_neg (by simp)]
      cases chosen : s.pool.choice (s.pool.available w.eligible) with
      | some pick =>
        obtain ⟨r, pool⟩ := pick
        obtain ⟨offered, rfl⟩ := WorkerPool.choice_some chosen
        exact .grant done offered (ih _)
      | none => exact .keep done (WorkerPool.choice_none chosen) (ih s)

section Promotes

variable {l kept : List Waiter}

/-- The loop takes slots and gives none back. -/
theorem Promotes.busier (loop : Promotes s l s' kept) : s.pool.Busier s'.pool := by
  induction loop with
  | nil => exact .refl _
  | skip _ _ ih => exact ih
  | @grant s _ _ _ _ r _ _ _ ih =>
    have taken : s.pool.Busier (s.drawn.pool.take r) :=
      ⟨rfl, rfl, rfl, (WorkerPool.Busier.take s.pool r).inflight⟩
    exact taken.trans ih
  | keep _ _ _ ih => exact ih

theorem Promotes.kept_sublist (loop : Promotes s l s' kept) : kept.Sublist l := by
  induction loop with
  | nil => exact .refl _
  | skip _ _ ih => exact ih.cons _
  | grant _ _ _ ih => exact ih.cons _
  | keep _ _ _ ih => exact ih.cons_cons _

theorem Promotes.length (loop : Promotes s l s' kept) : s'.calls.length = s.calls.length := by
  induction loop with
  | nil => rfl
  | skip _ _ ih => exact ih
  | grant _ _ _ ih => exact ih.trans (List.length_modify ..)
  | keep _ _ _ ih => exact ih

end Promotes

/-- `s'` is `s` after `_promote`. -/
def Promoted (s s' : PoolState) : Prop :=
  ∃ s₁ kept, Promotes s s.pool.waiters s₁ kept ∧
    s' = { s₁ with pool := { s₁.pool with waiters := kept } }

theorem Promoted.length (promoted : Promoted s s') : s'.calls.length = s.calls.length := by
  obtain ⟨s₁, kept, loop, rfl⟩ := promoted
  exact loop.length

theorem Promoted.of_isEmpty (nobody : s.pool.waiters.isEmpty = true) : Promoted s s := by
  have queue := List.isEmpty_iff.mp nobody
  refine ⟨s, [], ?_, ?_⟩
  · rw [queue]
    exact .nil
  · rw [← queue]

theorem promoted_promote (s : PoolState) : Promoted s s.promote := by
  unfold promote
  split
  · next nobody => exact .of_isEmpty nobody
  · exact ⟨_, _, promotes_loop _ _, rfl⟩

/-! ## The other sections -/

theorem acquire_cases (s : PoolState) (eligible : Eligible) : ∃ s₁, Promoted s s₁ ∧
    ((∃ r ∈ s₁.pool.available eligible, s.acquire eligible =
        { s₁.drawn.grant s.calls.length eligible r with
          calls := s₁.calls ++ [⟨eligible, .returned r⟩] }) ∨
      (s₁.pool.available eligible = [] ∧ s₁.pool.serving eligible = [] ∧ s.acquire eligible =
        { s₁ with calls := s₁.calls ++ [⟨eligible, .ended⟩] }) ∨
      (s₁.pool.available eligible = [] ∧ s₁.pool.serving eligible ≠ [] ∧ s.acquire eligible =
        { s₁ with
          pool := { s₁.pool with waiters := s₁.pool.waiters ++ [⟨s.calls.length, eligible⟩] }
          calls := s₁.calls ++ [⟨eligible, .suspended .pending⟩] })) := by
  refine ⟨s.promote, promoted_promote s, ?_⟩
  unfold acquire
  dsimp only
  cases chosen : s.promote.pool.choice (s.promote.pool.available eligible) with
  | some pick =>
    obtain ⟨r, pool⟩ := pick
    obtain ⟨offered, rfl⟩ := WorkerPool.choice_some chosen
    exact Or.inl ⟨r, offered, rfl⟩
  | none =>
    have nothing := WorkerPool.choice_none chosen
    dsimp only
    split
    · next healthy => exact Or.inr (Or.inl ⟨nothing, List.length_eq_zero_iff.mp healthy, rfl⟩)
    · next healthy =>
      exact Or.inr (Or.inr ⟨nothing, fun gone => healthy (List.length_eq_zero_iff.mpr gone), rfl⟩)

/-- A resumed caller has its worker, or leaves the queue, or gives back what came
after it was interrupted. -/
theorem resume_cases (run : s.resume c = some s') : ∃ eligible w,
    s.calls[c]? = some ⟨eligible, .suspended w⟩ ∧
    ((∃ r, w.resume = some (.ok r) ∧ s' = s.setCall c (.returned r)) ∨
      ∃ cause, w.resume = some (.error cause) ∧
        (((∃ x ∈ s.pool.waiters, x.call = c) ∧ s' = { s.setCall c .ended with
            pool := { s.pool with waiters := s.pool.waiters.filter fun x => x.call ≠ c } }) ∨
          ((∀ x ∈ s.pool.waiters, x.call ≠ c) ∧
            ((∃ r, w.result? = some r ∧ s' = (s.setCall c .ended).release r.nodeId) ∨
              (w.result? = none ∧ s' = s.setCall c .ended))))) := by
  unfold resume at run
  split at run
  · next eligible w called =>
    refine ⟨eligible, w, called, ?_⟩
    cases outcome : w.resume with
    | none => rw [outcome] at run; cases run
    | some result =>
      cases result with
      | ok r =>
        rw [outcome] at run
        exact Or.inl ⟨r, rfl, (Option.some.inj run).symm⟩
      | error cause =>
        refine Or.inr ⟨cause, rfl, ?_⟩
        rw [outcome] at run
        dsimp only at run
        split at run
        · next queued =>
          exact Or.inl ⟨by simpa using queued, (Option.some.inj run).symm⟩
        · next gone =>
          refine Or.inr ⟨by simpa using gone, ?_⟩
          cases held : w.result? with
          | none => rw [held] at run; exact Or.inr ⟨rfl, (Option.some.inj run).symm⟩
          | some r => rw [held] at run; exact Or.inl ⟨r, rfl, (Option.some.inj run).symm⟩
  · cases run

theorem interrupt_cases {cause : Asyncio.Interrupt} (run : s.interrupt c cause = some s') :
    ∃ eligible w, s.calls[c]? = some ⟨eligible, .suspended w⟩ ∧
      s' = s.setCall c (.suspended (w.interrupt cause)) := by
  unfold interrupt at run
  split at run
  · next eligible w called => exact ⟨eligible, w, called, (Option.some.inj run).symm⟩
  · cases run

theorem releaseHeld_cases (run : s.releaseHeld c = some s') :
    ∃ eligible r, s.calls[c]? = some ⟨eligible, .returned r⟩ ∧
      s' = (s.setCall c .ended).release r.nodeId := by
  unfold releaseHeld at run
  split at run
  · next eligible r called => exact ⟨eligible, r, called, (Option.some.inj run).symm⟩
  · cases run

theorem promoted_release (s : PoolState) (n : NodeId) :
    Promoted { s with pool := s.pool.giveBack n } (s.release n) :=
  promoted_promote _

theorem promoted_tick (s : PoolState) : Promoted s s.tick := by
  unfold tick
  split
  · next nobody => exact .of_isEmpty nobody
  · exact promoted_promote s

end PoolState

end Oumigo
