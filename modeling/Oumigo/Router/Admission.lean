import Oumigo.Router.Accounting

/-!
# Every slot is counted, and granted within its worker's capacity

The in-flight count of a node is the number of slots granted on it and not given
back, in every state any interleaving reaches; every grant goes to a worker that
could take it at that instant; and while capacities are not lowered no count
exceeds its worker's capacity.
-/

namespace Oumigo

/-- What a grant needs of the worker, in the pool as it is at that instant. -/
structure Grant.Admissible (g : Grant) : Prop where
  listed : g.record ∈ g.pool.registry.list
  serving : g.record.state = .serving
  tunnel : g.record.transport = .tunnel →
    ∃ tunnels, g.pool.tunnels = some tunnels ∧ 0 < tunnels.connected g.record.nodeId
  eligible : g.eligible.accepts g.record = true
  free : g.pool.inflight g.record.nodeId < g.pool.capacity g.record

theorem WorkerPool.routable_iff {p : WorkerPool} {r : NodeRecord} :
    p.routable r = true ↔ r.state = .serving ∧ (r.transport = .tunnel →
      ∃ tunnels, p.tunnels = some tunnels ∧ 0 < tunnels.connected r.nodeId) := by
  unfold WorkerPool.routable
  by_cases serving : r.state = .serving
  · rw [if_neg (not_not.mpr serving)]
    cases transport : r.transport with
    | direct => simp [serving]
    | tunnel => cases tunnels : p.tunnels <;> simp [serving]
  · simp [serving]

theorem Grant.Admissible.of_available {g : Grant} (offered : g.record ∈ g.pool.available g.eligible) :
    g.Admissible := by
  obtain ⟨listed, routable, accepted, free⟩ := WorkerPool.mem_available.mp offered
  obtain ⟨serving, tunnel⟩ := WorkerPool.routable_iff.mp routable
  exact ⟨listed, serving, tunnel, accepted, free⟩

namespace WorkerPool

/-- The same workers, tunnels and default: what a section of the pool leaves alone. -/
structure SameFleet (p p' : WorkerPool) : Prop where
  registry : p'.registry = p.registry
  tunnels : p'.tunnels = p.tunnels
  defaultCapacity : p'.defaultCapacity = p.defaultCapacity

theorem SameFleet.trans {p p' p'' : WorkerPool} (first : p.SameFleet p')
    (second : p'.SameFleet p'') : p.SameFleet p'' :=
  ⟨second.registry.trans first.registry, second.tunnels.trans first.tunnels,
    second.defaultCapacity.trans first.defaultCapacity⟩

theorem sameFleet_giveBack (p : WorkerPool) (n : NodeId) : p.SameFleet (p.giveBack n) :=
  ⟨giveBack_registry, giveBack_tunnels, giveBack_defaultCapacity⟩

theorem SameFleet.capacity {p p' : WorkerPool} (same : p.SameFleet p') (r : NodeRecord) :
    p'.capacity r = p.capacity r := by
  unfold WorkerPool.capacity
  rw [same.defaultCapacity]

/-- No count grew, except up to the capacity of a listed worker. -/
def Within (p p' : WorkerPool) : Prop :=
  ∀ n, p'.inflight n ≤ p.inflight n ∨
    ∃ r ∈ p.registry.list, r.nodeId = n ∧ p'.inflight n ≤ p.capacity r

theorem Within.of_le {p p' : WorkerPool} (le : ∀ n, p'.inflight n ≤ p.inflight n) :
    p.Within p' := fun n => Or.inl (le n)

theorem Within.take {p : WorkerPool} {eligible : Eligible} {r : NodeRecord}
    (offered : r ∈ p.available eligible) : p.Within (p.take r) := by
  intro n
  obtain ⟨listed, -, -, free⟩ := mem_available.mp offered
  rw [inflight_take]
  by_cases same : r.nodeId = n
  · refine Or.inr ⟨r, listed, same, ?_⟩
    rw [if_pos same, ← same]
    exact free
  · exact Or.inl (by simp [same])

theorem Within.trans {p p' p'' : WorkerPool} (first : p.Within p') (same : p.SameFleet p')
    (second : p'.Within p'') : p.Within p'' := by
  intro n
  rcases second n with le | ⟨r, listed, node, le⟩
  · rcases first n with le' | ⟨r, listed, node, le'⟩
    · exact Or.inl (le.trans le')
    · exact Or.inr ⟨r, listed, node, le.trans le'⟩
  · rw [same.registry] at listed
    rw [same.capacity] at le
    exact Or.inr ⟨r, listed, node, le⟩

end WorkerPool

namespace PoolState

variable {s s' : PoolState} {l kept : List Waiter} {e : PoolEvent}

/-- What the pool did from `s` to `s'`: it granted `new`, on the fleet of `s`, and
let no count grow past a capacity. -/
structure Granted (s s' : PoolState) (new : List Grant) : Prop where
  grants : s'.grants = s.grants ++ new
  fleet : s.pool.SameFleet s'.pool
  grant_fleet : ∀ g ∈ new, s.pool.SameFleet g.pool
  within : s.pool.Within s'.pool

theorem Granted.nothing (grants : s'.grants = s.grants) (fleet : s.pool.SameFleet s'.pool)
    (le : ∀ n, s'.pool.inflight n ≤ s.pool.inflight n) : Granted s s' [] :=
  ⟨by rw [grants, List.append_nil], fleet, fun _ member => (nomatch member), .of_le le⟩

theorem Granted.trans {s'' : PoolState} {new new' : List Grant} (first : Granted s s' new)
    (second : Granted s' s'' new') : Granted s s'' (new ++ new') where
  grants := by rw [second.grants, first.grants, List.append_assoc]
  fleet := first.fleet.trans second.fleet
  grant_fleet := fun g member => by
    rcases List.mem_append.mp member with left | right
    · exact first.grant_fleet g left
    · exact first.fleet.trans (second.grant_fleet g right)
  within := first.within.trans first.fleet second.within

/-- One slot is granted. -/
theorem Granted.one {c : CallId} {eligible : Eligible} {r : NodeRecord}
    (offered : r ∈ s.pool.available eligible) {calls : List PoolCall} :
    Granted s { s.drawn.grant c eligible r with calls } [⟨s.drawn.pool, c, eligible, r⟩] where
  grants := rfl
  fleet := ⟨rfl, rfl, rfl⟩
  grant_fleet := fun g member => by
    cases List.mem_singleton.mp member
    exact ⟨rfl, rfl, rfl⟩
  within := WorkerPool.Within.take (p := s.pool) offered

theorem Promotes.granted (loop : Promotes s l s' kept) : ∃ new, Granted s s' new ∧
    ∀ g ∈ new, s.pool.Busier g.pool ∧ g.record ∈ g.pool.available g.eligible ∧
      ⟨g.call, g.eligible⟩ ∈ l := by
  induction loop with
  | nil =>
    exact ⟨[], .nothing rfl ⟨rfl, rfl, rfl⟩ fun _ => Nat.le_refl _, fun _ member => nomatch member⟩
  | skip _ _ ih =>
    obtain ⟨new, granted, source⟩ := ih
    exact ⟨new, granted, fun g member =>
      ⟨(source g member).1, (source g member).2.1,
        List.mem_cons_of_mem _ (source g member).2.2⟩⟩
  | @grant s _ w rest _ r _ offered loop ih =>
    obtain ⟨new, granted, source⟩ := ih
    have first : Granted s (s.drawn.resolve w r) _ := Granted.one offered
    have taken : s.pool.Busier (s.drawn.resolve w r).pool :=
      ⟨rfl, rfl, rfl, (WorkerPool.Busier.take s.pool r).inflight⟩
    refine ⟨_, first.trans granted, fun g member => ?_⟩
    rcases List.mem_cons.mp member with rfl | later
    · exact ⟨⟨rfl, rfl, rfl, fun _ => Nat.le_refl _⟩, offered, List.mem_cons_self⟩
    · obtain ⟨busier, free, queued⟩ := source g later
      exact ⟨taken.trans busier, free, List.mem_cons_of_mem _ queued⟩
  | keep _ _ _ ih =>
    obtain ⟨new, granted, source⟩ := ih
    exact ⟨new, granted, fun g member =>
      ⟨(source g member).1, (source g member).2.1,
        List.mem_cons_of_mem _ (source g member).2.2⟩⟩

theorem Promoted.granted (promoted : Promoted s s') : ∃ new, Granted s s' new := by
  obtain ⟨s₁, kept, loop, rfl⟩ := promoted
  obtain ⟨new, granted, -⟩ := loop.granted
  exact ⟨new, granted.grants, ⟨granted.fleet.registry, granted.fleet.tunnels,
    granted.fleet.defaultCapacity⟩, granted.grant_fleet, granted.within⟩

theorem granted_release (s : PoolState) (c : CallId) (n : NodeId) :
    ∃ new, Granted s ((s.setCall c .ended).release n) new := by
  obtain ⟨new, granted⟩ := (promoted_release (s.setCall c .ended) n).granted
  have back : Granted s { s.setCall c .ended with pool := s.pool.giveBack n } [] := by
    refine .nothing rfl (s.pool.sameFleet_giveBack n) fun n' => ?_
    by_cases same : n' = n
    · subst same
      exact WorkerPool.inflight_giveBack.trans_le (Nat.sub_le ..)
    · exact (WorkerPool.inflight_giveBack_ne same).le
  exact ⟨_, back.trans granted⟩

theorem granted_step (run : s.step e = some s') (inside : ∀ reg tunnels, e ≠ .environment reg tunnels) :
    ∃ new, Granted s s' new := by
  cases e with
  | acquire eligible =>
    cases run
    obtain ⟨s₁, promoted, outcome⟩ := s.acquire_cases eligible
    obtain ⟨new, granted⟩ := promoted.granted
    rcases outcome with ⟨r, offered, result⟩ | ⟨-, -, result⟩ | ⟨-, -, result⟩ <;> rw [result]
    · exact ⟨_, granted.trans (.one offered)⟩
    · exact ⟨_, granted.trans (.nothing rfl ⟨rfl, rfl, rfl⟩ fun _ => Nat.le_refl _)⟩
    · exact ⟨_, granted.trans (.nothing rfl ⟨rfl, rfl, rfl⟩ fun _ => Nat.le_refl _)⟩
  | resume c =>
    obtain ⟨eligible, w, called, ⟨r, -, rfl⟩ | ⟨cause, -, ⟨-, rfl⟩ | ⟨-, ⟨r, -, rfl⟩ | ⟨-, rfl⟩⟩⟩⟩ :=
      resume_cases run
    · exact ⟨[], .nothing rfl ⟨rfl, rfl, rfl⟩ fun _ => Nat.le_refl _⟩
    · exact ⟨[], .nothing rfl ⟨rfl, rfl, rfl⟩ fun _ => Nat.le_refl _⟩
    · exact granted_release s c r.nodeId
    · exact ⟨[], .nothing rfl ⟨rfl, rfl, rfl⟩ fun _ => Nat.le_refl _⟩
  | interrupt c cause =>
    obtain ⟨eligible, w, -, rfl⟩ := interrupt_cases run
    exact ⟨[], .nothing rfl ⟨rfl, rfl, rfl⟩ fun _ => Nat.le_refl _⟩
  | release c =>
    obtain ⟨eligible, r, -, rfl⟩ := releaseHeld_cases run
    exact granted_release s c r.nodeId
  | tick => cases run; exact (promoted_tick s).granted
  | environment registry tunnels => exact (inside registry tunnels rfl).elim

/-- The new grants of any step; a change from outside grants nothing. -/
theorem new_grants (run : s.step e = some s') : ∃ new, s'.grants = s.grants ++ new ∧
    ∀ g ∈ new, s.pool.SameFleet g.pool := by
  by_cases outside : ∃ registry tunnels, e = .environment registry tunnels
  · obtain ⟨registry, tunnels, rfl⟩ := outside
    cases run
    exact ⟨[], (List.append_nil _).symm, fun _ member => nomatch member⟩
  · obtain ⟨new, granted⟩ := granted_step run fun registry tunnels same =>
      outside ⟨registry, tunnels, same⟩
    exact ⟨new, granted.grants, granted.grant_fleet⟩

/-! ## Capacities along a run -/

/-- Every count is within the capacity its node had somewhere in the run. -/
theorem inflight_le_of_history {past : List PoolState} (history : poolSystem.History (s :: past))
    (n : NodeId) : s.pool.inflight n = 0 ∨ ∃ s₀ ∈ s :: past, ∃ r ∈ s₀.pool.registry.list,
      r.nodeId = n ∧ s.pool.inflight n ≤ s₀.pool.capacity r := by
  generalize whole : s :: past = states at history
  induction history generalizing s past with
  | init start =>
    cases whole
    obtain ⟨_, _, _, _, rfl⟩ := start
    exact Or.inl rfl
  | @step t t' past e _ run ih =>
    cases whole
    have grew : t'.pool.inflight n ≤ t.pool.inflight n ∨
        ∃ r ∈ t.pool.registry.list, r.nodeId = n ∧ t'.pool.inflight n ≤ t.pool.capacity r := by
      by_cases outside : ∃ registry tunnels, e = .environment registry tunnels
      · obtain ⟨registry, tunnels, rfl⟩ := outside
        cases run
        exact Or.inl (Nat.le_refl _)
      · obtain ⟨new, granted⟩ := granted_step run fun registry tunnels same =>
          outside ⟨registry, tunnels, same⟩
        exact granted.within n
    rcases grew with le | ⟨r, listed, node, le⟩
    · rcases ih rfl with zero | ⟨s₀, member, r, listed, node, bound⟩
      · exact Or.inl (Nat.le_zero.mp (zero ▸ le))
      · exact Or.inr ⟨s₀, List.mem_cons_of_mem _ member, r, listed, node, le.trans bound⟩
    · exact Or.inr ⟨t, by simp, r, listed, node, le⟩

/-- No worker's capacity is lower in `later` than in `earlier`. -/
def CapacityKept (later earlier : PoolState) : Prop :=
  ∀ r ∈ earlier.pool.registry.list, ∀ r' ∈ later.pool.registry.list, r.nodeId = r'.nodeId →
    earlier.pool.capacity r ≤ later.pool.capacity r'

theorem inflight_le_capacity {past : List PoolState} (history : poolSystem.History (s :: past))
    (keptUp : (s :: past).Pairwise CapacityKept) {r : NodeRecord} (listed : r ∈ s.pool.registry.list) :
    s.pool.inflight r.nodeId ≤ s.pool.capacity r := by
  rcases inflight_le_of_history history r.nodeId with zero | ⟨s₀, member, r₀, listed₀, node, le⟩
  · rw [zero]
    exact Nat.zero_le _
  · rcases List.mem_cons.mp member with rfl | earlier
    · cases Registry.eq_of_mem_list listed listed₀ node.symm
      exact le
    · exact le.trans (List.rel_of_pairwise_cons keptUp earlier r₀ listed₀ r listed node)

end PoolState

open PoolState in
/-- **Slot accounting.**  In every state any interleaving reaches, a node's count is
the number of slots granted on it and not given back, and each of those was granted
to the call that holds it; every step grants admissible slots only; and in a run
that lowers no capacity no count exceeds its worker's capacity. -/
theorem pool_slots_accounted {s : PoolState} (reached : poolSystem.Reachable s) :
    (∀ n, s.pool.inflight n = heldOn s.calls n) ∧
    (∀ c eligible call r, s.calls[c]? = some ⟨eligible, call⟩ → call.held? = some r →
      ∃ g ∈ s.grants, g.call = c ∧ g.eligible = eligible ∧ g.record = r) ∧
    (∀ g ∈ s.grants, g.Admissible) ∧
    (∀ e s', s.step e = some s' → ∃ new, s'.grants = s.grants ++ new ∧
      ∀ g ∈ new, s.pool.SameFleet g.pool ∧ g.Admissible) ∧
    ∀ past, poolSystem.History (s :: past) → (s :: past).Pairwise CapacityKept →
      ∀ r ∈ s.pool.registry.list, s.pool.inflight r.nodeId ≤ s.pool.capacity r := by
  have inv := inv_of_reachable reached
  refine ⟨inv.counted, inv.granted, fun g member => .of_available (inv.admissible g member),
    fun e s' run => ?_, fun past history keptUp r listed =>
      inflight_le_capacity history keptUp listed⟩
  obtain ⟨new, grants, fleet⟩ := new_grants run
  have after := inv_step inv run
  refine ⟨new, grants, fun g member => ⟨fleet g member, .of_available (after.admissible g ?_)⟩⟩
  rw [grants]
  exact List.mem_append_right _ member

/-- A fleet of one worker that takes one request at a time. -/
def oneWorker : PoolState :=
  .initial (.new (Registry.empty.register 0 "n" "10.0.0.1" .serving 0 ⟨none, none⟩ (some 7001)
    none none .direct none) 1 [] none)

/-- Of two callers the first has the slot, and the count says so. -/
theorem pool_slots_accounted_one_worker :
    ((oneWorker.acquire none).acquire none).pool.inflight "n" =
        PoolState.heldOn ((oneWorker.acquire none).acquire none).calls "n" ∧
      ((oneWorker.acquire none).acquire none).pool.inflight "n" = 1 :=
  ⟨(pool_slots_accounted (.step (e := .acquire none) (.step (e := .acquire none)
    (.init ⟨_, _, _, _, rfl⟩) trivial rfl) trivial rfl)).1 "n", by decide⟩

end Oumigo
