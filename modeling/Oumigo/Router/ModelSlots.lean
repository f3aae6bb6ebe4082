import Oumigo.Router.Admission
import Oumigo.Router.Selection

/-!
# The free slots of one model

`workers` is what the pool asks of the fleet: of every record its id, its capacity, whether it
is routable and the model it serves.  `freeSlots` counts the slots a model's workers have left,
and all that decides whether a request for the model can be granted is whether that count is
zero (`available_eq_nil_iff`).
-/

namespace Oumigo

/-! ## A sum over workers with distinct ids -/

section Slots

variable {κ : Type} [DecidableEq κ] {ws : List (κ × Nat)} {n : κ} {cap : Nat}

theorem slots_update_of_not_mem (absent : n ∉ ws.map Prod.fst) (used : κ → Nat) (v : Nat) :
    (ws.map fun x => x.2 - Function.update used n v x.1).sum =
      (ws.map fun x => x.2 - used x.1).sum := by
  congr 1
  apply List.map_congr_left
  intro x member
  have other : x.1 ≠ n := fun same => absent (List.mem_map.mpr ⟨x, member, same⟩)
  rw [Function.update_of_ne other]

theorem slots_update (distinct : (ws.map Prod.fst).Nodup) (member : (n, cap) ∈ ws)
    (used : κ → Nat) (v : Nat) :
    (ws.map fun x => x.2 - Function.update used n v x.1).sum + (cap - used n) =
      (ws.map fun x => x.2 - used x.1).sum + (cap - v) := by
  induction ws with
  | nil => cases member
  | cons w rest ih =>
    obtain ⟨absent, distinct⟩ := List.nodup_cons.mp distinct
    simp only [List.map_cons, List.sum_cons]
    rcases List.mem_cons.mp member with rfl | later
    · rw [slots_update_of_not_mem absent, Function.update_self]
      dsimp only
      omega
    · have other : w.1 ≠ n := by
        intro same
        apply absent
        rw [same]
        exact List.mem_map.mpr ⟨_, later, rfl⟩
      have rest_eq := ih distinct later
      rw [Function.update_of_ne other]
      omega

end Slots

namespace Registry

/-- The listed records have different ids. -/
theorem nodup_list (reg : Registry) : (reg.list.map NodeRecord.nodeId).Nodup := by
  have keys : reg.list.map NodeRecord.nodeId = reg.nodes.entries.map Prod.fst := by
    unfold list Dict.values
    rw [List.map_map]
    apply List.map_congr_left
    intro entry member
    exact reg.keyed entry.1 entry.2 (Dict.mem_entries.mp member)
  rw [keys]
  exact reg.nodes.nodup

end Registry

namespace WorkerPool

variable (cfg : RouterConfig) (p : WorkerPool)

/-- What the pool asks of the fleet about each record. -/
def workers : List (NodeId × Nat × Bool × Option String) :=
  p.registry.list.map fun r => (r.nodeId, p.capacity r, p.routable r, cfg.served r)

/-- The routable workers of the model, with their capacities. -/
def workersOf (modelId : String) : List (NodeId × Nat) :=
  (p.serving (cfg.eligible (some modelId))).map fun r => (r.nodeId, p.capacity r)

/-- The slots of the model's workers that are not in use. -/
def freeSlots (modelId : String) : Nat :=
  ((p.workersOf cfg modelId).map fun x => x.2 - p.inflight x.1).sum

variable {cfg p} {p' : WorkerPool} {modelId other : String} {r : NodeRecord} {n : NodeId}
  {cap : Nat}

theorem mem_workersOf : (n, cap) ∈ p.workersOf cfg modelId ↔
    ∃ r ∈ p.registry.list, p.routable r = true ∧ cfg.served r = some modelId ∧
      r.nodeId = n ∧ p.capacity r = cap := by
  simp only [workersOf, serving, List.mem_map, List.mem_filter, Bool.and_eq_true,
    RouterConfig.eligible, Eligible.accepts, decide_eq_true_eq, Prod.mk.injEq, and_assoc]

theorem nodup_workersOf : ((p.workersOf cfg modelId).map Prod.fst).Nodup := by
  unfold workersOf serving
  rw [List.map_map]
  exact (p.registry.nodup_list).sublist (List.filter_sublist.map _)

/-- A worker serves one model. -/
theorem model_unique {cap' : Nat} (here : (n, cap) ∈ p.workersOf cfg modelId)
    (there : (n, cap') ∈ p.workersOf cfg other) : modelId = other := by
  obtain ⟨r, listed, _, served, node, _⟩ := mem_workersOf.mp here
  obtain ⟨r', listed', _, served', node', _⟩ := mem_workersOf.mp there
  cases Registry.eq_of_mem_list listed listed' (node.trans node'.symm)
  exact Option.some.inj (served.symm.trans served')

theorem workersOf_eq : p.workersOf cfg modelId = (p.workers cfg).filterMap fun w =>
    if w.2.2.1 && decide (w.2.2.2 = some modelId) then some (w.1, w.2.1) else none := by
  unfold workersOf serving workers
  induction p.registry.list with
  | nil => rfl
  | cons r rest ih =>
    have accepts : (cfg.eligible (some modelId)).accepts r =
        decide (cfg.served r = some modelId) := rfl
    rw [List.filter_cons, List.map_cons, List.filterMap_cons, ← ih, accepts]
    by_cases routable : p.routable r = true <;> by_cases served : cfg.served r = some modelId <;>
      simp [routable, served]

/-- The same workers, of whatever else changed in their records. -/
theorem workersOf_congr (same : p'.workers cfg = p.workers cfg) (modelId : String) :
    p'.workersOf cfg modelId = p.workersOf cfg modelId := by
  rw [workersOf_eq, workersOf_eq, same]

theorem SameFleet.workers (same : p.SameFleet p') : p'.workers cfg = p.workers cfg := by
  unfold WorkerPool.workers WorkerPool.capacity WorkerPool.routable
  rw [same.registry, same.tunnels, same.defaultCapacity]

theorem serving_eq_nil_iff :
    p.serving (cfg.eligible (some modelId)) = [] ↔ p.workersOf cfg modelId = [] := by
  unfold workersOf
  exact List.map_eq_nil_iff.symm

/-- **A free slot of the model** is all a request for it needs. -/
theorem available_eq_nil_iff :
    p.available (cfg.eligible (some modelId)) = [] ↔ p.freeSlots cfg modelId = 0 := by
  unfold available freeSlots workersOf
  rw [List.map_map, List.filter_eq_nil_iff]
  simp only [decide_eq_true_eq, Nat.not_lt]
  induction p.serving (cfg.eligible (some modelId)) with
  | nil => simp
  | cons r rest ih =>
    simp only [List.mem_cons, forall_eq_or_imp, List.map_cons, List.sum_cons,
      Function.comp_apply, Nat.add_eq_zero_iff, ih]
    rw [Nat.sub_eq_zero_iff_le]

/-! ## Slots taken and given back -/

theorem mem_workersOf_of_available (offered : r ∈ p.available (cfg.eligible (some modelId))) :
    (r.nodeId, p.capacity r) ∈ p.workersOf cfg modelId := by
  obtain ⟨listed, routable, accepted, _⟩ := mem_available.mp offered
  exact mem_workersOf.mpr ⟨r, listed, routable, of_decide_eq_true accepted, rfl, rfl⟩

/-- A slot of the model is taken. -/
theorem freeSlots_take (offered : r ∈ p.available (cfg.eligible (some modelId))) :
    (p.take r).freeSlots cfg modelId + 1 = p.freeSlots cfg modelId := by
  obtain ⟨_, _, _, free⟩ := mem_available.mp offered
  have total := slots_update nodup_workersOf (mem_workersOf_of_available offered) p.inflight
    (p.inflight r.nodeId + 1)
  change (((p.workersOf cfg modelId).map fun x => x.2 - (p.take r).inflight x.1).sum) + 1 = _
  unfold freeSlots
  unfold take
  dsimp only
  omega

/-- A slot of another model is taken. -/
theorem freeSlots_take_other (offered : r ∈ p.available (cfg.eligible (some other)))
    (differs : other ≠ modelId) :
    (p.take r).freeSlots cfg modelId = p.freeSlots cfg modelId := by
  apply slots_update_of_not_mem
  intro member
  obtain ⟨⟨n, cap⟩, here, same⟩ := List.mem_map.mp member
  cases same
  exact differs (model_unique (mem_workersOf_of_available offered) here)

/-- A slot of the model comes back. -/
theorem freeSlots_giveBack (worker : (n, cap) ∈ p.workersOf cfg modelId)
    (used : 0 < p.inflight n) (bounded : p.inflight n ≤ cap) :
    (p.giveBack n).freeSlots cfg modelId = p.freeSlots cfg modelId + 1 := by
  have total := slots_update nodup_workersOf worker p.inflight (p.inflight n - 1)
  have same : p.giveBack n =
      { p with inflight := Function.update p.inflight n (p.inflight n - 1) } := if_pos used
  rw [same]
  change (((p.workersOf cfg modelId).map fun x =>
    x.2 - Function.update p.inflight n (p.inflight n - 1) x.1).sum) = _
  unfold freeSlots
  omega

/-- A slot of another model comes back. -/
theorem freeSlots_giveBack_other (worker : (n, cap) ∈ p.workersOf cfg other)
    (differs : other ≠ modelId) :
    (p.giveBack n).freeSlots cfg modelId = p.freeSlots cfg modelId := by
  unfold giveBack
  split
  · apply slots_update_of_not_mem
    intro member
    obtain ⟨⟨n', cap'⟩, here, same⟩ := List.mem_map.mp member
    cases same
    exact differs (model_unique worker here)
  · rfl

end WorkerPool

end Oumigo
