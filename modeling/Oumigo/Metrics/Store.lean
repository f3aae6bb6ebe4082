import Oumigo.Foundation.Dict
import Oumigo.Foundation.Text
import Oumigo.Metrics.Buffer

/-!
# The manager's metric store

`MetricStore` of `service/manager/control/store.py`: an upsert-keyed table of facts
that forgets what is older than its retention.  A statement under the store's lock is
one function of the state; `datetime.now` is the argument `now`.
-/

namespace Oumigo

/-- `MetricPoint`: a row as it is reported, without its node. -/
structure MetricPoint (V : Type := Rat) where
  timestamp : Int
  metric : String
  value : V
  deriving DecidableEq, Repr

/-- `MetricStore`, with the table `metric_fact` by its primary key. -/
structure MetricStore (V : Type := Rat) where
  retentionS : Rat
  fact : Dict (NodeId × String × Int) V

namespace MetricStore

variable {V : Type}

/-- `_cutoff`: the format drops the fraction of a second. -/
def cutoff (store : MetricStore V) (now : Rat) : Int := (now - store.retentionS).floor

/-- `INSERT ... ON CONFLICT DO UPDATE` for each point. -/
def upsert (nodeId : NodeId) (fact : Dict (NodeId × String × Int) V)
    (points : List (MetricPoint V)) : Dict (NodeId × String × Int) V :=
  points.foldl (fun fact p => fact.set (nodeId, p.metric, p.timestamp) p.value) fact

/-- `_prune_locked`. -/
def prune (store : MetricStore V) (now : Rat) : MetricStore V :=
  { store with fact := store.fact.filterMap fun key value =>
      if key.2.2 < store.cutoff now then none else some value }

/-- `ingest`. -/
def ingest (store : MetricStore V) (nodeId : NodeId) (points : List (MetricPoint V)) (now : Rat) :
    MetricStore V :=
  prune { store with fact := upsert nodeId store.fact points } now

/-- `metric LIKE p%` for a text without wildcards: letters match in either case. -/
def like (start metric : String) : Bool :=
  Python.startsWith (Python.lower start) (Python.lower metric)

/-- `since`: the facts after a slot (`none` for the empty string) whose metric starts with
one of the texts, if there are any, by slot. -/
def since (store : MetricStore V) (after : Option Int) (starts : List String) :
    List ((NodeId × String × Int) × V) :=
  let rows := store.fact.entries.filter fun row =>
    (match after with
      | some slot => slot < row.1.2.2
      | none => true) && (starts.isEmpty || starts.any fun start => like start row.1.2.1)
  rows.mergeSort fun row row' => row.1.2.2 ≤ row'.1.2.2

/-- `MAX(timestamp)` of a node. -/
def latest (store : MetricStore V) (nodeId : NodeId) : Option Int :=
  ((store.fact.keys.filter fun key => key.1 = nodeId).map fun key => key.2.2).max?

/-- `latest_per_node`: for each node its latest slot and the facts there. -/
def latestPerNode (store : MetricStore V) : List (NodeId × Int × List (String × V)) :=
  let nodes := (store.fact.keys.map Prod.fst).dedup.mergeSort fun n n' => decide (n ≤ n')
  nodes.filterMap fun nodeId =>
    (store.latest nodeId).map fun slot =>
      let rows := store.fact.entries.filterMap fun row =>
        if row.1.1 = nodeId ∧ row.1.2.2 = slot then some (row.1.2.1, row.2) else none
      (nodeId, slot, rows.mergeSort fun metric metric' => decide (metric.1 ≤ metric'.1))

variable {store : MetricStore V} {nodeId : NodeId} {points : List (MetricPoint V)} {now : Rat}
  {fact : Dict (NodeId × String × Int) V} {key : NodeId × String × Int}

/-- A fact is the old one, or a point of the batch. -/
theorem get?_upsert_cases (nodeId : NodeId) (fact : Dict (NodeId × String × Int) V)
    (points : List (MetricPoint V)) (key : NodeId × String × Int) :
    (upsert nodeId fact points).get? key = fact.get? key ∨
    ∃ p ∈ points, key = (nodeId, p.metric, p.timestamp) ∧
      (upsert nodeId fact points).get? key = some p.value := by
  induction points generalizing fact with
  | nil => exact Or.inl rfl
  | cons p rest ih =>
    rcases ih (fact.set (nodeId, p.metric, p.timestamp) p.value) with old | later
    · by_cases same : key = (nodeId, p.metric, p.timestamp)
      · refine Or.inr ⟨p, List.mem_cons_self, same, old.trans ?_⟩
        rw [Dict.get?_set, if_pos same]
      · refine Or.inl (old.trans ?_)
        rw [Dict.get?_set, if_neg same]
    · obtain ⟨q, member, same, found⟩ := later
      exact Or.inr ⟨q, List.mem_cons_of_mem _ member, same, found⟩

/-- What the batch has a point for is a fact afterwards. -/
theorem get?_upsert_mem (nodeId : NodeId) (fact : Dict (NodeId × String × Int) V)
    {p : MetricPoint V} (member : p ∈ points) :
    ∃ q ∈ points, (nodeId, q.metric, q.timestamp) = (nodeId, p.metric, p.timestamp) ∧
      (upsert nodeId fact points).get? (nodeId, p.metric, p.timestamp) = some q.value := by
  induction points generalizing fact with
  | nil => cases member
  | cons first rest ih =>
    rcases List.mem_cons.mp member with rfl | later
    · rcases get?_upsert_cases nodeId (fact.set (nodeId, p.metric, p.timestamp) p.value) rest
        (nodeId, p.metric, p.timestamp) with old | ⟨q, inside, same, found⟩
      · refine ⟨p, List.mem_cons_self, rfl, old.trans ?_⟩
        rw [Dict.get?_set, if_pos rfl]
      · exact ⟨q, List.mem_cons_of_mem _ inside, same.symm, found⟩
    · obtain ⟨q, inside, same, found⟩ := ih _ later
      exact ⟨q, List.mem_cons_of_mem _ inside, same, found⟩

theorem get?_prune :
    (store.prune now).fact.get? key =
      if key.2.2 < store.cutoff now then none else store.fact.get? key := by
  unfold prune
  rw [Dict.get?_filterMap]
  cases store.fact.get? key with
  | none => split <;> rfl
  | some value => rfl

/-- A fact after a batch: pruned, or as the batch left it. -/
theorem get?_ingest :
    (store.ingest nodeId points now).fact.get? key =
      if key.2.2 < store.cutoff now then none else (upsert nodeId store.fact points).get? key :=
  get?_prune

end MetricStore

end Oumigo
