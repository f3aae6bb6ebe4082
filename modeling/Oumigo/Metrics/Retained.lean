import Oumigo.Foundation.Calendar
import Oumigo.Metrics.Table
import Mathlib.Algebra.Order.Floor.Semiring
import Mathlib.Data.List.Dedup
import Mathlib.Data.Rat.Floor

/-!
# What the metric store retains

`MetricStore` of `service/manager/control/store.py` over any sequence of reports, with its
timestamps as texts: `ingest` upserts a batch and deletes what sorts before the cutoff.  Times
are counted in seconds as `Calendar.Time.seconds` does, `now` with its fraction.  Values are
numbers: SQLite keeps NaN as NULL, which the column refuses.

`fact_ingestAll` says what the table holds after any reports; the rest follows from it.
`Spells.ingest` connects the table with the store that has slots for timestamps.
-/

namespace Oumigo

open Calendar (Time)

/-- `MetricPoint`, as it is reported. -/
structure ReportedPoint (V : Type := Rat) where
  timestamp : String
  metric : String
  value : V
  deriving DecidableEq

/-- A report, and when it is ingested. -/
structure Report (V : Type := Rat) where
  nodeId : NodeId
  points : List (ReportedPoint V)
  now : Rat
  deriving DecidableEq

variable {V : Type}

/-- The rows of a report, in order. -/
def Report.rows (report : Report V) : List (MetricFact V) :=
  report.points.map fun p => ((report.nodeId, p.metric, p.timestamp), p.value)

namespace FactTable

/-- `_cutoff`, in the years that the format has four digits for. -/
def cutoff (table : FactTable V) (now : Rat) : Option String :=
  (Time.ofSeconds ⌊now - table.retentionS⌋.toNat).map Time.stamp

/-- `_prune_locked`: `DELETE ... WHERE timestamp < ?`. -/
def prune (table : FactTable V) (cutoff : String) : FactTable V :=
  { table with fact := table.fact.filterMap fun key value =>
      if key.2.2 < cutoff then none else some value }

/-- `ingest`: `INSERT ... ON CONFLICT DO UPDATE` for each row, and the pruning. -/
def ingest (table : FactTable V) (report : Report V) : Option (FactTable V) :=
  (table.cutoff report.now).map
    (prune { table with fact := table.fact.update report.rows })

/-- A sequence of reports. -/
def ingestAll (table : FactTable V) (reports : List (Report V)) : Option (FactTable V) :=
  reports.foldlM ingest table

/-- `MAX(timestamp)` of a node. -/
def latest (table : FactTable V) (nodeId : NodeId) : Option String :=
  ((table.fact.keys.filter fun key => key.1 = nodeId).map fun key => key.2.2).max?

/-- The metrics of a node at a timestamp, by name. -/
def metricsAt (table : FactTable V) (nodeId : NodeId) (timestamp : String) : List (String × V) :=
  let rows := table.fact.entries.filterMap fun row =>
    if row.1.1 = nodeId ∧ row.1.2.2 = timestamp then some (row.1.2.1, row.2) else none
  rows.mergeSort fun metric metric' => decide (metric.1 ≤ metric'.1)

/-- `latest_per_node`. -/
def latestPerNode (table : FactTable V) : List (NodeId × String × List (String × V)) :=
  let nodes := (table.fact.keys.map Prod.fst).dedup.mergeSort fun n n' => decide (n ≤ n')
  nodes.filterMap fun nodeId =>
    (table.latest nodeId).map fun timestamp =>
      (nodeId, timestamp, table.metricsAt nodeId timestamp)

/-- The same rows. -/
def Same (table table' : FactTable V) : Prop := ∀ key, table.fact.get? key = table'.fact.get? key

end FactTable

open FactTable

/-- Reports of well-formed timestamps, ingested at times that do not go backwards, with cutoffs of
four-digit years. -/
structure Stamped (retentionS : Rat) (reports : List (Report V)) : Prop where
  stamped : ∀ report ∈ reports, ∀ p ∈ report.points, ∃ t : Time, p.timestamp = t.stamp
  ordered : (reports.map Report.now).Pairwise (· ≤ ·)
  cutoffs : ∀ report ∈ reports, ∃ c : Time, ⌊report.now - retentionS⌋ = c.seconds

/-- The last value that reports have for a key. -/
def lastIngested (reports : List (Report V)) (key : NodeId × String × String) : Option V :=
  Dict.lastOf key (reports.flatMap Report.rows)

/-- The cutoff of the last report. -/
def lastCutoff (retentionS : Rat) (reports : List (Report V)) : Option Time :=
  reports.getLast?.bind fun report => Time.ofSeconds ⌊report.now - retentionS⌋.toNat

/-- Whether a timestamp sorts before a cutoff. -/
def sortsBefore (low : Option Time) (timestamp : String) : Bool :=
  low.any fun c => timestamp < c.stamp

variable {table table' : FactTable V} {report : Report V} {reports : List (Report V)}
  {key : NodeId × String × String} {retentionS : Rat}

/-! ## One report -/

theorem cutoff_eq {c : Time} {now : Rat} (named : ⌊now - table.retentionS⌋ = c.seconds) :
    table.cutoff now = some c.stamp := by
  unfold cutoff
  rw [named, Int.toNat_natCast, Time.ofSeconds_seconds]
  rfl

theorem get?_prune_table (cutoff : String) : (table.prune cutoff).fact.get? key =
    if key.2.2 < cutoff then none else table.fact.get? key := by
  unfold FactTable.prune
  rw [Dict.get?_filterMap]
  cases table.fact.get? key with
  | none => split <;> rfl
  | some value => rfl

/-- **A report**: what is not older than its cutoff has its last value in the report, or else the
value it had. -/
theorem ingest_spec {c : Time} (named : ⌊report.now - table.retentionS⌋ = c.seconds) :
    ∃ table', table.ingest report = some table' ∧ table'.retentionS = table.retentionS ∧
      ∀ key, table'.fact.get? key = if key.2.2 < c.stamp then none
        else (Dict.lastOf key report.rows).or (table.fact.get? key) := by
  have pruned : table.ingest report =
      some (prune { table with fact := table.fact.update report.rows } c.stamp) := by
    unfold ingest
    rw [cutoff_eq named]
    rfl
  refine ⟨_, pruned, rfl, ?_⟩
  intro key
  rw [get?_prune_table, Dict.get?_update]

/-! ## Slots for timestamps -/

/-- A table, and the store that counts its timestamps in seconds. -/
structure Spells (table : FactTable V) (store : MetricStore V) : Prop where
  retention : table.retentionS = store.retentionS
  facts : ∀ nodeId metric (t : Time), table.fact.get? (nodeId, metric, t.stamp) =
    store.fact.get? (nodeId, metric, t.seconds)

theorem lastOf_spelled (nodeId nodeId' : NodeId) (metric : String) (t : Time)
    (points : List (Time × String × V)) :
    Dict.lastOf (nodeId, metric, t.stamp)
        (points.map fun p => ((nodeId', p.2.1, p.1.stamp), p.2.2)) =
      Dict.lastOf (nodeId, metric, (t.seconds : Int))
        (points.map fun p => ((nodeId', p.2.1, (p.1.seconds : Int)), p.2.2)) := by
  have same (p : Time × String × V) : (nodeId', p.2.1, p.1.stamp) = (nodeId, metric, t.stamp) ↔
      (nodeId', p.2.1, (p.1.seconds : Int)) = (nodeId, metric, (t.seconds : Int)) := by
    simp only [Prod.mk.injEq, Time.stamp_inj, Int.natCast_inj]
  unfold Dict.lastOf
  rw [← List.map_reverse, ← List.map_reverse, List.find?_map, List.find?_map, Option.map_map,
    Option.map_map]
  have agree : ((fun pair : MetricFact V => decide (pair.1 = (nodeId, metric, t.stamp))) ∘
      fun p : Time × String × V => ((nodeId', p.2.1, p.1.stamp), p.2.2)) =
      (fun pair : (NodeId × String × Int) × V =>
        decide (pair.1 = (nodeId, metric, (t.seconds : Int)))) ∘
      fun p : Time × String × V => ((nodeId', p.2.1, (p.1.seconds : Int)), p.2.2) := by
    funext p
    exact decide_eq_decide.mpr (same p)
  rw [agree]
  rfl

/-- A report keeps the table and the store together. -/
theorem Spells.ingest {store : MetricStore V} (spells : Spells table store) (nodeId : NodeId)
    (points : List (Time × String × V)) {now : Rat} {c : Time}
    (named : ⌊now - store.retentionS⌋ = c.seconds) :
    ∃ table', table.ingest ⟨nodeId, points.map fun p => ⟨p.1.stamp, p.2.1, p.2.2⟩, now⟩ =
        some table' ∧
      Spells table' (store.ingest nodeId
        (points.map fun p => ⟨p.1.seconds, p.2.1, p.2.2⟩) now) := by
  have floor : ⌊Report.now ⟨nodeId, points.map fun p => ⟨p.1.stamp, p.2.1, p.2.2⟩, now⟩ -
      table.retentionS⌋ = c.seconds := by
    rw [spells.retention]
    exact named
  obtain ⟨table', ran, kept, facts⟩ := ingest_spec floor
  refine ⟨table', ran, kept.trans spells.retention, fun node metric t => ?_⟩
  have cutoff : store.cutoff now = c.seconds := named
  have rows : Report.rows ⟨nodeId, points.map fun p => ⟨p.1.stamp, p.2.1, p.2.2⟩, now⟩ =
      points.map fun p => ((nodeId, p.2.1, p.1.stamp), p.2.2) := List.map_map
  have upserted : (MetricStore.upsert nodeId store.fact
      (points.map fun p => ⟨p.1.seconds, p.2.1, p.2.2⟩)) =
        store.fact.update (points.map fun p => ((nodeId, p.2.1, (p.1.seconds : Int)), p.2.2)) := by
    unfold MetricStore.upsert Dict.update
    rw [List.foldl_map, List.foldl_map]
  rw [facts, rows, lastOf_spelled, spells.facts, MetricStore.get?_ingest, cutoff, upserted,
    Dict.get?_update]
  by_cases old : t.seconds < c.seconds
  · rw [if_pos (Time.stamp_lt_iff.mpr old), if_pos (Int.ofNat_lt.mpr old)]
  · rw [if_neg (Time.stamp_lt_iff.not.mpr old), if_neg (Int.ofNat_lt.not.mpr old)]

/-! ## Any reports -/

theorem Stamped.earlier (stamped : Stamped retentionS (reports ++ [report])) :
    Stamped retentionS reports := by
  obtain ⟨points, ordered, cutoffs⟩ := stamped
  rw [List.map_append] at ordered
  exact ⟨fun r member => points r (List.mem_append_left _ member),
    (List.pairwise_append.mp ordered).1, fun r member => cutoffs r (List.mem_append_left _ member)⟩

/-- The last report is not before an earlier one. -/
theorem Stamped.le_last (stamped : Stamped retentionS (reports ++ [report])) {other : Report V}
    (member : other ∈ reports) : other.now ≤ report.now := by
  have ordered := stamped.ordered
  rw [List.map_append] at ordered
  exact (List.pairwise_append.mp ordered).2.2 _ (List.mem_map_of_mem member) _ (by simp)

/-- One more report, not before the last. -/
theorem Stamped.snoc (stamped : Stamped retentionS reports)
    (points : ∀ p ∈ report.points, ∃ t : Time, p.timestamp = t.stamp)
    (later : ∀ last ∈ reports.getLast?, last.now ≤ report.now) {c : Time}
    (named : ⌊report.now - retentionS⌋ = c.seconds) :
    Stamped retentionS (reports ++ [report]) := by
  refine ⟨?_, ?_, ?_⟩
  · intro other member
    rcases List.mem_append.mp member with old | new
    · exact stamped.stamped other old
    · rw [List.mem_singleton.mp new]
      exact points
  · rw [List.map_append]
    apply List.pairwise_append.mpr ⟨stamped.ordered, List.pairwise_singleton _ _, ?_⟩
    intro now member now' new
    obtain ⟨other, inside, rfl⟩ := List.mem_map.mp member
    obtain rfl : now' = report.now := by simpa using new
    rcases List.eq_nil_or_concat reports with none | ⟨before, last, split⟩
    · rw [none] at inside
      cases inside
    · rw [List.concat_eq_append] at split
      subst split
      apply le_trans _ (later last (by simp))
      rcases List.mem_append.mp inside with old | new
      · exact stamped.le_last old
      · rw [List.mem_singleton.mp new]
  · intro other member
    rcases List.mem_append.mp member with old | new
    · exact stamped.cutoffs other old
    · rw [List.mem_singleton.mp new]
      exact ⟨c, named⟩

theorem lastIngested_append : lastIngested (reports ++ [report]) key =
    (Dict.lastOf key report.rows).or (lastIngested reports key) := by
  unfold lastIngested
  rw [List.flatMap_append, Dict.lastOf_append, List.flatMap_singleton]

/-- A key that was ingested has a well-formed timestamp. -/
theorem Stamped.lastIngested (stamped : Stamped retentionS reports) {value : V}
    (found : lastIngested reports key = some value) : ∃ t : Time, key.2.2 = t.stamp := by
  obtain ⟨report, member, row⟩ := List.mem_flatMap.mp (Dict.mem_of_lastOf found)
  obtain ⟨p, inside, same⟩ := List.mem_map.mp row
  obtain ⟨t, text⟩ := stamped.stamped report member p inside
  cases same
  exact ⟨t, text⟩

theorem lastCutoff_append {c : Time} (named : ⌊report.now - retentionS⌋ = c.seconds) :
    lastCutoff retentionS (reports ++ [report]) = some c := by
  unfold lastCutoff
  rw [List.getLast?_append, List.getLast?_singleton, Option.some_or, Option.bind_some, named,
    Int.toNat_natCast, Time.ofSeconds_seconds]

/-- The cutoff does not go backwards either. -/
theorem Stamped.lastCutoff_le (stamped : Stamped retentionS (reports ++ [report])) {c c' : Time}
    (named : ⌊report.now - retentionS⌋ = c.seconds) (low : lastCutoff retentionS reports = some c') :
    c'.seconds ≤ c.seconds := by
  obtain ⟨last, final, name⟩ := Option.bind_eq_some_iff.mp low
  have member := List.mem_of_getLast? final
  obtain ⟨c'', floor⟩ := stamped.cutoffs last (List.mem_append_left _ member)
  rw [floor, Int.toNat_natCast, Time.ofSeconds_seconds] at name
  cases name
  have order : ⌊last.now - retentionS⌋ ≤ ⌊report.now - retentionS⌋ :=
    Int.floor_le_floor (sub_le_sub_right (stamped.le_last member) _)
  rw [floor, named] at order
  exact Int.ofNat_le.mp order

/-- What is not older than a cutoff is not older than one before it. -/
theorem not_sortsBefore {low : Option Time} {c : Time} {timestamp : String}
    (order : ∀ c', low = some c' → c'.seconds ≤ c.seconds) (fresh : ¬ timestamp < c.stamp) :
    ¬ sortsBefore low timestamp = true := by
  intro gone
  obtain ⟨c', found, older⟩ := (Option.any_eq_true _ _).mp gone
  have later : ¬ c.stamp < c'.stamp := by
    rw [Time.stamp_lt_iff, not_lt]
    exact order c' found
  exact fresh ((of_decide_eq_true older).trans_le (not_lt.mp later))

/-- **What the table holds** after any reports: for each key that is not older than the last
cutoff the last value ingested, and nothing else. -/
theorem fact_ingestAll (stamped : Stamped retentionS reports) :
    ∃ table, ingestAll ⟨retentionS, Dict.empty⟩ reports = some table ∧
      table.retentionS = retentionS ∧ ∀ key, table.fact.get? key =
        if sortsBefore (lastCutoff retentionS reports) key.2.2 then none else lastIngested reports key := by
  induction reports using List.reverseRecOn with
  | nil => exact ⟨_, rfl, rfl, fun key => rfl⟩
  | append_singleton reports report ih =>
    obtain ⟨before, ran, kept, facts⟩ := ih stamped.earlier
    obtain ⟨c, named⟩ := stamped.cutoffs report (by simp)
    obtain ⟨after, ingested, kept', facts'⟩ := ingest_spec (kept ▸ named)
    have all : ingestAll ⟨retentionS, Dict.empty⟩ (reports ++ [report]) = some after := by
      unfold ingestAll at ran ⊢
      rw [List.foldlM_append, ran]
      simpa using ingested
    refine ⟨after, all, kept'.trans kept, ?_⟩
    intro key
    rw [facts', facts, lastCutoff_append named, lastIngested_append]
    by_cases old : key.2.2 < c.stamp
    · have gone : sortsBefore (some c) key.2.2 = true := decide_eq_true old
      rw [if_pos old, if_pos gone]
    · have stays : ¬ sortsBefore (some c) key.2.2 = true := by
        intro gone
        exact old (of_decide_eq_true gone)
      have fresh := not_sortsBefore (fun _ low => stamped.lastCutoff_le named low) old
      rw [if_neg old, if_neg stays, if_neg fresh]

/-! ## The newest slot of each node -/

/-- The newest time that a node has a fact at. -/
structure Newest (table : FactTable V) (nodeId : NodeId) (newest : Time) : Prop where
  present : ∃ metric value, table.fact.get? (nodeId, metric, newest.stamp) = some value
  last : ∀ metric (t : Time) value, table.fact.get? (nodeId, metric, t.stamp) = some value →
    t.seconds ≤ newest.seconds

theorem latest_iff {nodeId : NodeId} {timestamp : String} :
    table.latest nodeId = some timestamp ↔
      (∃ metric value, table.fact.get? (nodeId, metric, timestamp) = some value) ∧
      ∀ metric timestamp' value, table.fact.get? (nodeId, metric, timestamp') = some value →
        timestamp' ≤ timestamp := by
  have listed : ∀ timestamp, timestamp ∈ (table.fact.keys.filter fun key => key.1 = nodeId).map
      (fun key => key.2.2) ↔
        ∃ metric value, table.fact.get? (nodeId, metric, timestamp) = some value := by
    intro timestamp
    simp only [List.mem_map, List.mem_filter, Dict.mem_keys, decide_eq_true_eq,
      Option.isSome_iff_exists]
    constructor
    · rintro ⟨key, ⟨⟨value, found⟩, rfl⟩, rfl⟩
      exact ⟨key.2.1, value, found⟩
    · rintro ⟨metric, value, found⟩
      exact ⟨(nodeId, metric, timestamp), ⟨⟨value, found⟩, rfl⟩, rfl⟩
  unfold FactTable.latest
  rw [List.max?_eq_some_iff, listed]
  simp only [listed]
  constructor
  · rintro ⟨present, last⟩
    exact ⟨present, fun metric timestamp' value found => last timestamp' ⟨metric, value, found⟩⟩
  · rintro ⟨present, last⟩
    refine ⟨present, ?_⟩
    rintro timestamp' ⟨metric, value, found⟩
    exact last metric timestamp' value found

theorem mem_metricsAt {nodeId : NodeId} {timestamp metric : String} {value : V} :
    (metric, value) ∈ table.metricsAt nodeId timestamp ↔
      table.fact.get? (nodeId, metric, timestamp) = some value := by
  unfold FactTable.metricsAt
  rw [List.mem_mergeSort, List.mem_filterMap, ← Dict.mem_entries]
  constructor
  · rintro ⟨⟨⟨n, m, ts⟩, v⟩, member, picked⟩
    simp only [Option.ite_none_right_eq_some, Option.some.injEq, Prod.mk.injEq] at picked
    obtain ⟨⟨rfl, rfl⟩, rfl, rfl⟩ := picked
    exact member
  · intro member
    exact ⟨_, member, by simp⟩

/-- The metrics of a slot have different names. -/
theorem nodup_metricsAt {nodeId : NodeId} {timestamp : String} :
    ((table.metricsAt nodeId timestamp).map Prod.fst).Nodup := by
  unfold FactTable.metricsAt
  apply ((List.mergeSort_perm _ _).map _).nodup_iff.mpr
  apply List.pairwise_map.mpr
  apply List.pairwise_filterMap.mpr
  apply (List.pairwise_map.mp table.fact.nodup).imp
  rintro ⟨⟨n, m, ts⟩, v⟩ ⟨⟨n', m', ts'⟩, v'⟩ differ metric picked metric' picked' same
  simp only [Option.ite_none_right_eq_some, Option.some.injEq] at picked picked'
  obtain ⟨⟨rfl, rfl⟩, rfl⟩ := picked
  obtain ⟨⟨rfl, rfl⟩, rfl⟩ := picked'
  exact differ (by rw [show m = m' from same])

theorem mem_latestPerNode {nodeId : NodeId} {timestamp : String} {metrics : List (String × V)} :
    (nodeId, timestamp, metrics) ∈ table.latestPerNode ↔
      table.latest nodeId = some timestamp ∧ metrics = table.metricsAt nodeId timestamp := by
  unfold FactTable.latestPerNode
  simp only [List.mem_filterMap, List.mem_mergeSort, List.mem_dedup, Option.map_eq_some_iff,
    Prod.mk.injEq]
  constructor
  · rintro ⟨n, -, ts, last, rfl, rfl, rfl⟩
    exact ⟨last, rfl⟩
  · rintro ⟨last, rfl⟩
    obtain ⟨⟨metric, value, found⟩, -⟩ := latest_iff.mp last
    refine ⟨nodeId, ?_, timestamp, last, rfl, rfl, rfl⟩
    apply List.mem_map.mpr ⟨(nodeId, metric, timestamp), ?_, rfl⟩
    rw [Dict.mem_keys, found]
    rfl

/-- The nodes are listed once, by name. -/
theorem ordered_latestPerNode : (table.latestPerNode.map Prod.fst).Pairwise (· < ·) := by
  have nodes : ((table.fact.keys.map Prod.fst).dedup.mergeSort
      fun n n' => decide (n ≤ n')).Pairwise (· < ·) := by
    have distinct : ((table.fact.keys.map Prod.fst).dedup.mergeSort
        fun n n' => decide (n ≤ n')).Nodup :=
      (List.mergeSort_perm _ _).nodup_iff.mpr (List.nodup_dedup _)
    have sorted : ((table.fact.keys.map Prod.fst).dedup.mergeSort
        fun n n' => decide (n ≤ n')).Pairwise (fun n n' => decide (n ≤ n') = true) := by
      apply List.pairwise_mergeSort
      · intro n n' n'' first second
        exact decide_eq_true (String.le_trans (of_decide_eq_true first) (of_decide_eq_true second))
      · intro n n'
        rw [Bool.or_eq_true, decide_eq_true_eq, decide_eq_true_eq]
        exact String.le_total _ _
    apply (sorted.and distinct).imp
    intro n n' order
    exact lt_of_le_of_ne (of_decide_eq_true order.1) order.2
  unfold FactTable.latestPerNode
  apply List.pairwise_map.mpr
  apply List.pairwise_filterMap.mpr
  apply nodes.imp
  intro n n' less entry named entry' named'
  obtain ⟨ts, -, rfl⟩ := Option.map_eq_some_iff.mp named
  obtain ⟨ts', -, rfl⟩ := Option.map_eq_some_iff.mp named'
  exact less

/-! ## The window -/

/-- What a store is after reports: a window of the last values. -/
structure LastWriterWins (retentionS : Rat) (reports : List (Report V)) (table : FactTable V) :
    Prop where
  /-- a key that is not older than the last cutoff has the last value ingested for it -/
  kept : ∀ nodeId metric (t : Time),
    (∀ c, lastCutoff retentionS reports = some c → c.seconds ≤ t.seconds) →
    table.fact.get? (nodeId, metric, t.stamp) = lastIngested reports (nodeId, metric, t.stamp)
  /-- and there is nothing else -/
  only : ∀ key value, table.fact.get? key = some value → ∃ t : Time, key.2.2 = t.stamp ∧
    ∀ c, lastCutoff retentionS reports = some c → c.seconds ≤ t.seconds
  /-- an earlier report whose keys were not rewritten changes nothing but what expires by then -/
  again : ∀ before report after now (c : Time), reports = before ++ report :: after →
    (∀ other ∈ after, ∀ row ∈ report.rows, row.1 ∉ other.rows.map Prod.fst) →
    (∀ last ∈ reports.getLast?, last.now ≤ now) → ⌊now - retentionS⌋ = c.seconds →
    ∃ table', table.ingest { report with now := now } = some table' ∧
      Same table' (table.prune c.stamp) ∧
      ((∃ last ∈ reports.getLast?, last.now = now) → Same table' table)
  /-- reports with different keys, ingested at the same time, commute -/
  commute : ∀ (report report' : Report V) (c : Time), report.now = report'.now →
    ⌊report.now - retentionS⌋ = c.seconds →
    (∀ row ∈ report.rows, row.1 ∉ report'.rows.map Prod.fst) →
    ∃ table₁ table₂, (table.ingest report).bind (ingest · report') = some table₁ ∧
      (table.ingest report').bind (ingest · report) = some table₂ ∧ Same table₁ table₂
  /-- each node that is there is listed once, with its newest slot and the metrics of that slot -/
  latest : ∀ nodeId timestamp metrics, (nodeId, timestamp, metrics) ∈ table.latestPerNode →
    (∃ newest : Time, timestamp = newest.stamp ∧ Newest table nodeId newest) ∧
    (metrics.map Prod.fst).Nodup ∧ ∀ metric value, (metric, value) ∈ metrics ↔
      table.fact.get? (nodeId, metric, timestamp) = some value
  listed : ∀ key value, table.fact.get? key = some value →
    ∃ timestamp metrics, (key.1, timestamp, metrics) ∈ table.latestPerNode
  ordered : (table.latestPerNode.map Prod.fst).Pairwise (· < ·)

/-- A report with keys of its own, on top of another. -/
theorem ingest_ingest {c : Time} {report' : Report V} (same : report.now = report'.now)
    (named : ⌊report.now - table.retentionS⌋ = c.seconds) :
    ∃ table', (table.ingest report).bind (ingest · report') = some table' ∧
      ∀ key, table'.fact.get? key = if key.2.2 < c.stamp then none
        else (Dict.lastOf key report'.rows).or
          ((Dict.lastOf key report.rows).or (table.fact.get? key)) := by
  obtain ⟨first, ran, kept, facts⟩ := ingest_spec named
  have named' : ⌊report'.now - first.retentionS⌋ = c.seconds := by
    rw [kept, ← same, named]
  obtain ⟨second, ran', -, facts'⟩ := ingest_spec named'
  refine ⟨second, by rw [ran, Option.bind_some, ran'], fun key => ?_⟩
  rw [facts', facts]
  by_cases old : key.2.2 < c.stamp
  · rw [if_pos old, if_pos old]
  · rw [if_neg old, if_neg old, if_neg old]

theorem commute_of_disjoint {c : Time} {report' : Report V} (same : report.now = report'.now)
    (named : ⌊report.now - table.retentionS⌋ = c.seconds)
    (apart : ∀ row ∈ report.rows, row.1 ∉ report'.rows.map Prod.fst) :
    ∃ table₁ table₂, (table.ingest report).bind (ingest · report') = some table₁ ∧
      (table.ingest report').bind (ingest · report) = some table₂ ∧ Same table₁ table₂ := by
  obtain ⟨table₁, ran, facts⟩ := ingest_ingest same named
  obtain ⟨table₂, ran', facts'⟩ := ingest_ingest same.symm (same ▸ named)
  refine ⟨table₁, table₂, ran, ran', fun key => ?_⟩
  rw [facts, facts']
  -- only one of the two has the key
  by_cases inside : key ∈ report.rows.map Prod.fst
  · obtain ⟨row, member, rfl⟩ := List.mem_map.mp inside
    rw [Dict.lastOf_of_not_mem (apart row member), Option.none_or, Option.none_or]
  · rw [Dict.lastOf_of_not_mem inside, Option.none_or, Option.none_or]

/-- A report that was not rewritten has the last values of its keys. -/
theorem lastIngested_of_not_rewritten {before after : List (Report V)}
    (last : ∀ other ∈ after, ∀ row ∈ report.rows, row.1 ∉ other.rows.map Prod.fst) {value : V}
    (found : Dict.lastOf key report.rows = some value) :
    lastIngested (before ++ report :: after) key = some value := by
  have silent : key ∉ (after.flatMap Report.rows).map Prod.fst := by
    intro member
    obtain ⟨row, inside, same⟩ := List.mem_map.mp member
    obtain ⟨other, later, rewritten⟩ := List.mem_flatMap.mp inside
    apply last other later (key, value) (Dict.mem_of_lastOf found)
    exact List.mem_map.mpr ⟨row, rewritten, same⟩
  unfold lastIngested
  rw [List.flatMap_append, List.flatMap_cons, Dict.lastOf_append, Dict.lastOf_append,
    Dict.lastOf_of_not_mem silent, found]
  rfl

/-- **A window of the last values**: what the store is after any reports. -/
theorem metric_store_window {retentionS : Rat} {reports : List (Report V)}
    (stamped : Stamped retentionS reports) :
    ∃ table, ingestAll ⟨retentionS, Dict.empty⟩ reports = some table ∧
      LastWriterWins retentionS reports table := by
  obtain ⟨table, ran, retention, facts⟩ := fact_ingestAll stamped
  have live : ∀ (t : Time), sortsBefore (lastCutoff retentionS reports) t.stamp = true ↔
      ∃ c, lastCutoff retentionS reports = some c ∧ t.seconds < c.seconds := by
    intro t
    unfold sortsBefore
    simp only [Option.any_eq_true, decide_eq_true_eq, Time.stamp_lt_iff]
  have stampOf : ∀ key value, table.fact.get? key = some value → ∃ t : Time, key.2.2 = t.stamp := by
    intro key value found
    rw [facts, Option.ite_none_left_eq_some] at found
    exact stamped.lastIngested found.2
  refine ⟨table, ran, ?_, ?_, ?_, ?_, ?_, ?_, ordered_latestPerNode⟩
  · intro nodeId metric t fresh
    rw [facts, if_neg]
    rw [live]
    rintro ⟨c, low, older⟩
    exact absurd (fresh c low) (not_le.mpr older)
  · intro key value found
    obtain ⟨t, text⟩ := stampOf key value found
    refine ⟨t, text, fun c low => ?_⟩
    rw [facts, Option.ite_none_left_eq_some, text, live] at found
    exact not_lt.mp fun older => found.1 ⟨c, low, older⟩
  · intro before report after now c split last later named
    have named' : ⌊({ report with now := now } : Report V).now - table.retentionS⌋ = c.seconds := by
      rw [retention]
      exact named
    obtain ⟨table', ingested, -, facts'⟩ := ingest_spec named'
    have member : report ∈ reports := split ▸ List.mem_append_right _ List.mem_cons_self
    have repeated : Stamped retentionS (reports ++ [{ report with now := now }]) :=
      stamped.snoc (stamped.stamped report member) later named
    have low : ∀ c', lastCutoff retentionS reports = some c' → c'.seconds ≤ c.seconds :=
      fun _ low => repeated.lastCutoff_le named low
    have same : Same table' (table.prune c.stamp) := by
      intro key
      rw [facts', get?_prune_table]
      by_cases old : key.2.2 < c.stamp
      · rw [if_pos old, if_pos old]
      · rw [if_neg old, if_neg old]
        have rows : Dict.lastOf key ({ report with now := now } : Report V).rows =
            Dict.lastOf key report.rows := rfl
        rw [rows]
        cases value : Dict.lastOf key report.rows with
        | none => rw [Option.none_or]
        | some v =>
          rw [facts, if_neg (not_sortsBefore low old), split, lastIngested_of_not_rewritten last value]
          rfl
    refine ⟨table', ingested, same, ?_⟩
    rintro ⟨final, ends, rfl⟩ key
    have bound : lastCutoff retentionS reports = some c := by
      unfold lastCutoff
      rw [ends, Option.bind_some, named, Int.toNat_natCast, Time.ofSeconds_seconds]
    rw [same key, get?_prune_table]
    split_ifs with old
    · rw [facts, bound, if_pos (show sortsBefore (some c) key.2.2 = true from decide_eq_true old)]
    · rfl
  · intro report report' c same named apart
    exact commute_of_disjoint same (retention ▸ named) apart
  · intro nodeId timestamp metrics member
    obtain ⟨last, rfl⟩ := mem_latestPerNode.mp member
    obtain ⟨⟨metric, value, found⟩, newest⟩ := latest_iff.mp last
    obtain ⟨t, text⟩ := stampOf _ _ found
    dsimp only at text
    subst text
    refine ⟨⟨t, rfl, ⟨metric, value, found⟩, ?_⟩, nodup_metricsAt, fun _ _ => mem_metricsAt⟩
    intro metric t' value found
    have order := newest metric _ value found
    rw [← not_lt, Time.stamp_lt_iff, not_lt] at order
    exact order
  · intro key value found
    obtain ⟨timestamp, last⟩ : ∃ timestamp, table.latest key.1 = some timestamp := by
      apply Option.isSome_iff_exists.mp
      apply List.isSome_max?_iff.mpr
      intro none
      have member : key ∈ table.fact.keys.filter fun key' => key'.1 = key.1 := by
        rw [List.mem_filter, Dict.mem_keys, found]
        simp
      rw [List.map_eq_nil_iff.mp none] at member
      cases member
    exact ⟨timestamp, _, mem_latestPerNode.mpr ⟨last, rfl⟩⟩

/-- A day before the reports of `corrected`. -/
def dayBefore : Time := ⟨2026, 7, 18, 12, 0, 0, by decide⟩

/-- A report of a value at noon, and one that corrects it and comes too late for another. -/
def corrected : List (Report Rat) :=
  [⟨"node-1", [⟨"2026-07-19 11:59:00", "worker:cpu_util_pct", 10⟩], 63920145600⟩,
    ⟨"node-1", [⟨"2026-07-19 11:59:00", "worker:cpu_util_pct", 42⟩,
      ⟨"2026-07-18 11:59:59", "worker:cpu_util_pct", 7⟩], 63920145600⟩]

theorem stamped_corrected : Stamped 86400 corrected := by
  refine ⟨?_, by decide +kernel, ?_⟩
  · have recent : "2026-07-19 11:59:00" =
        Time.stamp ⟨2026, 7, 19, 11, 59, 0, by decide⟩ := by decide +kernel
    have late : "2026-07-18 11:59:59" =
        Time.stamp ⟨2026, 7, 18, 11, 59, 59, by decide⟩ := by decide +kernel
    simp only [corrected, List.forall_mem_cons, List.not_mem_nil, false_imp_iff, implies_true,
      and_true]
    exact ⟨⟨_, recent⟩, ⟨_, recent⟩, ⟨_, late⟩⟩
  · have noon : ⌊(63920145600 : Rat) - 86400⌋ = dayBefore.seconds := by decide +kernel
    simp only [corrected, List.forall_mem_cons, List.not_mem_nil, false_imp_iff, implies_true,
      and_true]
    exact ⟨⟨_, noon⟩, ⟨_, noon⟩⟩

theorem metric_store_window_corrected : ∃ table,
    ingestAll ⟨86400, Dict.empty⟩ corrected = some table ∧
      LastWriterWins 86400 corrected table :=
  metric_store_window stamped_corrected

end Oumigo
