import Oumigo.Protocol
import Mathlib.Algebra.Order.Ring.Rat
import Mathlib.Data.List.Basic

/-!
# The worker's buffer of metric rows

`MetricsBuffer` of `service/worker/metrics.py`.  Every operation holds the buffer's
lock for its whole body, so each is one function of the state.  A timestamp is the
grid slot it spells: fixed-width UTC strings compare as the seconds they name.

`evict` also returns the passes of its loop, each with what it dropped and what it
kept, for statements about evicted rows; the code only logs them.
-/

namespace Oumigo

/-- `MetricRow`; its value is a number, or a float that need not be one. -/
structure MetricRow (V : Type := Rat) where
  nodeId : NodeId
  gridEpoch : Int
  metric : String
  value : V
  deriving DecidableEq, Repr

variable {V : Type}

/-- What identifies a row: node, metric and slot. -/
def MetricRow.key (row : MetricRow V) : NodeId × String × Int :=
  (row.nodeId, row.metric, row.gridEpoch)

/-- `MetricsBuffer`. -/
structure MetricsBuffer (V : Type := Rat) where
  capacityS : Rat
  evictChunkS : Rat
  rows : List (MetricRow V)
  deriving Repr

/-- One pass of the eviction loop. -/
structure Eviction (V : Type := Rat) where
  dropped : List (MetricRow V)
  kept : List (MetricRow V)
  deriving Repr

namespace MetricsBuffer

section

variable (capacityS evictChunkS : Rat)

/-- The body of the loop of `_evict_locked`; `none` when the loop ends. -/
def evictPass (rows : List (MetricRow V)) : Option (Eviction V) :=
  match rows.head?, rows.getLast? with
  | some oldest, some newest =>
      if capacityS ≤ (newest.gridEpoch - oldest.gridEpoch : Int) then
        let old (row : MetricRow V) : Bool := (row.gridEpoch : Rat) < oldest.gridEpoch + evictChunkS
        if rows.takeWhile old = [] then none
        else some ⟨rows.takeWhile old, rows.dropWhile old⟩
      else none
  | _, _ => none

/-- The loop of `_evict_locked`.  A pass drops a row at least, so the number of rows
bounds the number of passes. -/
def evictLoop : Nat → List (MetricRow V) → List (Eviction V) × List (MetricRow V)
  | 0, rows => ([], rows)
  | passes + 1, rows =>
      match evictPass capacityS evictChunkS rows with
      | none => ([], rows)
      | some pass =>
          let (rest, kept) := evictLoop passes pass.kept
          (pass :: rest, kept)

end

/-- `_evict_locked`. -/
def evict (b : MetricsBuffer V) : List (Eviction V) × MetricsBuffer V :=
  let (passes, kept) := evictLoop b.capacityS b.evictChunkS b.rows.length b.rows
  (passes, { b with rows := kept })

/-- `append`. -/
def append (b : MetricsBuffer V) (rows : List (MetricRow V)) :
    List (Eviction V) × MetricsBuffer V :=
  evict { b with rows := b.rows ++ rows }

/-- `restore`. -/
def restore (b : MetricsBuffer V) (rows : List (MetricRow V)) :
    List (Eviction V) × MetricsBuffer V :=
  evict { b with rows := rows ++ b.rows }

/-- `drain`: the rows taken, and the buffer afterwards. -/
def drain (b : MetricsBuffer V) : List (MetricRow V) × MetricsBuffer V :=
  (b.rows, { b with rows := [] })

/-! ## What an eviction may do -/

/-- The newest slot of a list of rows is `capacity` or more after the oldest. -/
def Full (capacity : Rat) (rows : List (MetricRow V)) : Prop :=
  ∃ oldest newest, rows.head? = some oldest ∧ rows.getLast? = some newest ∧
    capacity ≤ (newest.gridEpoch - oldest.gridEpoch : Int)

/-- A pass on a full buffer that drops its oldest rows. -/
structure Oldest (capacity : Rat) (pass : Eviction V) : Prop where
  full : Full capacity (pass.dropped ++ pass.kept)
  oldest : ∀ old ∈ pass.dropped, ∀ row ∈ pass.kept, old.gridEpoch ≤ row.gridEpoch

variable {b : MetricsBuffer V} {capacity chunk : Rat} {rows : List (MetricRow V)}
  {pass : Eviction V}

theorem evictPass_rows (ran : evictPass capacity chunk rows = some pass) :
    rows = pass.dropped ++ pass.kept ∧ pass.dropped ≠ [] ∧ Full capacity rows := by
  unfold evictPass at ran
  split at ran
  · next oldest newest head last =>
    split at ran
    · next full =>
      dsimp only at ran
      split at ran
      · cases ran
      · next some =>
        cases ran
        exact ⟨List.takeWhile_append_dropWhile.symm, some, oldest, newest, head, last, full⟩
    · cases ran
  · cases ran

theorem evictPass_oldest (sorted : rows.Pairwise fun r r' => r.gridEpoch ≤ r'.gridEpoch)
    (ran : evictPass capacity chunk rows = some pass) : Oldest capacity pass := by
  obtain ⟨rfl, -, full⟩ := evictPass_rows ran
  have apart := List.pairwise_append.mp sorted
  exact ⟨full, apart.2.2⟩

theorem evictPass_length (ran : evictPass capacity chunk rows = some pass) :
    pass.kept.length < rows.length := by
  obtain ⟨rfl, some, -⟩ := evictPass_rows ran
  have positive := List.length_pos_iff.mpr some
  rw [List.length_append]
  omega

/-- What the loop keeps is the end of the buffer, and what it drops is the rest. -/
theorem evictLoop_split (capacity chunk : Rat) (passes : Nat) (rows : List (MetricRow V)) :
    rows = ((evictLoop capacity chunk passes rows).1.flatMap Eviction.dropped) ++
      (evictLoop capacity chunk passes rows).2 := by
  induction passes generalizing rows with
  | zero => rfl
  | succ passes ih =>
    unfold evictLoop
    cases ran : evictPass capacity chunk rows with
    | none => rfl
    | some pass =>
      obtain ⟨same, -⟩ := evictPass_rows ran
      have rest := ih pass.kept
      dsimp only
      rw [List.flatMap_cons, List.append_assoc, ← rest]
      exact same

theorem evictLoop_oldest (passes : Nat)
    (sorted : rows.Pairwise fun r r' => r.gridEpoch ≤ r'.gridEpoch) :
    ∀ pass ∈ (evictLoop capacity chunk passes rows).1, Oldest capacity pass := by
  induction passes generalizing rows with
  | zero =>
    intro pass member
    cases member
  | succ passes ih =>
    unfold evictLoop
    cases ran : evictPass capacity chunk rows with
    | none =>
      intro pass member
      cases member
    | some first =>
      intro pass member
      have kept : first.kept.Pairwise fun r r' => r.gridEpoch ≤ r'.gridEpoch := by
        obtain ⟨rfl, -⟩ := evictPass_rows ran
        exact (List.pairwise_append.mp sorted).2.1
      rcases List.mem_cons.mp member with rfl | later
      · exact evictPass_oldest sorted ran
      · exact ih kept pass later

/-- The passes counted are enough: the loop ends because its condition fails. -/
theorem evictLoop_ends (enough : rows.length ≤ passes) :
    evictPass capacity chunk (evictLoop capacity chunk passes rows).2 = none := by
  induction passes generalizing rows with
  | zero =>
    have empty : rows = [] := List.length_eq_zero_iff.mp (Nat.le_zero.mp enough)
    subst empty
    rfl
  | succ passes ih =>
    unfold evictLoop
    cases ran : evictPass capacity chunk rows with
    | none => exact ran
    | some pass =>
      have shorter := evictPass_length ran
      exact ih (by omega)

theorem evict_oldest (sorted : b.rows.Pairwise fun r r' => r.gridEpoch ≤ r'.gridEpoch) :
    ∀ pass ∈ b.evict.1, Oldest b.capacityS pass :=
  evictLoop_oldest b.rows.length sorted

/-- Each row is dropped in some pass or kept. -/
theorem mem_evict {row : MetricRow V} (member : row ∈ b.rows) :
    (∃ pass ∈ b.evict.1, row ∈ pass.dropped) ∨ row ∈ b.evict.2.rows := by
  rw [evictLoop_split b.capacityS b.evictChunkS b.rows.length b.rows] at member
  rcases List.mem_append.mp member with dropped | kept
  · exact Or.inl (List.mem_flatMap.mp dropped)
  · exact Or.inr kept

theorem evict_sublist : b.evict.2.rows.Sublist b.rows := by
  have split := evictLoop_split b.capacityS b.evictChunkS b.rows.length b.rows
  have suffix : b.evict.2.rows <:+ b.rows := ⟨_, split.symm⟩
  exact suffix.sublist

/-- A buffer is left below its capacity, unless the chunk to evict is not positive. -/
theorem evict_not_full (positive : 0 < b.evictChunkS) : ¬ Full b.capacityS b.evict.2.rows := by
  rintro ⟨oldest, newest, head, last, full⟩
  have ended : evictPass b.capacityS b.evictChunkS b.evict.2.rows = none :=
    evictLoop_ends (le_refl _)
  unfold evictPass at ended
  rw [head, last] at ended
  dsimp only at ended
  rw [if_pos full] at ended
  cases kept : b.evict.2.rows with
  | nil =>
    rw [kept] at head
    cases head
  | cons first rest =>
    rw [kept] at head ended
    cases head
    have old : decide ((oldest.gridEpoch : Rat) < oldest.gridEpoch + b.evictChunkS) = true :=
      decide_eq_true (lt_add_of_pos_right _ positive)
    rw [List.takeWhile_cons, old] at ended
    cases ended

end MetricsBuffer

end Oumigo
