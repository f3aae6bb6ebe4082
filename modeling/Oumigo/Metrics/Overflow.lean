import Oumigo.Foundation.Transition
import Oumigo.Foundation.Window
import Oumigo.Metrics.Buffer
import Mathlib.Algebra.Order.Ring.Cast
import Mathlib.Data.List.Pairwise
import Mathlib.Data.List.TakeWhile

/-!
# The metrics buffer over its runs

`MetricsBuffer` of `service/worker/metrics.py` between one sampler and one reporter: a slot's
rows are appended, everything is drained for a report, and the batch is restored if the report
fails.  `Inv` is kept by every operation, and `evict_oldest_slots` says what an eviction does to
rows in slot order, whatever the gaps between the slots: the passes of its loop end, and drop
whole slots from the front, never the newest one.
-/

namespace Oumigo

variable {V : Type}

/-- Rows in slot order. -/
def InOrder (rows : List (MetricRow V)) : Prop :=
  rows.Pairwise fun row row' => row.gridEpoch ≤ row'.gridEpoch

/-- The loop of `_evict_locked`, run to its end: the rows it begins with, its passes, and the rows
it leaves. -/
inductive Evicts (capacityS evictChunkS : Rat) :
    List (MetricRow V) → List (Eviction V) → List (MetricRow V) → Prop
  | done {rows : List (MetricRow V)} :
    MetricsBuffer.evictPass capacityS evictChunkS rows = none →
    Evicts capacityS evictChunkS rows [] rows
  | pass {rows kept : List (MetricRow V)} {pass : Eviction V} {passes : List (Eviction V)} :
    MetricsBuffer.evictPass capacityS evictChunkS rows = some pass →
    Evicts capacityS evictChunkS pass.kept passes kept →
    Evicts capacityS evictChunkS rows (pass :: passes) kept

/-- Rows are dropped from the front, a slot as a whole, and the newest slot is kept. -/
structure OldestSlots (held dropped kept : List (MetricRow V)) : Prop where
  front : held = dropped ++ kept
  whole : ∀ old ∈ dropped, ∀ row ∈ kept, old.gridEpoch < row.gridEpoch
  newest : ∀ row ∈ held, (∀ other ∈ held, other.gridEpoch ≤ row.gridEpoch) → row ∈ kept

/-- The buffer, with what its sampler and its reporter know. -/
structure Buffering (V : Type) where
  buffer : MetricsBuffer V
  /-- the batch of a report that has not come back -/
  batch : Option (List (MetricRow V))
  /-- the slot that was appended last -/
  slot : Option Int

/-- An operation on the buffer. -/
inductive BufferCall (V : Type) where
  /-- the rows of a slot -/
  | append (slot : Int) (rows : List (MetricRow V))
  | drain
  /-- the report of the batch succeeds -/
  | reported
  /-- the report of the batch failed -/
  | restore

namespace Buffering

/-- What `_evict_locked` finds in the buffer, for an operation that calls it. -/
def held (s : Buffering V) : BufferCall V → Option (List (MetricRow V))
  | .append _ rows => some (s.buffer.rows ++ rows)
  | .restore => s.batch.map fun batch => batch ++ s.buffer.rows
  | .drain => none
  | .reported => none

/-- One operation: slots come in order, and a reporter has one batch at a time. -/
def step (s : Buffering V) : BufferCall V → Option (Buffering V)
  | .append slot rows =>
      if (∀ row ∈ rows, row.gridEpoch = slot) ∧ (∀ last ∈ s.slot, last ≤ slot) then
        some { s with buffer := (s.buffer.append rows).2, slot := some slot }
      else none
  | .drain =>
      match s.batch with
      | none => some { s with buffer := s.buffer.drain.2, batch := some s.buffer.drain.1 }
      | some _ => none
  | .reported => s.batch.map fun _ => { s with batch := none }
  | .restore => s.batch.map fun batch =>
      { s with buffer := (s.buffer.restore batch).2, batch := none }

end Buffering

/-- Every sequence of operations on a buffer of some capacity, from an empty one. -/
def buffering (V : Type) (capacityS evictChunkS : Rat) :
    Transition.System (Buffering V) (BufferCall V) where
  init s := s = ⟨⟨capacityS, evictChunkS, []⟩, none, none⟩
  step := Buffering.step

/-! ## One eviction -/

/-- Evicting in two goes. -/
theorem OldestSlots.trans {held middle kept dropped dropped' :
    List (MetricRow V)}
    (first : OldestSlots held dropped middle) (later : OldestSlots middle dropped' kept) :
    OldestSlots held (dropped ++ dropped') kept := by
  refine ⟨?_, ?_, ?_⟩
  · rw [List.append_assoc, ← later.front]
    exact first.front
  · intro old gone row stays
    rcases List.mem_append.mp gone with early | late
    · apply first.whole old early row
      rw [later.front]
      exact List.mem_append_right _ stays
    · exact later.whole old late row stays
  · intro row inside top
    apply later.newest row (first.newest row inside top)
    intro other member
    apply top other
    rw [first.front]
    exact List.mem_append_right _ member

namespace MetricsBuffer

variable {b : MetricsBuffer V} {capacity chunk : Rat} {rows kept : List (MetricRow V)}
  {pass : Eviction V} {passes : List (Eviction V)}

theorem evict_limits : b.evict.2.capacityS = b.capacityS ∧ b.evict.2.evictChunkS = b.evictChunkS :=
  ⟨rfl, rfl⟩

/-- The loop ends. -/
theorem evicts_evictLoop {count : Nat} (enough : rows.length ≤ count) :
    Evicts capacity chunk rows (evictLoop capacity chunk count rows).1
      (evictLoop capacity chunk count rows).2 := by
  induction count generalizing rows with
  | zero =>
    obtain rfl : rows = [] := List.length_eq_zero_iff.mp (Nat.le_zero.mp enough)
    exact .done rfl
  | succ count ih =>
    unfold evictLoop
    cases ran : evictPass capacity chunk rows with
    | none => exact .done ran
    | some pass =>
      have shorter := evictPass_length ran
      exact .pass ran (ih (by omega))

/-- What a pass drops lies before its cutoff, and what it keeps does not; the newest row does not
as long as a chunk fits into the capacity. -/
theorem evictPass_cutoff (fits : chunk ≤ capacity) (ordered : InOrder rows)
    (ran : evictPass capacity chunk rows = some pass) :
    ∃ cutoff : Rat, (∀ old ∈ pass.dropped, (old.gridEpoch : Rat) < cutoff) ∧
      (∀ row ∈ pass.kept, cutoff ≤ row.gridEpoch) ∧
      ∃ newest ∈ rows, cutoff ≤ newest.gridEpoch := by
  unfold evictPass at ran
  split at ran
  · next oldest newest head last =>
    split at ran
    · next full =>
      dsimp only at ran
      split at ran
      · cases ran
      · cases ran
        refine ⟨oldest.gridEpoch + chunk, ?_, ?_, newest, List.mem_of_getLast? last, ?_⟩
        · intro old member
          have early := List.mem_takeWhile_imp member
          exact of_decide_eq_true early
        · intro row member
          have sorted : rows.Pairwise fun row row' =>
              (row.gridEpoch : Rat) ≤ row'.gridEpoch := ordered.imp Int.cast_le.mpr
          dsimp only at member
          rw [Window.dropWhile_eq_filter _ sorted] at member
          exact of_decide_eq_true (List.mem_filter.mp member).2
        · rw [Int.cast_sub] at full
          exact (add_le_add_right fits _).trans (le_sub_iff_add_le'.mp full)
    · cases ran
  · cases ran

/-- **One pass** drops the oldest slots as a whole. -/
theorem evictPass_oldestSlots (fits : chunk ≤ capacity) (ordered : InOrder rows)
    (ran : evictPass capacity chunk rows = some pass) :
    OldestSlots rows pass.dropped pass.kept := by
  obtain ⟨cutoff, before, after, newest, member, late⟩ := evictPass_cutoff fits ordered ran
  obtain ⟨split, -, -⟩ := evictPass_rows ran
  refine ⟨split, ?_, ?_⟩
  · intro old gone row stays
    exact Int.cast_lt.mp ((before old gone).trans_le (after row stays))
  · intro row inside top
    rw [split] at inside
    rcases List.mem_append.mp inside with gone | stays
    · have early : (row.gridEpoch : Rat) < newest.gridEpoch := (before row gone).trans_le late
      exact absurd (top newest member) (not_le.mpr (Int.cast_lt.mp early))
    · exact stays

/-- **An eviction**, in any number of passes, drops the oldest slots as a whole. -/
theorem evict_oldest_slots (fits : chunk ≤ capacity) (ordered : InOrder rows)
    (ran : Evicts capacity chunk rows passes kept) :
    OldestSlots rows (passes.flatMap Eviction.dropped) kept := by
  induction ran with
  | done => exact ⟨rfl, by simp, fun _ inside _ => inside⟩
  | pass first _ ih =>
    have here := evictPass_oldestSlots fits ordered first
    have rest : InOrder _ := ordered.sublist (here.front ▸ List.sublist_append_right _ _)
    rw [List.flatMap_cons]
    exact here.trans (ih rest)

/-- Rows in order that are not full are close together. -/
theorem span_of_not_full (ordered : InOrder rows) (room : ¬ Full capacity rows) :
    ∀ row ∈ rows, ∀ row' ∈ rows,
      ((row'.gridEpoch - row.gridEpoch : Int) : Rat) < capacity := by
  intro row member row' member'
  rw [← not_le]
  intro wide
  apply room
  cases rows with
  | nil => cases member
  | cons oldest rest =>
    refine ⟨oldest, (oldest :: rest).getLast (by simp), rfl, List.getLast?_eq_some_getLast _, ?_⟩
    have first : oldest.gridEpoch ≤ row.gridEpoch := by
      rcases List.mem_cons.mp member with rfl | later
      · exact le_refl _
      · exact (List.pairwise_cons.mp ordered).1 row later
    have last : row'.gridEpoch ≤ ((oldest :: rest).getLast (by simp)).gridEpoch :=
      ordered.rel_getLast_of_rel_getLast_getLast member' (le_refl _)
    apply wide.trans
    apply Int.cast_le.mpr
    omega

end MetricsBuffer

/-! ## Every operation -/

namespace Buffering

variable {s s' : Buffering V} {capacity chunk : Rat} {rows : List (MetricRow V)}
  {call : BufferCall V}

/-- The rows of the batch, then those in the buffer. -/
def whole (s : Buffering V) : List (MetricRow V) := s.batch.getD [] ++ s.buffer.rows

/-- The buffer is within its capacity, and holds rows after those of the batch and none after the
last slot. -/
structure Inv (capacityS evictChunkS : Rat) (s : Buffering V) : Prop where
  limits : s.buffer.capacityS = capacityS ∧ s.buffer.evictChunkS = evictChunkS
  ordered : InOrder s.whole
  past : ∀ row ∈ s.whole, ∃ last, s.slot = some last ∧ row.gridEpoch ≤ last
  room : ¬ MetricsBuffer.Full capacityS s.buffer.rows

theorem step_append {slot : Int} (ran : s.step (.append slot rows) = some s') :
    ((∀ row ∈ rows, row.gridEpoch = slot) ∧ (∀ last ∈ s.slot, last ≤ slot)) ∧
      s' = { s with buffer := (s.buffer.append rows).2, slot := some slot } := by
  rw [step, Option.ite_none_right_eq_some] at ran
  exact ⟨ran.1, (Option.some.inj ran.2).symm⟩

theorem step_drain (ran : s.step .drain = some s') :
    s.batch = none ∧
      s' = { s with buffer := s.buffer.drain.2, batch := some s.buffer.drain.1 } := by
  rw [step] at ran
  cases taken : s.batch with
  | none =>
    rw [taken] at ran
    exact ⟨rfl, (Option.some.inj ran).symm⟩
  | some batch =>
    rw [taken] at ran
    cases ran

/-- The rows appended come after all others. -/
theorem Inv.append (inv : Inv capacity chunk s) {slot : Int}
    (same : ∀ row ∈ rows, row.gridEpoch = slot) (later : ∀ last ∈ s.slot, last ≤ slot) :
    InOrder (s.whole ++ rows) ∧ ∀ row ∈ s.whole ++ rows, row.gridEpoch ≤ slot := by
  have before : ∀ row ∈ s.whole, row.gridEpoch ≤ slot := by
    intro row member
    obtain ⟨last, appended, early⟩ := inv.past row member
    exact early.trans (later last appended)
  constructor
  · apply List.pairwise_append.mpr ⟨inv.ordered, ?_, ?_⟩
    · apply List.pairwise_of_forall_mem_list
      intro row member row' member'
      rw [same row member, same row' member']
    · intro row member row' member'
      rw [same row' member']
      exact before row member
  · intro row member
    rcases List.mem_append.mp member with old | new
    · exact before row old
    · exact (same row new).le

/-- What an operation leaves in the buffer, where it evicts. -/
theorem step_held (ran : s.step call = some s') (found : s.held call = some rows) :
    s'.buffer = ({ s.buffer with rows := rows } : MetricsBuffer V).evict.2 := by
  cases call with
  | append slot new =>
    cases found
    obtain ⟨-, rfl⟩ := step_append ran
    rfl
  | restore =>
    obtain ⟨batch, taken, rfl⟩ := Option.map_eq_some_iff.mp found
    obtain ⟨batch', taken', rfl⟩ := Option.map_eq_some_iff.mp ran
    cases taken.symm.trans taken'
    rfl
  | drain => cases found
  | reported => cases found

/-- What an operation finds is in order. -/
theorem Inv.held (inv : Inv capacity chunk s) (ran : s.step call = some s')
    (found : s.held call = some rows) : InOrder rows := by
  cases call with
  | append slot new =>
    cases found
    obtain ⟨⟨same, later⟩, -⟩ := step_append ran
    have ordered := (inv.append same later).1
    rw [whole, List.append_assoc] at ordered
    exact ordered.sublist (List.sublist_append_right _ _)
  | restore =>
    obtain ⟨batch, taken, rfl⟩ := Option.map_eq_some_iff.mp found
    have ordered := inv.ordered
    rw [whole, taken] at ordered
    exact ordered
  | drain => cases found
  | reported => cases found

theorem inv_init :
    Inv capacity chunk (⟨⟨capacity, chunk, []⟩, none, none⟩ : Buffering V) := by
  refine ⟨⟨rfl, rfl⟩, List.Pairwise.nil, by simp [whole], ?_⟩
  rintro ⟨oldest, newest, head, -⟩
  cases head

theorem Inv.step (positive : 0 < chunk) (inv : Inv capacity chunk s)
    (ran : s.step call = some s') : Inv capacity chunk s' := by
  -- after an eviction there is room again
  have evicted : ∀ rows, s.held call = some rows → s'.buffer.rows.Sublist rows ∧
      (s'.buffer.capacityS = capacity ∧ s'.buffer.evictChunkS = chunk) ∧
      ¬ MetricsBuffer.Full capacity s'.buffer.rows := by
    intro rows found
    rw [step_held ran found, ← inv.limits.1, ← inv.limits.2]
    refine ⟨MetricsBuffer.evict_sublist, ⟨rfl, rfl⟩, MetricsBuffer.evict_not_full ?_⟩
    exact inv.limits.2 ▸ positive
  cases call with
  | append slot rows =>
    obtain ⟨shorter, limits, room⟩ := evicted _ rfl
    obtain ⟨⟨same, later⟩, rfl⟩ := step_append ran
    obtain ⟨ordered, past⟩ := inv.append same later
    have part : (whole { s with buffer := (s.buffer.append rows).2, slot := some slot }).Sublist
        (s.whole ++ rows) := by
      rw [whole, whole, List.append_assoc]
      exact (List.Sublist.refl _).append shorter
    refine ⟨limits, ordered.sublist part, ?_, room⟩
    intro row member
    exact ⟨slot, rfl, past row (part.subset member)⟩
  | restore =>
    obtain ⟨batch, taken, rfl⟩ := Option.map_eq_some_iff.mp ran
    have found : s.held .restore = some (batch ++ s.buffer.rows) := by
      rw [Buffering.held, taken]
      rfl
    obtain ⟨shorter, limits, room⟩ := evicted _ found
    have part : (whole { s with buffer := (s.buffer.restore batch).2, batch := none }).Sublist
        s.whole := by
      unfold whole
      rw [taken]
      exact shorter
    exact ⟨limits, inv.ordered.sublist part, fun row member => inv.past row (part.subset member),
      room⟩
  | drain =>
    obtain ⟨free, rfl⟩ := step_drain ran
    have same : whole { s with buffer := s.buffer.drain.2, batch := some s.buffer.drain.1 } =
        s.whole := by
      simp [whole, free, MetricsBuffer.drain]
    refine ⟨inv.limits, same ▸ inv.ordered, same ▸ inv.past, ?_⟩
    rintro ⟨oldest, newest, head, -⟩
    cases head
  | reported =>
    obtain ⟨batch, taken, rfl⟩ := Option.map_eq_some_iff.mp ran
    have part : (whole { s with batch := none }).Sublist s.whole :=
      List.sublist_append_right _ _
    exact ⟨inv.limits, inv.ordered.sublist part,
      fun row member => inv.past row (part.subset member), inv.room⟩

end Buffering

open Buffering

/-- **The buffer keeps the newest slots**: after every operation of every run its rows are in
order and span less than its capacity, and where the operation evicts, the loop ends and has
dropped the oldest slots, each as a whole and never the newest. -/
theorem metrics_buffer_representation {capacityS evictChunkS : Rat} (positive : 0 < evictChunkS)
    (fits : evictChunkS ≤ capacityS) {s s' : Buffering V} {call : BufferCall V}
    (reached : (buffering V capacityS evictChunkS).Reachable s)
    (ran : (buffering V capacityS evictChunkS).step s call = some s') :
    InOrder s'.buffer.rows ∧
    (∀ row ∈ s'.buffer.rows, ∀ row' ∈ s'.buffer.rows,
      ((row'.gridEpoch - row.gridEpoch : Int) : Rat) < capacityS) ∧
    ∀ rows, s.held call = some rows → ∃ passes,
      Evicts capacityS evictChunkS rows passes s'.buffer.rows ∧
      OldestSlots rows (passes.flatMap Eviction.dropped) s'.buffer.rows := by
  have inv : Inv capacityS evictChunkS s := by
    apply reached.invariant
    · rintro s rfl
      exact inv_init
    · intro s e s' inv _ ran
      exact inv.step positive ran
  have inv' : Inv capacityS evictChunkS s' := inv.step positive ran
  have ordered : InOrder s'.buffer.rows := inv'.ordered.sublist (List.sublist_append_right _ _)
  refine ⟨ordered, MetricsBuffer.span_of_not_full ordered inv'.room, ?_⟩
  intro rows found
  have ended : Evicts capacityS evictChunkS rows
      ({ s.buffer with rows := rows } : MetricsBuffer V).evict.1 s'.buffer.rows := by
    rw [step_held ran found, ← inv.limits.1, ← inv.limits.2]
    exact MetricsBuffer.evicts_evictLoop (le_refl _)
  exact ⟨_, ended, MetricsBuffer.evict_oldest_slots fits (inv.held ran found) ended⟩

/-- The row of a slot. -/
def rowAt (slot : Int) : MetricRow Rat := ⟨"node-1", slot, "gpu:temp", 40⟩

/-- A report fails half an hour after its batch was sampled. -/
def lateFailure : Buffering Rat := ⟨⟨1800, 300, [rowAt 1900]⟩, some [rowAt 0, rowAt 200], some 1900⟩

theorem metrics_buffer_representation_restored : ∃ s', lateFailure.step .restore = some s' ∧
    ∃ passes, Evicts 1800 300 [rowAt 0, rowAt 200, rowAt 1900] passes s'.buffer.rows ∧
      OldestSlots [rowAt 0, rowAt 200, rowAt 1900] (passes.flatMap Eviction.dropped)
        s'.buffer.rows := by
  have steps : (buffering Rat 1800 300).run ⟨⟨1800, 300, []⟩, none, none⟩
      [.append 0 [rowAt 0], .append 200 [rowAt 200], .drain, .append 1900 [rowAt 1900]] =
        some lateFailure := rfl
  have reached : (buffering Rat 1800 300).Reachable lateFailure := .of_run rfl steps
  have ran : (buffering Rat 1800 300).step lateFailure .restore = some
      ⟨(lateFailure.buffer.restore [rowAt 0, rowAt 200]).2, none, some 1900⟩ := rfl
  obtain ⟨-, -, evicted⟩ :=
    metrics_buffer_representation (by decide) (by decide) reached ran
  exact ⟨_, rfl, evicted _ rfl⟩

end Oumigo
