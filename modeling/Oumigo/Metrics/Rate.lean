import Oumigo.Metrics.Collector
import Oumigo.Foundation.Window
import Mathlib.Data.List.Chain

/-!
# The request rate and the counter behind it

`_RequestRateTracker` of `service/worker/metrics.py` over any sequence of slots.  `rateOver` is
the rate of `docs/metrics.md`: the increase over the widest window that the history supports, as
long as the counter did not go backwards in it.  The tracker compares the counter with the oldest
sample only, so it agrees exactly while no reset is hidden behind a counter that has grown past
that sample again (`rate_eq_iff`).
-/

namespace Oumigo

open Python

/-- A slot's call of `update`, with the counter if it is present. -/
abbrev RateCall := Int × Option Rat

/-- The samples that calls record. -/
def recorded (calls : List RateCall) : List (Int × Rat) :=
  calls.filterMap fun call => call.2.map fun count => (call.1, count)

/-- The recorded samples of the last 180 seconds. -/
def retained (calls : List RateCall) (slot : Int) : List (Int × Rat) :=
  (recorded calls).filter fun sample => slot - 180 ≤ sample.1

/-- The counter does not decrease from one sample to the next. -/
def Rising (samples : List (Int × Rat)) : Prop := (samples.map Prod.snd).IsChain (· ≤ ·)

instance (samples : List (Int × Rat)) : Decidable (Rising samples) :=
  inferInstanceAs (Decidable (List.IsChain _ _))

/-- The rate at a slot, per minute and not rounded: over the window from the oldest sample of
the last 180 seconds, if it is 60 seconds long and the counter rose in it. -/
def rateOver (calls : List RateCall) (slot : Int) (counter : Option Rat) : Option Rat :=
  match counter, retained calls slot with
  | some count, (epoch, first) :: rest =>
      if 60 ≤ slot - epoch ∧ Rising ((epoch, first) :: rest ++ [(slot, count)]) then
        some ((count - first) * (60 / ((slot - epoch : Int) : Rat)))
      else none
  | _, _ => none

/-- The counter is not below the oldest sample of a window of 60 seconds, and went backwards
inside it. -/
def HidesReset (calls : List RateCall) (slot : Int) (counter : Option Rat) : Prop :=
  ∃ count epoch first rest, counter = some count ∧
    retained calls slot = (epoch, first) :: rest ∧ 60 ≤ slot - epoch ∧ first ≤ count ∧
    ¬ Rising ((epoch, first) :: rest ++ [(slot, count)])

/-- The tracker after a sequence of calls. -/
def trackerAfter (calls : List RateCall) : RequestRateTracker :=
  calls.foldl (fun t call => (t.update call.1 (call.2.map .num)).2) ⟨[]⟩

/-- What the tracker returns for the next call. -/
def reportedRate (calls : List RateCall) (slot : Int) (counter : Option Rat) : Option PyFloat :=
  ((trackerAfter calls).update slot (counter.map .num)).1

/-- The slots of calls increase. -/
def Increasing (calls : List RateCall) : Prop := (calls.map Prod.fst).Pairwise (· < ·)

/-! ## What the tracker keeps -/

variable {calls : List RateCall} {slot : Int} {counter : Option Rat} {count : Rat}

theorem recorded_append_some :
    recorded (calls ++ [(slot, some count)]) = recorded calls ++ [(slot, count)] := by
  simp [recorded]

theorem recorded_append_none : recorded (calls ++ [(slot, none)]) = recorded calls := by
  simp [recorded]

theorem recorded_sublist : ((recorded calls).map Prod.fst).Sublist (calls.map Prod.fst) := by
  induction calls with
  | nil => exact List.Sublist.refl _
  | cons call rest ih =>
    rcases call with ⟨epoch, counter⟩
    cases counter with
    | none => exact ih.cons epoch
    | some count => exact ih.cons_cons epoch

theorem Increasing.recorded (increasing : Increasing calls) :
    ((recorded calls).map Prod.fst).Pairwise (· < ·) :=
  increasing.sublist recorded_sublist

theorem Increasing.last (increasing : Increasing (calls ++ [(slot, counter)])) :
    Increasing calls ∧ ∀ call ∈ calls, call.1 < slot := by
  unfold Increasing at increasing
  rw [List.map_append, List.pairwise_append] at increasing
  obtain ⟨before, -, after⟩ := increasing
  refine ⟨before, fun call member => ?_⟩
  exact after call.1 (List.mem_map_of_mem member) slot (by simp)

/-- A sample as the tracker holds it. -/
def toSample (sample : Int × Rat) : Int × PyFloat := (sample.1, .num sample.2)

/-- **What the tracker keeps**: at any later slot, its samples that are recent enough are the
retained ones. -/
theorem samples_trackerAfter (increasing : Increasing calls)
    (later : ∀ call ∈ calls, call.1 ≤ slot) :
    ((trackerAfter calls).samples.dropWhile fun sample => sample.1 < slot - 180) =
      (retained calls slot).map toSample := by
  induction calls using List.reverseRecOn generalizing slot with
  | nil => rfl
  | append_singleton calls call ih =>
    rcases call with ⟨epoch, counter⟩
    obtain ⟨before, earlier⟩ := increasing.last
    have sooner : epoch ≤ slot := later (epoch, counter) (by simp)
    have kept := ih before fun call member => (earlier call member).le
    have step : trackerAfter (calls ++ [(epoch, counter)]) =
        ((trackerAfter calls).update epoch (counter.map .num)).2 := by
      simp [trackerAfter]
    cases counter with
    | none =>
      rw [step, retained, recorded_append_none]
      exact ih before fun call member => (earlier call member).le.trans sooner
    | some count =>
      have samples : (trackerAfter (calls ++ [(epoch, some count)])).samples =
          ((retained calls epoch) ++ [(epoch, count)]).map toSample := by
        rw [step, List.map_append, ← kept]
        rfl
      have sorted : ((retained calls epoch ++ [(epoch, count)]).map toSample).Pairwise
          fun sample sample' => sample.1 ≤ sample'.1 := by
        have whole := increasing.recorded
        rw [recorded_append_some] at whole
        apply List.pairwise_map.mpr
        have kept : (retained calls epoch ++ [(epoch, count)]).Sublist
            (recorded calls ++ [(epoch, count)]) :=
          List.filter_sublist.append (List.Sublist.refl _)
        exact ((List.pairwise_map.mp whole).imp le_of_lt).sublist kept
      rw [samples, Window.dropWhile_eq_filter (slot - 180) sorted, List.filter_map, retained,
        retained, recorded_append_some, List.filter_append, List.filter_append,
        List.filter_filter]
      have same : (recorded calls).filter (fun sample =>
          ((fun sample : Int × PyFloat => decide (slot - 180 ≤ sample.1)) ∘ toSample) sample &&
            decide (epoch - 180 ≤ sample.1)) =
          (recorded calls).filter fun sample => slot - 180 ≤ sample.1 := by
        apply List.filter_congr
        intro sample _
        show (decide (slot - 180 ≤ sample.1) && decide (epoch - 180 ≤ sample.1)) =
          decide (slot - 180 ≤ sample.1)
        rw [Bool.and_eq_left_iff_imp, decide_eq_true_eq, decide_eq_true_eq]
        omega
      rw [same]
      rfl

/-! ## The rate -/

theorem Rising.le {epoch : Int} {first : Rat} {rest : List (Int × Rat)}
    (rising : Rising ((epoch, first) :: rest ++ [(slot, count)])) : first ≤ count := by
  have pairs := List.isChain_iff_pairwise.mp rising
  rw [List.cons_append, List.map_cons, List.pairwise_cons] at pairs
  exact pairs.1 count (by simp)

/-- What the tracker returns, over the retained samples. -/
theorem reportedRate_eq (increasing : Increasing (calls ++ [(slot, counter)])) :
    reportedRate calls slot counter =
      match counter, retained calls slot with
      | some count, (epoch, first) :: _ =>
          if 60 ≤ slot - epoch ∧ first ≤ count then
            some (.num (roundTo 2 ((count - first) * (60 / ((slot - epoch : Int) : Rat)))))
          else none
      | _, _ => none := by
  obtain ⟨before, earlier⟩ := increasing.last
  have kept := samples_trackerAfter before fun call member => (earlier call member).le
  unfold reportedRate RequestRateTracker.update
  cases counter with
  | none => rfl
  | some count =>
    simp only [Option.map_some, kept]
    rcases retained calls slot with _ | ⟨⟨epoch, first⟩, rest⟩
    · rfl
    · have value : (((PyFloat.num count).sub (.num first)).div (.num (slot - epoch : Int))).mul
          (.num 60) = .num ((count - first) * (60 / ((slot - epoch : Int) : Rat))) := by
        show PyFloat.num ((count + -first) / ((slot - epoch : Int) : Rat) * 60) = _
        rw [← sub_eq_add_neg, div_mul_eq_mul_div, mul_div_assoc]
      have delta : ((PyFloat.num 0).le ((PyFloat.num count).sub (.num first)) = true) ↔
          first ≤ count := by
        show (decide ((0 : Rat) ≤ count + -first) = true) ↔ _
        rw [decide_eq_true_eq, ← sub_eq_add_neg, sub_nonneg]
      simp only [List.map_cons, toSample, delta, value]
      rfl

theorem hidesReset_iff {epoch : Int} {first : Rat} {rest : List (Int × Rat)}
    (found : retained calls slot = (epoch, first) :: rest) :
    HidesReset calls slot (some count) ↔ 60 ≤ slot - epoch ∧ first ≤ count ∧
      ¬ Rising ((epoch, first) :: rest ++ [(slot, count)]) := by
  constructor
  · rintro ⟨_, _, _, _, same, found', hides⟩
    cases same
    cases found.symm.trans found'
    exact hides
  · intro hides
    exact ⟨count, epoch, first, rest, rfl, found, hides⟩

/-- **The request rate**: in any sequence of slots, what the tracker returns is the rate of the
window, rounded, exactly when the counter does not hide a reset. -/
theorem rate_eq_iff (calls : List RateCall) (slot : Int) (counter : Option Rat)
    (increasing : Increasing (calls ++ [(slot, counter)])) :
    reportedRate calls slot counter =
        (rateOver calls slot counter).map (fun rate => .num (roundTo 2 rate)) ↔
      ¬ HidesReset calls slot counter := by
  rw [reportedRate_eq increasing]
  cases counter with
  | none =>
    refine iff_of_true rfl ?_
    rintro ⟨_, _, _, _, absent, -⟩
    cases absent
  | some count =>
    rcases found : retained calls slot with _ | ⟨⟨epoch, first⟩, rest⟩
    · refine iff_of_true ?_ ?_
      · simp only [rateOver, found, Option.map_none]
      · rintro ⟨_, _, _, _, -, found', -⟩
        cases found.symm.trans found'
    · rw [hidesReset_iff found]
      simp only [rateOver, found]
      by_cases rising : Rising ((epoch, first) :: rest ++ [(slot, count)])
      · have grown : first ≤ count := rising.le
        simp only [rising, grown, and_true, not_true, and_false, not_false_eq_true, iff_true]
        split
        · rfl
        · rfl
      · simp only [rising, and_false, if_false, Option.map_none, not_false_eq_true, and_true]
        split
        · next reported => exact iff_of_false (by simp) fun hides => hides reported
        · next silent => exact iff_of_true rfl silent

theorem rate_eq_iff_steady : reportedRate [(0, some 100)] 60 (some 120) = some (.num 20) := by
  have increasing : Increasing [(0, some 100), (60, some 120)] := by
    unfold Increasing
    decide
  have risen : ¬ HidesReset [(0, some 100)] 60 (some 120) := by
    rintro ⟨count, epoch, first, rest, same, found, -, -, fell⟩
    cases same
    cases found
    exact fell (by decide +kernel)
  rw [(rate_eq_iff [(0, some 100)] 60 (some 120) increasing).mpr risen]
  decide +kernel

/-- **A rate across a reset**: the counter fell from 500 to 3, and at the next slot it is past
500 again. -/
theorem hidden_reset_reported :
    reportedRate [(0, some 500), (5, some 3)] 60 (some 600) = some (.num 100) ∧
    rateOver [(0, some 500), (5, some 3)] 60 (some 600) = none ∧
    ¬ ∀ (calls : List RateCall) (slot : Int) (counter : Option Rat),
      Increasing (calls ++ [(slot, counter)]) →
      reportedRate calls slot counter =
        (rateOver calls slot counter).map fun rate => .num (roundTo 2 rate) := by
  have reported : reportedRate [(0, some 500), (5, some 3)] 60 (some 600) = some (.num 100) := by
    decide +kernel
  have fell : rateOver [(0, some 500), (5, some 3)] 60 (some 600) = none := by
    decide +kernel
  refine ⟨reported, fell, fun claim => ?_⟩
  have increasing : Increasing ([(0, some 500), (5, some 3)] ++ [(60, some 600)]) := by
    unfold Increasing
    decide
  have same := claim _ _ _ increasing
  rw [reported, fell] at same
  cases same

end Oumigo
