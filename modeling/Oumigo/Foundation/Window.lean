import Mathlib.Algebra.Order.Group.Defs
import Mathlib.Algebra.Order.Sub.Basic
import Mathlib.Data.List.Induction
import Mathlib.Order.Basic
import Mathlib.Tactic.Common

/-!
# Sorted logs and sliding windows

A log is a list of entries in the order of their times.  `dropWhile_eq_filter`: dropping the old
entries from its front keeps exactly the recent ones.  `Limited m w`: each time was added when
fewer than `m` of the earlier ones lay in the window of length `w` that ends at it; then no window
of that length, wherever it starts, holds more than `m` times.
-/

namespace Window

section

variable {α T : Type*} [LinearOrder T] {time : α → T} {log : List α}

/-- On a sorted log, dropping the front is filtering. -/
theorem dropWhile_eq_filter (cutoff : T) (sorted : log.Pairwise fun a b => time a ≤ time b) :
    (log.dropWhile fun a => time a < cutoff) = log.filter fun a => cutoff ≤ time a := by
  induction log with
  | nil => rfl
  | cons a rest ih =>
    rw [List.pairwise_cons] at sorted
    by_cases old : time a < cutoff
    · rw [List.dropWhile_cons_of_pos (by simpa using old),
        List.filter_cons_of_neg (by simpa using old), ih sorted.2]
    · rw [List.dropWhile_cons_of_neg (by simpa using old), eq_comm, List.filter_eq_self]
      intro other member
      rw [decide_eq_true_eq]
      rcases List.mem_cons.mp member with rfl | later
      · exact not_lt.mp old
      · exact (not_lt.mp old).trans (sorted.1 other later)

theorem dropWhile_lt {times : List T} (cutoff : T) (sorted : times.Pairwise (· ≤ ·)) :
    times.dropWhile (· < cutoff) = times.filter (cutoff ≤ ·) :=
  @dropWhile_eq_filter T T _ id times cutoff sorted

/-- A later cutoff makes an earlier one superfluous. -/
theorem filter_filter {early late : T} (order : early ≤ late) (log : List T) :
    (log.filter (early ≤ ·)).filter (late ≤ ·) = log.filter (late ≤ ·) := by
  rw [List.filter_filter]
  apply List.filter_congr
  intro t _
  rw [Bool.and_eq_left_iff_imp, decide_eq_true_eq, decide_eq_true_eq]
  exact order.trans

/-- The times from `low` to `high`. -/
def count (low high : T) (times : List T) : Nat := times.countP fun t => low ≤ t ∧ t ≤ high

theorem count_append (low high : T) (times later : List T) :
    count low high (times ++ later) = count low high times + count low high later :=
  List.countP_append

theorem count_mono {low low' high high' : T} {times : List T}
    (inside : ∀ t ∈ times, low ≤ t → t ≤ high → low' ≤ t ∧ t ≤ high') :
    count low high times ≤ count low' high' times := by
  apply List.countP_mono_left
  intro t member within
  rw [decide_eq_true_eq] at within ⊢
  exact inside t member within.1 within.2

/-- The recent entries of a log that has nothing later than `high`. -/
theorem length_filter {low high : T} {times : List T} (past : ∀ t ∈ times, t ≤ high) :
    (times.filter (low ≤ ·)).length = count low high times := by
  rw [← List.countP_eq_length_filter]
  apply List.countP_congr
  intro t member
  rw [decide_eq_true_eq, decide_eq_true_eq]
  exact (and_iff_left (past t member)).symm

end

section

variable {T : Type*} [LinearOrder T] [AddCommGroup T] [IsOrderedAddMonoid T] {m : Nat} {w : T}
  {times : List T}

/-- Each time was added with fewer than `m` of the earlier ones in the window that ends at it. -/
def Limited (m : Nat) (w : T) (times : List T) : Prop :=
  ∀ before t after, times = before ++ t :: after → count (t - w) t before < m

/-- **Any window**: at most `m` times of a limited log lie in an interval of length `w`. -/
theorem Limited.count_le (limited : Limited m w times) (sorted : times.Pairwise (· ≤ ·))
    (start : T) : count start (start + w) times ≤ m := by
  induction times using List.reverseRecOn with
  | nil => exact Nat.zero_le m
  | append_singleton before t ih =>
    obtain ⟨order, -, last⟩ := List.pairwise_append.mp sorted
    have earlier : Limited m w before := by
      intro front s after same
      apply limited front s (after ++ [t])
      rw [same, List.append_assoc, List.cons_append]
    rw [count_append]
    by_cases inside : start ≤ t ∧ t ≤ start + w
    · -- the window ends at `t` or later, so what it holds counted when `t` was added
      have room := limited before t [] rfl
      have fits : count start (start + w) before ≤ count (t - w) t before := by
        apply count_mono
        intro s member low _
        exact ⟨(sub_le_iff_le_add.mpr inside.2).trans low, last s member t (by simp)⟩
      have one : count start (start + w) [t] = 1 := by
        simp [count, inside]
      omega
    · have none : count start (start + w) [t] = 0 := by
        simpa [count] using inside
      have rest := ih earlier order
      omega

end

end Window
