import Mathlib.Data.List.Basic
import Mathlib.Data.List.Nodup
import Mathlib.Tactic.Common

/-!
# Queues as lists

A `deque` is a list with its head on the left.  `popUntil` is the loop that pops
on the left up to the first element it can use; `Before l a b` says that `a` is
ahead of `b` in the queue `l`.
-/

namespace Deque

variable {α : Type*} {p : α → Bool} {l rest : List α} {a b : α}

/-- Pop on the left up to the first element that satisfies `p`. -/
def popUntil (p : α → Bool) : List α → Option α × List α
  | [] => (none, [])
  | a :: rest => if p a then (some a, rest) else popUntil p rest

/-- What was popped ahead of the result did not satisfy `p`. -/
theorem popUntil_some (popped : popUntil p l = (some a, rest)) :
    p a = true ∧ ∃ dropped, l = dropped ++ a :: rest ∧ ∀ d ∈ dropped, p d = false := by
  induction l with
  | nil => cases popped
  | cons x xs ih =>
    unfold popUntil at popped
    split at popped
    · next here =>
      cases popped
      exact ⟨here, [], rfl, fun d member => nomatch member⟩
    · next skip =>
      obtain ⟨found, dropped, rfl, unused⟩ := ih popped
      refine ⟨found, x :: dropped, rfl, fun d member => ?_⟩
      rcases List.mem_cons.mp member with rfl | member
      · exact Bool.eq_false_iff.mpr skip
      · exact unused d member

theorem popUntil_none (popped : popUntil p l = (none, rest)) :
    rest = [] ∧ ∀ d ∈ l, p d = false := by
  induction l with
  | nil => exact ⟨(Prod.mk.inj popped).2.symm, fun d member => nomatch member⟩
  | cons x xs ih =>
    unfold popUntil at popped
    split at popped
    · cases popped
    · next skip =>
      obtain ⟨drained, unused⟩ := ih popped
      refine ⟨drained, fun d member => ?_⟩
      rcases List.mem_cons.mp member with rfl | member
      · exact Bool.eq_false_iff.mpr skip
      · exact unused d member

/-! ## Objects by index: a new one goes to the end -/

theorem getElem?_append_of_some {i : Nat} {l' : List α} (found : l[i]? = some a) :
    (l ++ l')[i]? = some a := by
  rw [List.getElem?_append_left (List.getElem?_eq_some_iff.mp found).1]
  exact found

theorem getElem?_concat_cases {i : Nat} {x : α} (found : (l ++ [x])[i]? = some a) :
    l[i]? = some a ∨ (i = l.length ∧ a = x) := by
  rcases Nat.lt_trichotomy i l.length with inside | rfl | outside
  · rw [List.getElem?_append_left inside] at found
    exact Or.inl found
  · rw [List.getElem?_concat_length] at found
    exact Or.inr ⟨rfl, (Option.some.inj found).symm⟩
  · rw [List.getElem?_eq_none (by simp; omega)] at found
    cases found

theorem nodup_concat (fresh : a ∉ l) (nodup : l.Nodup) : (l ++ [a]).Nodup := by
  simpa using nodup.concat fresh

theorem modify_concat {x : α} {f : α → α} : (l ++ [x]).modify l.length f = l ++ [f x] := by
  induction l with
  | nil => rfl
  | cons y ys ih => simpa using ih

theorem getElem?_length_eq_none : l[l.length]? = none := by simp

theorem lt_length_of_some {i : Nat} (found : l[i]? = some a) : i < l.length :=
  (List.getElem?_eq_some_iff.mp found).1

/-- Replacing one element changes a count by that element alone. -/
theorem countP_modify {i : Nat} {f : α → α} (found : l[i]? = some a) :
    (l.modify i f).countP p + (if p a then 1 else 0) = l.countP p + if p (f a) then 1 else 0 := by
  induction l generalizing i with
  | nil => cases found
  | cons x xs ih =>
    cases i with
    | zero =>
      cases found
      rw [List.modify_zero_cons, List.countP_cons, List.countP_cons]
      omega
    | succ i =>
      rw [List.modify_succ_cons, List.countP_cons, List.countP_cons]
      have tail := ih (i := i) (by simpa using found)
      omega

/-- `a` is ahead of `b` in the queue. -/
def Before (l : List α) (a b : α) : Prop := [a, b].Sublist l

theorem Before.left (before : Before l a b) : a ∈ l := before.subset (by simp)

theorem Before.right (before : Before l a b) : b ∈ l := before.subset (by simp)

theorem Before.of_cons {x : α} (before : Before (x :: l) a b) :
    (a = x ∧ b ∈ l) ∨ Before l a b := by
  cases before with
  | cons _ deeper => exact Or.inr deeper
  | cons_cons _ deeper => exact Or.inl ⟨rfl, List.singleton_sublist.mp deeper⟩

theorem Before.mono {l' : List α} (sub : l'.Sublist l) (before : Before l' a b) : Before l a b :=
  before.trans sub

/-- Dropping others from a queue does not change who is ahead of whom. -/
theorem Before.restrict {l' : List α} (sub : l'.Sublist l) (nodup : l.Nodup) (left : a ∈ l')
    (right : b ∈ l') (before : Before l a b) : Before l' a b := by
  induction sub with
  | slnil => cases left
  | cons x sub ih =>
    obtain ⟨fresh, tail⟩ := List.nodup_cons.mp nodup
    rcases before.of_cons with ⟨rfl, -⟩ | before
    · exact (fresh (sub.subset left)).elim
    · exact ih tail left right before
  | cons_cons x sub ih =>
    obtain ⟨fresh, tail⟩ := List.nodup_cons.mp nodup
    rcases before.of_cons with ⟨rfl, later⟩ | deeper
    · rcases List.mem_cons.mp right with rfl | right
      · exact (fresh later).elim
      · exact (List.singleton_sublist.mpr right).cons_cons _
    · rcases List.mem_cons.mp left with rfl | left
      · exact (fresh deeper.left).elim
      · rcases List.mem_cons.mp right with rfl | right
        · exact (fresh deeper.right).elim
        · exact (ih tail left right deeper).cons _

end Deque
