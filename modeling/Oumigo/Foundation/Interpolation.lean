import Mathlib.Algebra.Order.Field.Basic
import Mathlib.Data.List.Pairwise
import Mathlib.Tactic.Linarith
import Mathlib.Tactic.FieldSimp

/-!
# Interpolating between knots

A knot is a point with the number of observations that are not beyond it.  `valueAt` is the
value at a rank: it lies on the line to the first knot that reaches the rank, from the knot
before that one.  It is inside that segment (`valueAt_landing`) and grows with the rank
(`valueAt_mono`), whatever knots the two ranks land at.
-/

namespace Interpolation

/-! ## The first knot that reaches a rank -/

section

variable {α K : Type*} {first knot : α × K} {knots : List (α × K)}

/-- Each knot is further than the one before it. -/
def Spread [LT α] (first : α × K) (knots : List (α × K)) : Prop :=
  (first :: knots).Pairwise fun k k' => k.1 < k'.1

theorem Spread.tail [LT α] {rest : List (α × K)} (spread : Spread first (knot :: rest)) :
    first.1 < knot.1 ∧ Spread knot rest := by
  obtain ⟨before, later⟩ := List.pairwise_cons.mp spread
  exact ⟨before knot List.mem_cons_self, later⟩

variable [LinearOrder K] {rank : K}

/-- The knot that reaches a rank, if one does, and the knot before it. -/
def landing (rank : K) (first : α × K) : List (α × K) → (α × K) × Option (α × K)
  | [] => (first, none)
  | knot :: rest => if rank ≤ knot.2 then (first, some knot) else landing rank knot rest

theorem landing_cons_of_le {rest : List (α × K)} (reached : rank ≤ knot.2) :
    landing rank first (knot :: rest) = (first, some knot) :=
  if_pos reached

theorem landing_cons_of_lt {rest : List (α × K)} (short : knot.2 < rank) :
    landing rank first (knot :: rest) = landing rank knot rest :=
  if_neg short.not_ge

/-- Where a rank lands: every knot in front is short of it. -/
theorem landing_split (lands : (landing rank first knots).2 = some knot) :
    ∃ front back, knots = front ++ knot :: back ∧ (∀ other ∈ front, other.2 < rank) ∧
      rank ≤ knot.2 ∧ (landing rank first knots).1 = front.getLastD first := by
  induction knots generalizing first with
  | nil => cases lands
  | cons other rest ih =>
    rcases le_or_gt rank other.2 with reached | short
    · rw [landing_cons_of_le reached] at lands ⊢
      cases lands
      exact ⟨[], rest, rfl, by simp, reached, rfl⟩
    · rw [landing_cons_of_lt short] at lands ⊢
      obtain ⟨front, back, split, below, reached, before⟩ := ih lands
      refine ⟨other :: front, back, by rw [split, List.cons_append], ?_, reached, ?_⟩
      · intro k member
        rcases List.mem_cons.mp member with rfl | later
        · exact short
        · exact below k later
      · rw [before, List.getLastD_cons]

/-- A rank beyond every knot. -/
theorem landing_past (past : ∀ other ∈ knots, other.2 < rank) :
    landing rank first knots = (knots.getLastD first, none) := by
  induction knots generalizing first with
  | nil => rfl
  | cons other rest ih =>
    rw [landing_cons_of_lt (past other List.mem_cons_self), List.getLastD_cons]
    exact ih fun k member => past k (List.mem_cons_of_mem _ member)

theorem landing_none_iff :
    (landing rank first knots).2 = none ↔ ∀ other ∈ knots, other.2 < rank := by
  constructor
  · intro lost
    induction knots generalizing first with
    | nil => simp
    | cons other rest ih =>
      rcases le_or_gt rank other.2 with reached | short
      · rw [landing_cons_of_le reached] at lost
        cases lost
      · rw [landing_cons_of_lt short] at lost
        exact List.forall_mem_cons.mpr ⟨short, ih lost⟩
  · intro past
    rw [landing_past past]

/-- The knot in front of the landing is short of the rank. -/
theorem landing_short (past : first.2 < rank) : (landing rank first knots).1.2 < rank := by
  induction knots generalizing first with
  | nil => exact past
  | cons other rest ih =>
    rcases le_or_gt rank other.2 with reached | short
    · rw [landing_cons_of_le reached]
      exact past
    · rw [landing_cons_of_lt short]
      exact ih short

theorem Spread.landing [LT α] (spread : Spread first knots)
    (lands : (landing rank first knots).2 = some knot) :
    (landing rank first knots).1.1 < knot.1 := by
  induction knots generalizing first with
  | nil => cases lands
  | cons other rest ih =>
    rcases le_or_gt rank other.2 with reached | short
    · rw [landing_cons_of_le reached] at lands ⊢
      cases lands
      exact spread.tail.1
    · rw [landing_cons_of_lt short] at lands ⊢
      exact ih spread.tail.2 lands

end

/-! ## Interpolation -/

variable {K : Type*} [Field K] [LinearOrder K]

/-- The value at a rank on the line through two knots. -/
def between (a b : K × K) (rank : K) : K := a.1 + (b.1 - a.1) * (rank - a.2) / (b.2 - a.2)

variable {a b first knot : K × K} {knots : List (K × K)} {rank rank' v v' : K}

/-- The value at a rank. -/
def valueAt (rank : K) (first : K × K) (knots : List (K × K)) : Option K :=
  (landing rank first knots).2.map fun knot => between (landing rank first knots).1 knot rank

theorem valueAt_cons_of_le {rest : List (K × K)} (reached : rank ≤ knot.2) :
    valueAt rank first (knot :: rest) = some (between first knot rank) := by
  simp [valueAt, landing_cons_of_le reached]

theorem valueAt_cons_of_lt {rest : List (K × K)} (short : knot.2 < rank) :
    valueAt rank first (knot :: rest) = valueAt rank knot rest := by
  simp [valueAt, landing_cons_of_lt short]

theorem valueAt_none_iff :
    valueAt rank first knots = none ↔ ∀ other ∈ knots, other.2 < rank := by
  unfold valueAt
  rw [Option.map_eq_none_iff, landing_none_iff]

variable [IsStrictOrderedRing K]

theorem between_gt (apart : a.1 < b.1) (past : a.2 < rank) (reached : rank ≤ b.2) :
    a.1 < between a b rank := by
  have width : 0 < b.2 - a.2 := sub_pos.mpr (past.trans_le reached)
  have rise : 0 < (b.1 - a.1) * (rank - a.2) := mul_pos (sub_pos.mpr apart) (sub_pos.mpr past)
  exact lt_add_of_pos_right a.1 (div_pos rise width)

theorem between_le (apart : a.1 ≤ b.1) (past : a.2 < rank) (reached : rank ≤ b.2) :
    between a b rank ≤ b.1 := by
  have width : 0 < b.2 - a.2 := sub_pos.mpr (past.trans_le reached)
  have rise : (b.1 - a.1) * (rank - a.2) ≤ (b.1 - a.1) * (b.2 - a.2) :=
    mul_le_mul_of_nonneg_left (sub_le_sub_right reached a.2) (sub_nonneg.mpr apart)
  have part : (b.1 - a.1) * (rank - a.2) / (b.2 - a.2) ≤ b.1 - a.1 := (div_le_iff₀ width).mpr rise
  unfold between
  linarith

theorem between_mono (apart : a.1 ≤ b.1) (counts : a.2 ≤ b.2) (le : rank ≤ rank') :
    between a b rank ≤ between a b rank' := by
  have rise : (b.1 - a.1) * (rank - a.2) ≤ (b.1 - a.1) * (rank' - a.2) :=
    mul_le_mul_of_nonneg_left (sub_le_sub_right le a.2) (sub_nonneg.mpr apart)
  exact add_le_add_right (div_le_div_of_nonneg_right rise (sub_nonneg.mpr counts)) a.1

theorem between_right (counts : a.2 < b.2) : between a b b.2 = b.1 := by
  have width : b.2 - a.2 ≠ 0 := (sub_pos.mpr counts).ne'
  unfold between
  rw [mul_div_cancel_right₀ _ width, add_sub_cancel]

/-- At the count of a knot that none in front reaches, the value is that knot. -/
theorem valueAt_knot {front back : List (K × K)} (past : first.2 < knot.2)
    (below : ∀ other ∈ front, other.2 < knot.2) :
    valueAt knot.2 first (front ++ knot :: back) = some knot.1 := by
  induction front generalizing first with
  | nil =>
    rw [List.nil_append, valueAt_cons_of_le le_rfl, between_right past]
  | cons other rest ih =>
    obtain ⟨short, later⟩ := List.forall_mem_cons.mp below
    rw [List.cons_append, valueAt_cons_of_lt short]
    exact ih short later

/-- **The value is in its segment**: beyond the knot in front of the landing, and not beyond the
knot that reaches the rank. -/
theorem valueAt_landing (spread : Spread first knots) (past : first.2 < rank)
    (value : valueAt rank first knots = some v) :
    ∃ knot, (landing rank first knots).2 = some knot ∧
      (landing rank first knots).1.1 < v ∧ v ≤ knot.1 := by
  obtain ⟨knot, lands, rfl⟩ := Option.map_eq_some_iff.mp value
  have apart := spread.landing lands
  have short : (landing rank first knots).1.2 < rank := landing_short past
  obtain ⟨-, -, -, -, reached, -⟩ := landing_split lands
  exact ⟨knot, lands, between_gt apart short reached, between_le apart.le short reached⟩

theorem lt_valueAt (spread : Spread first knots) (past : first.2 < rank)
    (value : valueAt rank first knots = some v) : first.1 < v := by
  induction knots generalizing first with
  | nil => cases value
  | cons other rest ih =>
    obtain ⟨apart, later⟩ := spread.tail
    rcases le_or_gt rank other.2 with reached | short
    · rw [valueAt_cons_of_le reached] at value
      cases value
      exact between_gt apart past reached
    · rw [valueAt_cons_of_lt short] at value
      exact apart.trans (ih later short value)

/-- **The value grows with the rank.** -/
theorem valueAt_mono (spread : Spread first knots) (past : first.2 < rank) (le : rank ≤ rank')
    (value : valueAt rank first knots = some v) (value' : valueAt rank' first knots = some v') :
    v ≤ v' := by
  induction knots generalizing first with
  | nil => cases value
  | cons other rest ih =>
    obtain ⟨apart, later⟩ := spread.tail
    rcases le_or_gt rank other.2 with reached | short
    · rw [valueAt_cons_of_le reached] at value
      cases value
      rcases le_or_gt rank' other.2 with reached' | short'
      · -- both land at the same knot
        rw [valueAt_cons_of_le reached'] at value'
        cases value'
        exact between_mono apart.le (past.trans_le reached).le le
      · rw [valueAt_cons_of_lt short'] at value'
        exact (between_le apart.le past reached).trans (lt_valueAt later short' value').le
    · rw [valueAt_cons_of_lt short] at value
      rw [valueAt_cons_of_lt (short.trans_le le)] at value'
      exact ih later short value value'

/-- No value is beyond the last knot. -/
theorem valueAt_le_last (spread : Spread first knots) (past : first.2 < rank)
    (value : valueAt rank first knots = some v) : v ≤ (knots.getLastD first).1 := by
  induction knots generalizing first with
  | nil => cases value
  | cons other rest ih =>
    obtain ⟨apart, later⟩ := spread.tail
    rw [List.getLastD_cons]
    rcases le_or_gt rank other.2 with reached | short
    · rw [valueAt_cons_of_le reached] at value
      cases value
      refine (between_le apart.le past reached).trans ?_
      rcases List.mem_cons.mp (List.getLastD_mem_cons (l := rest) (a := other)) with same | member
      · exact le_of_eq (congrArg Prod.fst same).symm
      · exact ((List.pairwise_cons.mp later).1 _ member).le
    · rw [valueAt_cons_of_lt short] at value
      exact ih later short value

end Interpolation
