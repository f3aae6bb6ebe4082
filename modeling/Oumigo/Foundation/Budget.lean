import Mathlib.Algebra.Order.BigOperators.Group.List

/-!
# Taking items while they fit

`fitting` takes items from the front of a list while their total stays within a limit.  It
is the longest prefix that does (`fitting_isPrefix`, `fitting_within`, `prefix_fitting`), it
may be taken piece by piece (`fitting_append`), and taking it again takes all of it.
-/

namespace Budget

variable {α M : Type*} [AddCommMonoid M] [LinearOrder M]
  {weight : α → M} {limit spent : M} {items taken : List α}

/-- The items that fit, taken from the front. -/
def fitting (weight : α → M) (limit spent : M) : List α → List α
  | [] => []
  | item :: rest =>
      if spent + weight item ≤ limit then
        item :: fitting weight limit (spent + weight item) rest
      else []

theorem fitting_cons_of_le {item : α} {rest : List α} (fits : spent + weight item ≤ limit) :
    fitting weight limit spent (item :: rest) =
      item :: fitting weight limit (spent + weight item) rest :=
  if_pos fits

theorem fitting_cons_of_lt {item : α} {rest : List α} (exceeds : limit < spent + weight item) :
    fitting weight limit spent (item :: rest) = [] :=
  if_neg exceeds.not_ge

theorem fitting_isPrefix : fitting weight limit spent items <+: items := by
  induction items generalizing spent with
  | nil => exact List.prefix_rfl
  | cons item rest ih =>
    rcases le_or_gt (spent + weight item) limit with fits | exceeds
    · rw [fitting_cons_of_le fits]
      exact List.cons_prefix_cons.mpr ⟨rfl, ih⟩
    · rw [fitting_cons_of_lt exceeds]
      exact List.nil_prefix

/-- **What is taken fits.** -/
theorem fitting_within (within : spent ≤ limit) :
    spent + ((fitting weight limit spent items).map weight).sum ≤ limit := by
  induction items generalizing spent with
  | nil => simpa [fitting] using within
  | cons item rest ih =>
    rcases le_or_gt (spent + weight item) limit with fits | exceeds
    · rw [fitting_cons_of_le fits, List.map_cons, List.sum_cons, ← add_assoc]
      exact ih fits
    · simpa [fitting_cons_of_lt exceeds] using within

/-- After a list that is taken as a whole comes the next one. -/
theorem fitting_append_of_eq {more : List α}
    (whole : fitting weight limit spent items = items) :
    fitting weight limit spent (items ++ more) =
      items ++ fitting weight limit (spent + (items.map weight).sum) more := by
  induction items generalizing spent with
  | nil => simp
  | cons item rest ih =>
    rcases le_or_gt (spent + weight item) limit with fits | exceeds
    · rw [fitting_cons_of_le fits] at whole
      rw [List.cons_append, fitting_cons_of_le fits, ih (List.cons.inj whole).2]
      simp only [List.cons_append, List.map_cons, List.sum_cons, add_assoc]
    · rw [fitting_cons_of_lt exceeds] at whole
      cases whole

/-- After a list that is not taken as a whole nothing is taken. -/
theorem fitting_append_of_ne {more : List α}
    (part : fitting weight limit spent items ≠ items) :
    fitting weight limit spent (items ++ more) = fitting weight limit spent items := by
  induction items generalizing spent with
  | nil => exact absurd rfl part
  | cons item rest ih =>
    rcases le_or_gt (spent + weight item) limit with fits | exceeds
    · rw [fitting_cons_of_le fits] at part
      rw [List.cons_append, fitting_cons_of_le fits, fitting_cons_of_le fits,
        ih fun whole => part (by rw [whole])]
    · rw [List.cons_append, fitting_cons_of_lt exceeds, fitting_cons_of_lt exceeds]

/-- Taking again from what was taken. -/
theorem fitting_fitting :
    fitting weight limit spent (fitting weight limit spent items) =
      fitting weight limit spent items := by
  induction items generalizing spent with
  | nil => rfl
  | cons item rest ih =>
    rcases le_or_gt (spent + weight item) limit with fits | exceeds
    · rw [fitting_cons_of_le fits, fitting_cons_of_le fits, ih]
    · rw [fitting_cons_of_lt exceeds]
      rfl

variable [IsOrderedAddMonoid M]

theorem le_add_sum (nonneg : ∀ item ∈ taken, 0 ≤ weight item) :
    spent ≤ spent + (taken.map weight).sum := by
  refine le_add_of_nonneg_right (List.sum_nonneg fun w mem => ?_)
  obtain ⟨item, here, rfl⟩ := List.mem_map.mp mem
  exact nonneg item here

/-- **Nothing longer fits**: what fits is a prefix of what is taken. -/
theorem prefix_fitting (nonneg : ∀ item ∈ items, 0 ≤ weight item) (pre : taken <+: items)
    (within : spent + (taken.map weight).sum ≤ limit) :
    taken <+: fitting weight limit spent items := by
  induction items generalizing spent taken with
  | nil =>
    rw [List.prefix_nil.mp pre]
    exact List.nil_prefix
  | cons item rest ih =>
    cases taken with
    | nil => exact List.nil_prefix
    | cons first more =>
      obtain ⟨rfl, tail⟩ := List.cons_prefix_cons.mp pre
      rw [List.map_cons, List.sum_cons, ← add_assoc] at within
      have later : ∀ item ∈ rest, 0 ≤ weight item := fun item mem =>
        nonneg item (List.mem_cons_of_mem _ mem)
      have fits : spent + weight first ≤ limit :=
        (le_add_sum fun item mem => later item (List.IsPrefix.subset tail mem)).trans within
      rw [fitting_cons_of_le fits]
      exact List.cons_prefix_cons.mpr ⟨rfl, ih later tail within⟩

/-- Everything is taken when everything fits. -/
theorem fitting_eq_self (nonneg : ∀ item ∈ items, 0 ≤ weight item)
    (within : spent + (items.map weight).sum ≤ limit) :
    fitting weight limit spent items = items :=
  fitting_isPrefix.eq_of_length_le (prefix_fitting nonneg List.prefix_rfl within).length_le

end Budget
