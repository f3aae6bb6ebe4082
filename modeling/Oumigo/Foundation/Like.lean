import Mathlib.Data.List.Infix

/-!
# Wildcard patterns

The pattern language of SQL's `LIKE` without an escape character: `_` stands for any character,
`%` for any run of characters, and a letter for itself in either case.  `Fits` is what a pattern
means, `fits` decides it.  A pattern that ends in `%` fits a text when what is before the `%` fits
a front of it (`fits_append_run`).
-/

namespace Like

/-- Whether a pattern fits a text. -/
def fits : List Char → List Char → Bool
  | [], text => text.isEmpty
  | c :: pattern, text =>
      if c = '%' then text.tails.any (fits pattern)
      else
        match text with
        | [] => false
        | d :: text => (c = '_' || c.toLower = d.toLower) && fits pattern text

/-- What a pattern means. -/
inductive Fits : List Char → List Char → Prop
  | nil : Fits [] []
  | any {pattern text : List Char} (d : Char) :
    Fits pattern text → Fits ('_' :: pattern) (d :: text)
  | run {pattern text : List Char} (skipped : List Char) :
    Fits pattern text → Fits ('%' :: pattern) (skipped ++ text)
  | letter {pattern text : List Char} {c d : Char} :
    c.toLower = d.toLower → Fits pattern text → Fits (c :: pattern) (d :: text)

variable {pattern text front : List Char}

theorem fits_run :
    fits ('%' :: pattern) text = true ↔ ∃ rest, rest <:+ text ∧ fits pattern rest := by
  have tails : fits ('%' :: pattern) text = text.tails.any (fits pattern) := by
    cases text <;> rfl
  rw [tails, List.any_eq_true]
  simp only [List.mem_tails]

/-- The decision is right. -/
theorem fits_iff : fits pattern text = true ↔ Fits pattern text := by
  induction pattern generalizing text with
  | nil =>
    rw [fits, List.isEmpty_iff]
    constructor
    · rintro rfl
      exact .nil
    · intro holds
      cases holds
      rfl
  | cons c pattern ih =>
    by_cases wild : c = '%'
    · subst wild
      rw [fits_run]
      constructor
      · rintro ⟨rest, ⟨skipped, rfl⟩, holds⟩
        exact .run skipped (ih.mp holds)
      · intro holds
        cases holds with
        | run skipped holds => exact ⟨_, List.suffix_append _ _, ih.mpr holds⟩
        | letter same holds => exact ⟨_, List.suffix_cons _ _, ih.mpr holds⟩
    · cases text with
      | nil =>
        rw [fits, if_neg wild]
        constructor
        · intro holds
          cases holds
        · intro holds
          generalize empty : ([] : List Char) = text at holds
          cases holds with
          | run skipped holds => exact absurd rfl wild
          | any d holds => cases empty
          | letter same holds => cases empty
      | cons d text =>
        rw [fits, if_neg wild, Bool.and_eq_true, Bool.or_eq_true, decide_eq_true_eq,
          decide_eq_true_eq, ih]
        constructor
        · rintro ⟨rfl | same, holds⟩
          · exact .any d holds
          · exact .letter same holds
        · intro holds
          generalize whole : d :: text = text' at holds
          cases holds with
          | run skipped holds => exact absurd rfl wild
          | any d holds =>
            cases whole
            exact ⟨Or.inl rfl, holds⟩
          | letter same holds =>
            cases whole
            exact ⟨Or.inr same, holds⟩

/-- A text fits itself as a pattern. -/
theorem Fits.refl (text : List Char) : Fits text text := by
  induction text with
  | nil => exact .nil
  | cons c text ih => exact .letter rfl ih

theorem Fits.append_run (holds : Fits pattern front) (rest : List Char) :
    Fits (pattern ++ ['%']) (front ++ rest) := by
  induction holds with
  | nil => simpa using Fits.run rest .nil
  | any d _ ih => exact .any d ih
  | run skipped _ ih =>
    rw [List.append_assoc]
    exact .run skipped ih
  | letter same _ ih => exact .letter same ih

/-- A pattern that ends in a run fits what begins as the pattern says. -/
theorem Fits.front_of_append (holds : Fits (pattern ++ ['%']) text) :
    ∃ front, front <+: text ∧ Fits pattern front := by
  induction pattern generalizing text with
  | nil => exact ⟨[], List.nil_prefix, .nil⟩
  | cons c pattern ih =>
    rw [List.cons_append] at holds
    cases holds with
    | any d holds =>
      obtain ⟨front, begins, holds⟩ := ih holds
      exact ⟨d :: front, List.cons_prefix_cons.mpr ⟨rfl, begins⟩, .any d holds⟩
    | run skipped holds =>
      obtain ⟨front, begins, holds⟩ := ih holds
      exact ⟨skipped ++ front, (List.prefix_append_right_inj skipped).mpr begins,
        .run skipped holds⟩
    | letter same holds =>
      obtain ⟨front, begins, holds⟩ := ih holds
      exact ⟨_ :: front, List.cons_prefix_cons.mpr ⟨rfl, begins⟩, .letter same holds⟩

/-- A run at the end fits whatever is left. -/
theorem fits_append_run :
    fits (pattern ++ ['%']) text = true ↔ ∃ front, front <+: text ∧ Fits pattern front := by
  rw [fits_iff]
  constructor
  · exact Fits.front_of_append
  · rintro ⟨front, ⟨rest, rfl⟩, holds⟩
    exact holds.append_run rest

/-- Without wildcards a pattern is a text in either case. -/
theorem fits_plain (single : '_' ∉ pattern) (run : '%' ∉ pattern) :
    Fits pattern text ↔ pattern.map Char.toLower = text.map Char.toLower := by
  induction pattern generalizing text with
  | nil =>
    constructor
    · intro holds
      cases holds
      rfl
    · intro same
      rw [List.map_eq_nil_iff.mp same.symm]
      exact .nil
  | cons c pattern ih =>
    rw [List.mem_cons, not_or] at single run
    constructor
    · intro holds
      cases holds with
      | any d holds => exact absurd rfl single.1
      | run skipped holds => exact absurd rfl run.1
      | letter same holds =>
        rw [List.map_cons, List.map_cons, same, (ih single.2 run.2).mp holds]
    · intro same
      cases text with
      | nil => cases same
      | cons d text =>
        obtain ⟨first, others⟩ := List.cons.inj same
        exact .letter first ((ih single.2 run.2).mpr others)

end Like
