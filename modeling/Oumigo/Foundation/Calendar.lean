import Mathlib.Data.List.Lex
import Mathlib.Data.Nat.Find
import Mathlib.Data.String.Basic
import Mathlib.Order.Monotone.Basic

/-!
# Calendar times and their texts

Times of the proleptic Gregorian calendar in the years 1000 to 9999, where
`%Y-%m-%d %H:%M:%S` has a fixed width.  `stamp_lt_iff`: such texts compare as the seconds
they name.  `ofSeconds_seconds` and `seconds_of_ofSeconds`: counting seconds and naming them are
inverse.
-/

namespace Calendar

/-! ## Numbers of fixed width -/

section

variable {xs ys xs' ys' : List Char} {m n width : Nat}

/-- The last digits of a number. -/
def digits : Nat → Nat → List Char
  | 0, _ => []
  | width + 1, n => digits width (n / 10) ++ [Nat.digitChar (n % 10)]

theorem length_digits (width n : Nat) : (digits width n).length = width := by
  induction width generalizing n with
  | zero => rfl
  | succ width ih => simp [digits, ih]

/-- Texts of one length compare before what follows them. -/
theorem append_lt_append_iff (same : xs.length = ys.length) :
    xs ++ xs' < ys ++ ys' ↔ xs < ys ∨ xs = ys ∧ xs' < ys' := by
  induction xs generalizing ys with
  | nil =>
    obtain rfl : ys = [] := List.length_eq_zero_iff.mp same.symm
    simp
  | cons x xs ih =>
    cases ys with
    | nil => cases same
    | cons y ys =>
      have rest := ih (Nat.succ.inj same)
      rw [List.cons_append, List.cons_append, List.cons_lt_cons_iff, List.cons_lt_cons_iff, rest,
        List.cons.injEq]
      constructor
      · rintro (first | ⟨rfl, later | ⟨rfl, later⟩⟩)
        · exact Or.inl (Or.inl first)
        · exact Or.inl (Or.inr ⟨rfl, later⟩)
        · exact Or.inr ⟨⟨rfl, rfl⟩, later⟩
      · rintro ((first | ⟨rfl, later⟩) | ⟨⟨rfl, rfl⟩, later⟩)
        · exact Or.inl first
        · exact Or.inr ⟨rfl, Or.inl later⟩
        · exact Or.inr ⟨rfl, Or.inr ⟨rfl, later⟩⟩

theorem digitChar_lt_iff : ∀ m < 10, ∀ n < 10, Nat.digitChar m < Nat.digitChar n ↔ m < n := by
  decide

/-- Numbers of one width compare as their digits. -/
theorem digits_lt_iff (fits : m < 10 ^ width) (fits' : n < 10 ^ width) :
    digits width m < digits width n ↔ m < n := by
  induction width generalizing m n with
  | zero =>
    simp only [digits, List.not_lt_nil, false_iff]
    omega
  | succ width ih =>
    have small : m / 10 < 10 ^ width := by
      rw [pow_succ] at fits
      omega
    have small' : n / 10 < 10 ^ width := by
      rw [pow_succ] at fits'
      omega
    have front := ih small small'
    have back := ih small' small
    have equal : digits width (m / 10) = digits width (n / 10) ↔ m / 10 = n / 10 := by
      constructor
      · intro same
        rw [same] at front back
        have least := front.not.mp (List.lt_irrefl _)
        have most := back.not.mp (List.lt_irrefl _)
        omega
      · intro same
        rw [same]
    have last := digitChar_lt_iff (m % 10) (by omega) (n % 10) (by omega)
    rw [digits, digits, append_lt_append_iff (by rw [length_digits, length_digits]), front, equal,
      List.cons_lt_cons_iff, last]
    simp only [List.not_lt_nil, and_false, or_false]
    omega

/-- Numbers in fixed widths, each after a separator. -/
def spell : List (List Char × Nat) → List Nat → List Char
  | slot :: layout, n :: fields => slot.1 ++ (digits slot.2 n ++ spell layout fields)
  | [], _ => []
  | _ :: _, [] => []

theorem digits_inj (fits : m < 10 ^ width) (fits' : n < 10 ^ width)
    (same : digits width m = digits width n) : m = n := by
  have least := (digits_lt_iff fits fits').not.mp (same ▸ List.lt_irrefl _)
  have most := (digits_lt_iff fits' fits).not.mp (same ▸ List.lt_irrefl _)
  omega

/-- **Fields of fixed width** compare as their text. -/
theorem spell_lt_iff {layout : List (List Char × Nat)} {fields fields' : List Nat}
    (fit : List.Forall₂ (fun slot n => n < 10 ^ slot.2) layout fields)
    (fit' : List.Forall₂ (fun slot n => n < 10 ^ slot.2) layout fields') :
    spell layout fields < spell layout fields' ↔ fields < fields' := by
  induction fit generalizing fields' with
  | nil =>
    cases fit'
    simp [spell]
  | cons small _ ih =>
    cases fit' with
    | cons small' rest =>
      have equal {m n width : Nat} (fits : m < 10 ^ width) (fits' : n < 10 ^ width) :
          digits width m = digits width n ↔ m = n :=
        ⟨digits_inj fits fits', congrArg _⟩
      rw [spell, spell, append_lt_append_iff rfl,
        append_lt_append_iff (by rw [length_digits, length_digits]), digits_lt_iff small small',
        equal small small', ih rest, List.cons_lt_cons_iff]
      simp only [List.lt_irrefl, false_or, true_and]

end

/-! ## Dates -/

/-- `_is_leap`. -/
def IsLeap (year : Nat) : Prop := year % 4 = 0 ∧ (year % 100 ≠ 0 ∨ year % 400 = 0)

instance (year : Nat) : Decidable (IsLeap year) := inferInstanceAs (Decidable (_ ∧ _))

/-- The days before the first of January of a year, from year 1. -/
def daysBeforeYear (year : Nat) : Nat :=
  (year - 1) * 365 + (year - 1) / 4 - (year - 1) / 100 + (year - 1) / 400

def daysInMonth (year month : Nat) : Nat :=
  if month = 0 then 0
  else if month = 2 then if IsLeap year then 29 else 28
  else if month = 4 ∨ month = 6 ∨ month = 9 ∨ month = 11 then 30
  else 31

/-- The days of a year before a month. -/
def daysBeforeMonth (year : Nat) : Nat → Nat
  | 0 => 0
  | month + 1 => daysBeforeMonth year month + daysInMonth year month

variable {year year' month month' : Nat}

theorem daysBeforeMonth_mono (year : Nat) : Monotone (daysBeforeMonth year) :=
  monotone_nat_of_le_succ fun _ => Nat.le_add_right _ _

theorem succ_div_of_dvd {n k : Nat} (divides : (n + 1) % (k + 1) = 0) :
    (n + 1) / (k + 1) = n / (k + 1) + 1 := by
  rw [Nat.succ_div, if_pos (Nat.dvd_of_mod_eq_zero divides)]

theorem succ_div_of_not_dvd {n k : Nat} (rest : (n + 1) % (k + 1) ≠ 0) :
    (n + 1) / (k + 1) = n / (k + 1) := by
  rw [Nat.succ_div, if_neg fun divides => rest (Nat.mod_eq_zero_of_dvd divides), Nat.add_zero]

/-- A year has as many days as its twelve months. -/
theorem daysBeforeYear_succ (positive : 1 ≤ year) :
    daysBeforeYear (year + 1) = daysBeforeYear year + daysBeforeMonth year 13 := by
  obtain ⟨n, rfl⟩ : ∃ n, year = n + 1 := ⟨year - 1, by omega⟩
  have months : daysBeforeMonth (n + 1) 13 = 337 + daysInMonth (n + 1) 2 := by
    simp [daysBeforeMonth, daysInMonth]
    omega
  have february : daysInMonth (n + 1) 2 = if IsLeap (n + 1) then 29 else 28 := rfl
  have fewer : n / 100 ≤ n / 4 := Nat.div_le_div_left (by decide) (by decide)
  rw [months, february]
  unfold daysBeforeYear
  rw [Nat.add_sub_cancel, Nat.add_sub_cancel]
  by_cases fourth : (n + 1) % 4 = 0
  · by_cases century : (n + 1) % 100 = 0
    · by_cases fourth_century : (n + 1) % 400 = 0
      · rw [if_pos ⟨fourth, Or.inr fourth_century⟩, succ_div_of_dvd fourth,
          succ_div_of_dvd century, succ_div_of_dvd fourth_century]
        omega
      · rw [if_neg fun leap => leap.2.elim (absurd century) fourth_century,
          succ_div_of_dvd fourth, succ_div_of_dvd century, succ_div_of_not_dvd fourth_century]
        omega
    · have ordinary : (n + 1) % 400 ≠ 0 := by omega
      rw [if_pos ⟨fourth, Or.inl century⟩, succ_div_of_dvd fourth, succ_div_of_not_dvd century,
        succ_div_of_not_dvd ordinary]
      omega
  · have ordinary : (n + 1) % 100 ≠ 0 ∧ (n + 1) % 400 ≠ 0 := by omega
    rw [if_neg fun leap => fourth leap.1, succ_div_of_not_dvd fourth,
      succ_div_of_not_dvd ordinary.1, succ_div_of_not_dvd ordinary.2]
    omega

theorem daysBeforeYear_mono : Monotone daysBeforeYear := by
  apply monotone_nat_of_le_succ
  intro year
  cases year with
  | zero => exact Nat.zero_le _
  | succ year =>
    rw [daysBeforeYear_succ (Nat.le_add_left 1 year)]
    exact Nat.le_add_right _ _

/-! ## Times -/

/-- A date with a year of four digits, and a time of day. -/
def Valid (year month day hour minute second : Nat) : Prop :=
  (1000 ≤ year ∧ year ≤ 9999) ∧ (1 ≤ month ∧ month ≤ 12) ∧
    (1 ≤ day ∧ day ≤ daysInMonth year month) ∧ hour < 24 ∧ minute < 60 ∧ second < 60

instance (year month day hour minute second : Nat) :
    Decidable (Valid year month day hour minute second) :=
  inferInstanceAs (Decidable (_ ∧ _))

/-- A time. -/
structure Time where
  year : Nat
  month : Nat
  day : Nat
  hour : Nat
  minute : Nat
  second : Nat
  valid : Valid year month day hour minute second

namespace Time

variable {t t' : Time}

/-- `toordinal`: the first day of year 1 has the number 1. -/
def ordinal (t : Time) : Nat := daysBeforeYear t.year + daysBeforeMonth t.year t.month + t.day

/-- The seconds up to a time. -/
def seconds (t : Time) : Nat := ((t.ordinal * 24 + t.hour) * 60 + t.minute) * 60 + t.second

def fields (t : Time) : List Nat := [t.year, t.month, t.day, t.hour, t.minute, t.second]

/-- `%Y-%m-%d %H:%M:%S`. -/
def layout : List (List Char × Nat) :=
  [([], 4), (['-'], 2), (['-'], 2), ([' '], 2), ([':'], 2), ([':'], 2)]

/-- `strftime`. -/
def stamp (t : Time) : String := String.ofList (spell layout t.fields)

theorem fit (t : Time) : List.Forall₂ (fun slot n => n < 10 ^ slot.2) layout t.fields := by
  obtain ⟨years, months, days, hours, minutes, seconds⟩ := t.valid
  have month : daysInMonth t.year t.month ≤ 31 := by
    unfold daysInMonth
    split_ifs <;> omega
  simp only [layout, fields, List.forall₂_cons, List.Forall₂.nil, and_true]
  omega

/-- The month ends before the next begins, and the last with the year. -/
theorem ordinal_bounds (t : Time) :
    daysBeforeYear t.year + daysBeforeMonth t.year t.month < t.ordinal ∧
    t.ordinal ≤ daysBeforeYear t.year + daysBeforeMonth t.year (t.month + 1) ∧
    t.ordinal ≤ daysBeforeYear (t.year + 1) := by
  obtain ⟨years, months, days, -⟩ := t.valid
  have next : daysBeforeMonth t.year (t.month + 1) =
      daysBeforeMonth t.year t.month + daysInMonth t.year t.month := rfl
  have last : daysBeforeMonth t.year (t.month + 1) ≤ daysBeforeMonth t.year 13 :=
    daysBeforeMonth_mono t.year (by omega)
  have year := @daysBeforeYear_succ t.year (by omega)
  unfold ordinal
  omega

theorem ordinal_lt_of_year (earlier : t.year < t'.year) : t.ordinal < t'.ordinal := by
  have years : daysBeforeYear (t.year + 1) ≤ daysBeforeYear t'.year := daysBeforeYear_mono earlier
  have before := t.ordinal_bounds
  have after := t'.ordinal_bounds
  omega

theorem ordinal_lt_of_month (same : t.year = t'.year) (earlier : t.month < t'.month) :
    t.ordinal < t'.ordinal := by
  have months : daysBeforeMonth t.year (t.month + 1) ≤ daysBeforeMonth t.year t'.month :=
    daysBeforeMonth_mono t.year earlier
  have before := t.ordinal_bounds
  have after := t'.ordinal_bounds
  rw [← same] at after
  omega

/-- Later fields name later seconds. -/
theorem seconds_lt_of_fields_lt (earlier : t.fields < t'.fields) : t.seconds < t'.seconds := by
  obtain ⟨-, -, -, hours, minutes, seconds⟩ := t.valid
  simp only [fields, List.cons_lt_cons_iff, List.not_lt_nil, and_false, or_false] at earlier
  unfold Time.seconds
  rcases earlier with year | ⟨year, month | ⟨month, day | ⟨day, later⟩⟩⟩
  · have date := ordinal_lt_of_year year
    omega
  · have date := ordinal_lt_of_month year month
    omega
  · have date : t.ordinal < t'.ordinal := by
      unfold ordinal
      rw [year, month]
      omega
    omega
  · have date : t.ordinal = t'.ordinal := by
      unfold ordinal
      rw [year, month, day]
    omega

theorem fields_lt_iff : t.fields < t'.fields ↔ t.seconds < t'.seconds := by
  constructor
  · exact seconds_lt_of_fields_lt
  · intro earlier
    rcases lt_trichotomy t.fields t'.fields with less | same | more
    · exact less
    · simp only [fields, List.cons.injEq] at same
      obtain ⟨year, month, day, hour, minute, second, -⟩ := same
      unfold Time.seconds ordinal at earlier
      rw [year, month, day, hour, minute, second] at earlier
      exact absurd earlier (Nat.lt_irrefl _)
    · exact absurd (seconds_lt_of_fields_lt more) (Nat.lt_asymm earlier)

/-- **Texts of times** compare as the seconds they name. -/
theorem stamp_lt_iff : t.stamp < t'.stamp ↔ t.seconds < t'.seconds := by
  unfold stamp
  rw [String.lt_iff_toList_lt, String.toList_ofList, String.toList_ofList,
    spell_lt_iff t.fit t'.fit, fields_lt_iff]

theorem stamp_inj : t.stamp = t'.stamp ↔ t.seconds = t'.seconds := by
  constructor
  · intro same
    have least : ¬ t.seconds < t'.seconds := stamp_lt_iff.not.mp same.not_lt
    have most : ¬ t'.seconds < t.seconds := stamp_lt_iff.not.mp same.not_gt
    omega
  · intro same
    have least : ¬ t.stamp < t'.stamp := stamp_lt_iff.not.mpr (by omega)
    have most : ¬ t'.stamp < t.stamp := stamp_lt_iff.not.mpr (by omega)
    exact le_antisymm (not_lt.mp most) (not_lt.mp least)

/-! ## Naming seconds -/

/-- The year that a day is in. -/
def yearOf (ordinal : Nat) : Nat :=
  Nat.findGreatest (fun year => daysBeforeYear year < ordinal) 9999

/-- The month that a day of a year is in. -/
def monthOf (year days : Nat) : Nat :=
  Nat.findGreatest (fun month => daysBeforeMonth year month < days) 12

/-- The time that seconds name, in the years of four digits. -/
def ofSeconds (n : Nat) : Option Time :=
  let ordinal := n / 86400
  let year := yearOf ordinal
  let month := monthOf year (ordinal - daysBeforeYear year)
  let day := ordinal - daysBeforeYear year - daysBeforeMonth year month
  if valid : Valid year month day (n / 3600 % 24) (n / 60 % 60) (n % 60) then
    some ⟨year, month, day, n / 3600 % 24, n / 60 % 60, n % 60, valid⟩
  else none

theorem seconds_of_ofSeconds {n : Nat} (found : ofSeconds n = some t) : t.seconds = n := by
  unfold ofSeconds at found
  dsimp only at found
  rw [Option.dite_none_right_eq_some] at found
  obtain ⟨valid, same⟩ := found
  have days := valid.2.2.1
  rw [← Option.some.inj same]
  unfold seconds ordinal
  dsimp only
  omega

theorem yearOf_ordinal (t : Time) : yearOf t.ordinal = t.year := by
  obtain ⟨years, -⟩ := t.valid
  have bounds := t.ordinal_bounds
  apply Nat.findGreatest_eq_iff.mpr ⟨years.2, fun _ => by omega, ?_⟩
  intro year later _
  have after : daysBeforeYear (t.year + 1) ≤ daysBeforeYear year := daysBeforeYear_mono later
  omega

theorem monthOf_ordinal (t : Time) :
    monthOf t.year (t.ordinal - daysBeforeYear t.year) = t.month := by
  obtain ⟨-, months, -⟩ := t.valid
  have bounds := t.ordinal_bounds
  apply Nat.findGreatest_eq_iff.mpr ⟨months.2, fun _ => by omega, ?_⟩
  intro month later _
  have after : daysBeforeMonth t.year (t.month + 1) ≤ daysBeforeMonth t.year month :=
    daysBeforeMonth_mono t.year later
  omega

theorem ofSeconds_seconds (t : Time) : ofSeconds t.seconds = some t := by
  have valid := t.valid
  obtain ⟨-, -, -, hours, minutes, seconds⟩ := t.valid
  have date : t.seconds / 86400 = t.ordinal := by
    unfold Time.seconds
    omega
  have hour : t.seconds / 3600 % 24 = t.hour := by
    unfold Time.seconds
    omega
  have minute : t.seconds / 60 % 60 = t.minute := by
    unfold Time.seconds
    omega
  have second : t.seconds % 60 = t.second := by
    unfold Time.seconds
    omega
  have day : t.ordinal - daysBeforeYear t.year - daysBeforeMonth t.year t.month = t.day := by
    unfold ordinal
    omega
  unfold ofSeconds
  simp only [date, hour, minute, second, yearOf_ordinal, monthOf_ordinal, day, valid, dite_true]

end Time

end Calendar
