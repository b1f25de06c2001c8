-- The proleptic Gregorian calendar over all years: its dates, the date after
-- each, and the count of days, which the next date raises by exactly one.
import Mathlib

namespace gregorian

/-- A leap year. -/
def IsLeap (year : ℤ) : Prop := year % 4 = 0 ∧ (year % 100 ≠ 0 ∨ year % 400 = 0)

instance (year : ℤ) : Decidable (IsLeap year) := inferInstanceAs (Decidable (_ ∧ _))

/-- The days of a month. -/
def monthLength (year : ℤ) (month : ℕ) : ℕ :=
  if month = 2 then if IsLeap year then 29 else 28
  else if month = 4 ∨ month = 6 ∨ month = 9 ∨ month = 11 then 30
  else 31

/-- A date that exists. -/
@[ext] structure Date where
  year : ℤ
  month : ℕ
  day : ℕ
  month_le : 1 ≤ month ∧ month ≤ 12
  day_le : 1 ≤ day ∧ day ≤ monthLength year month

theorem monthLength_pos (year : ℤ) (month : ℕ) : 1 ≤ monthLength year month := by
  unfold monthLength
  split
  · split <;> omega
  · split <;> omega

namespace Date

/-- The date after this one. -/
def next (d : Date) : Date :=
  if hd : d.day < monthLength d.year d.month then
    { d with day := d.day + 1, day_le := ⟨by omega, hd⟩ }
  else if hm : d.month < 12 then
    { year := d.year, month := d.month + 1, day := 1, month_le := ⟨by omega, hm⟩,
      day_le := ⟨le_rfl, monthLength_pos _ _⟩ }
  else
    { year := d.year + 1, month := 1, day := 1, month_le := by omega,
      day_le := ⟨le_rfl, monthLength_pos _ _⟩ }

/-- Dates are ordered by year, month and day. -/
def Before (d e : Date) : Prop :=
  d.year < e.year ∨ d.year = e.year ∧ (d.month < e.month ∨ d.month = e.month ∧ d.day < e.day)

theorem before_trichotomy (d e : Date) : d.Before e ∨ d = e ∨ e.Before d := by
  unfold Before
  rw [Date.ext_iff]
  omega

/-! ## The count of days -/

/-- The days from 1970-01-01 to the first day of the year. -/
def yearStart (year : ℤ) : ℤ :=
  365 * (year - 1) + (year - 1) / 4 - (year - 1) / 100 + (year - 1) / 400 - 719162

/-- The days of the year that are before the month. -/
def monthStart (year : ℤ) (month : ℕ) : ℤ :=
  ((List.range month).map fun m => if m = 0 then 0 else (monthLength year m : ℤ)).sum

/-- The days from 1970-01-01 to the date. -/
def number (d : Date) : ℤ := yearStart d.year + monthStart d.year d.month + (d.day - 1)

theorem yearStart_succ (year : ℤ) :
    yearStart (year + 1) = yearStart year + if IsLeap year then 366 else 365 := by
  by_cases h : IsLeap year
  · rw [if_pos h]
    unfold IsLeap at h
    unfold yearStart
    omega
  · rw [if_neg h]
    unfold IsLeap at h
    unfold yearStart
    omega

theorem monthStart_succ {year : ℤ} {month : ℕ} (h : 1 ≤ month) :
    monthStart year (month + 1) = monthStart year month + monthLength year month := by
  unfold monthStart
  rw [List.range_succ, List.map_append, List.sum_append]
  simp [show month ≠ 0 by omega]

theorem monthStart_one (year : ℤ) : monthStart year 1 = 0 := rfl

theorem monthStart_year (year : ℤ) :
    monthStart year 13 = if IsLeap year then 366 else 365 := by
  unfold monthStart
  simp only [List.range_succ, List.range_zero, List.map_append, List.map_cons, List.map_nil,
    List.sum_append, List.sum_cons, List.sum_nil, monthLength]
  by_cases h : IsLeap year
  · simp [h]
  · simp [h]

theorem monthStart_mono {year : ℤ} {m n : ℕ} (h1 : 1 ≤ m) (hmn : m < n) :
    monthStart year m + monthLength year m ≤ monthStart year n := by
  induction n, hmn using Nat.le_induction with
  | base => rw [Nat.succ_eq_add_one, monthStart_succ h1]
  | succ n hn ih =>
    rw [monthStart_succ (by omega)]
    omega

/-- The next date is the next day. -/
theorem number_next (d : Date) : d.next.number = d.number + 1 := by
  obtain ⟨year, month, day, hm, hd⟩ := d
  unfold next number
  dsimp only
  split
  · push_cast
    ring
  · have hlast : day = monthLength year month := by omega
    split
    · dsimp only
      rw [monthStart_succ hm.1, hlast]
      push_cast
      ring
    · have hmonth : month = 12 := by omega
      have hyear := @monthStart_succ year 12 (by omega)
      rw [monthStart_year] at hyear
      dsimp only
      rw [yearStart_succ, monthStart_one, hlast, hmonth]
      push_cast
      linarith

theorem number_lt_yearStart (d : Date) : d.number < yearStart (d.year + 1) := by
  have hle := @monthStart_mono d.year _ _ d.month_le.1 (show d.month < 13 by
    have := d.month_le.2; omega)
  rw [monthStart_year] at hle
  rw [yearStart_succ, number]
  have := d.day_le.2
  omega

theorem yearStart_le_number (d : Date) : yearStart d.year ≤ d.number := by
  have hnonneg : 0 ≤ monthStart d.year d.month := by
    rcases Nat.eq_or_lt_of_le d.month_le.1 with h | h
    · rw [← h, monthStart_one]
    · have := @monthStart_mono d.year _ _ le_rfl h
      rw [monthStart_one] at this
      omega
  have := d.day_le.1
  unfold number
  omega

theorem yearStart_mono {y z : ℤ} (h : y ≤ z) : yearStart y ≤ yearStart z := by
  unfold yearStart
  omega

/-- The count keeps the order of the dates. -/
theorem number_lt_of_before {d e : Date} (h : d.Before e) : d.number < e.number := by
  rcases h with hy | ⟨hy, hm | ⟨hm, hd⟩⟩
  · calc d.number < yearStart (d.year + 1) := number_lt_yearStart d
      _ ≤ yearStart e.year := yearStart_mono hy
      _ ≤ e.number := yearStart_le_number e
  · have := @monthStart_mono d.year _ _ d.month_le.1 hm
    have := d.day_le.2
    have := e.day_le.1
    unfold number
    rw [← hy]
    omega
  · unfold number
    rw [hy, hm]
    omega

theorem number_lt_iff {d e : Date} : d.number < e.number ↔ d.Before e := by
  constructor
  · intro h
    rcases before_trichotomy d e with hb | rfl | hb
    · exact hb
    · exact absurd h (lt_irrefl _)
    · exact absurd (number_lt_of_before hb) (by omega)
  · exact number_lt_of_before

/-- No two dates are one day. -/
theorem number_injective : Function.Injective number := by
  intro d e h
  rcases before_trichotomy d e with hb | heq | hb
  · exact absurd (number_lt_of_before hb) (by omega)
  · exact heq
  · exact absurd (number_lt_of_before hb) (by omega)

/-- Every date is the next one of some date. -/
theorem next_surjective : Function.Surjective next := by
  intro d
  obtain ⟨year, month, day, hm, hd⟩ := d
  by_cases hfirst : day = 1
  · subst hfirst
    by_cases hjan : month = 1
    · subst hjan
      refine ⟨⟨year - 1, 12, 31, by omega, by simp [monthLength]⟩, ?_⟩
      simp [next, monthLength]
    · refine ⟨⟨year, month - 1, monthLength year (month - 1), by omega,
        monthLength_pos _ _, le_rfl⟩, ?_⟩
      unfold next
      rw [dif_neg (by simp), dif_pos (by simp only; omega)]
      ext
      · rfl
      · simp only
        omega
      · rfl
  · refine ⟨⟨year, month, day - 1, hm, by omega, by omega⟩, ?_⟩
    unfold next
    rw [dif_pos (by simp only; omega)]
    ext
    · rfl
    · rfl
    · simp only
      omega

end Date

end gregorian
