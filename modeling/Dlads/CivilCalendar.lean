import Mathlib.Algebra.BigOperators.Group.List.Basic
import Mathlib.Algebra.Order.Ring.Int
import Mathlib.Tactic.Common

/-!
# The Gregorian calendar

Days are counted from the first of January 1970 and extend in both directions.
A year starts where its predecessor ends, so every day lies in exactly one
year, and within the year the months are laid end to end. The date of a day
is read back to the day it was taken from, and the same date a year later lies
365 or 366 days ahead.
-/

namespace Dlads.CivilCalendar

/-- A leap year. -/
def isLeap (y : ℤ) : Bool := y % 4 = 0 ∧ (y % 100 ≠ 0 ∨ y % 400 = 0)

/-- The days of a year. -/
def yearLength (y : ℤ) : ℤ := if isLeap y then 366 else 365

/-- The day on which a year starts. -/
def yearStart (y : ℤ) : ℤ := 365 * y + (y - 1) / 4 - (y - 1) / 100 + (y - 1) / 400 - 719527

/-- A year within one of the year of a day: 400 years have 146097 days. -/
def nearbyYear (d : ℤ) : ℤ := (400 * (d + 719162)) / 146097 + 1

/-- The year of a day. -/
def yearOf (d : ℤ) : ℤ :=
  if d < yearStart (nearbyYear d) then nearbyYear d - 1
  else if d < yearStart (nearbyYear d + 1) then nearbyYear d
  else nearbyYear d + 1

/-- The days of the months. -/
def monthLengths (leap : Bool) : List ℕ :=
  [31, if leap then 29 else 28, 31, 30, 31, 30, 31, 31, 30, 31, 30, 31]

/-- The day of the year, counted from zero, on which a month starts. -/
def monthStart (leap : Bool) (month : ℕ) : ℕ := ((monthLengths leap).take month).sum

/-- A position in blocks laid end to end, as the block and the position in it. -/
def splitAtBlock : List ℕ → ℕ → ℕ × ℕ
  | [], n => (0, n)
  | len :: blocks, n =>
    if n < len then (0, n)
    else ((splitAtBlock blocks (n - len)).1 + 1, (splitAtBlock blocks (n - len)).2)

/-- A date, with months counted from zero. -/
structure Date where
  /-- Year. -/
  year : ℤ
  /-- Months since January. -/
  month : ℕ
  /-- Day of the month. -/
  day : ℕ
  /-- Months count to 11. -/
  month_lt : month < 12
  /-- Days count from 1 to 31. -/
  day_range : 1 ≤ day ∧ day ≤ 31

/-- The day of a date; a day of the month beyond the month's end is carried on. -/
def dayNumber (year : ℤ) (month : ℕ) (day : ℤ) : ℤ :=
  yearStart year + monthStart (isLeap year) month + (day - 1)

section years

theorem yearStart_succ (y : ℤ) : yearStart (y + 1) = yearStart y + yearLength y := by
  have hleap : isLeap y = true ↔ y % 4 = 0 ∧ (y % 100 ≠ 0 ∨ y % 400 = 0) := decide_eq_true_iff
  unfold yearStart yearLength
  split
  · next h =>
    rw [hleap] at h
    omega
  · next h =>
    rw [hleap] at h
    omega

theorem yearLength_bounds (y : ℤ) : 365 ≤ yearLength y ∧ yearLength y ≤ 366 := by
  unfold yearLength
  split
  · omega
  · omega

/-- Later years start later, by at least 365 days a year. -/
theorem yearStart_add_le (y : ℤ) (n : ℕ) : yearStart y + 365 * n ≤ yearStart (y + n) := by
  induction n with
  | zero => simp
  | succ n ih =>
    have hstep := yearStart_succ (y + n)
    have hlength := (yearLength_bounds (y + n)).1
    rw [Nat.cast_succ, ← add_assoc]
    omega

/-- The nearby year is at most one off. -/
theorem nearbyYear_bounds (d : ℤ) :
    yearStart (nearbyYear d - 1) ≤ d ∧ d < yearStart (nearbyYear d + 2) := by
  unfold yearStart nearbyYear
  omega

/-- A day lies in its year. -/
theorem mem_yearOf (d : ℤ) : yearStart (yearOf d) ≤ d ∧ d < yearStart (yearOf d + 1) := by
  obtain ⟨hlow, hhigh⟩ := nearbyYear_bounds d
  unfold yearOf
  split
  · next h => exact ⟨hlow, by rwa [sub_add_cancel]⟩
  · next h =>
    split
    · next h' => exact ⟨not_lt.mp h, h'⟩
    · next h' => exact ⟨not_lt.mp h', by rwa [add_assoc]⟩

end years

section months

/-- The block and the position in it add up to the position. -/
theorem splitAtBlock_spec (blocks : List ℕ) {n : ℕ} (hn : n < blocks.sum) :
    (blocks.take (splitAtBlock blocks n).1).sum + (splitAtBlock blocks n).2 = n ∧
      ∃ len ∈ blocks, (splitAtBlock blocks n).2 < len ∧
        (splitAtBlock blocks n).1 < blocks.length := by
  induction blocks generalizing n with
  | nil => exact absurd hn (Nat.not_lt_zero n)
  | cons len blocks ih =>
    rw [splitAtBlock]
    split
    · next h => exact ⟨by simp, len, List.mem_cons_self, h, Nat.succ_pos _⟩
    · next h =>
      rw [List.sum_cons] at hn
      obtain ⟨hsum, len', hmem, hlt, hindex⟩ := ih (n := n - len) (by omega)
      refine ⟨?_, len', List.mem_cons_of_mem len hmem, hlt, Nat.succ_lt_succ hindex⟩
      rw [List.take_succ_cons, List.sum_cons]
      omega

/-- The months of a year add up to its days. -/
theorem sum_monthLengths (y : ℤ) : ((monthLengths (isLeap y)).sum : ℤ) = yearLength y := by
  unfold yearLength
  cases isLeap y with
  | true => rfl
  | false => rfl

/-- A leap day moves the months after February by a day. -/
theorem monthStart_leap {month : ℕ} (hm : month < 12) :
    monthStart true month = monthStart false month + if 2 ≤ month then 1 else 0 := by
  have hall : ∀ m < 12, monthStart true m = monthStart false m + if 2 ≤ m then 1 else 0 := by
    decide
  exact hall month hm

/-- Of two years in a row at most one is a leap year. -/
theorem not_isLeap_succ {y : ℤ} (h : isLeap y = true) : isLeap (y + 1) = false := by
  have hleap : ∀ z : ℤ, isLeap z = true ↔ z % 4 = 0 ∧ (z % 100 ≠ 0 ∨ z % 400 = 0) := fun _ =>
    decide_eq_true_iff
  rw [hleap] at h
  rw [Bool.eq_false_iff, Ne, hleap]
  omega

/-- The same date a year later lies 365 or 366 days ahead. -/
theorem dayNumber_succ (y : ℤ) {month : ℕ} (hm : month < 12) (day : ℤ) :
    dayNumber y month day + 365 ≤ dayNumber (y + 1) month day ∧
      dayNumber (y + 1) month day ≤ dayNumber y month day + 366 := by
  have hshift := monthStart_leap hm
  unfold dayNumber
  rw [yearStart_succ, yearLength]
  cases hy : isLeap y with
  | true =>
    rw [not_isLeap_succ hy, if_pos rfl, hshift]
    split
    · omega
    · omega
  | false =>
    rw [if_neg Bool.false_ne_true]
    cases isLeap (y + 1) with
    | false => omega
    | true =>
      rw [hshift]
      split
      · omega
      · omega

end months

section dates

/-- Month and day, counted from zero, of a day in its year. -/
def monthAndDay (d : ℤ) : ℕ × ℕ :=
  splitAtBlock (monthLengths (isLeap (yearOf d))) (d - yearStart (yearOf d)).toNat

/-- The months before a day and the days in its month add up to the day. -/
theorem monthAndDay_spec (d : ℤ) :
    yearStart (yearOf d) + monthStart (isLeap (yearOf d)) (monthAndDay d).1 + (monthAndDay d).2 =
        d ∧
      (monthAndDay d).1 < 12 ∧ (monthAndDay d).2 < 31 := by
  obtain ⟨hlow, hhigh⟩ := mem_yearOf d
  rw [yearStart_succ, ← sum_monthLengths] at hhigh
  obtain ⟨hsum, len, hmem, hlt, hindex⟩ := splitAtBlock_spec (monthLengths (isLeap (yearOf d)))
    (n := (d - yearStart (yearOf d)).toNat) (by omega)
  have hlen : len ≤ 31 := by
    have hall : ∀ leap, ∀ len ∈ monthLengths leap, len ≤ 31 := by decide
    exact hall _ len hmem
  refine ⟨?_, hindex, by unfold monthAndDay; omega⟩
  unfold monthStart monthAndDay
  omega

/-- The date of a day. -/
def dateOf (d : ℤ) : Date where
  year := yearOf d
  month := (monthAndDay d).1
  day := (monthAndDay d).2 + 1
  month_lt := (monthAndDay_spec d).2.1
  day_range := by
    have hday := (monthAndDay_spec d).2.2
    omega

/-- The date of a day is that day's. -/
theorem dayNumber_dateOf (d : ℤ) :
    dayNumber (dateOf d).year (dateOf d).month (dateOf d).day = d := by
  have hspec := (monthAndDay_spec d).1
  unfold dayNumber dateOf
  push_cast
  omega

end dates

end Dlads.CivilCalendar
