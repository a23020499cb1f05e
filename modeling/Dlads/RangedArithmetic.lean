import Mathlib.Algebra.Order.Ring.Int
import Mathlib.Data.Finset.Card
import Mathlib.Tactic.Ring

/-!
# Arithmetic in a fixed range

An operation on signed integers gives its result if the result is in range;
otherwise it has none, or it wraps around where it is asked for. An amount that
is scaled before it is subtracted has two chances to leave the range. A counter
stays in range as long as it counts few enough things.
-/

namespace Dlads.RangedArithmetic

/-- The range of signed integers with `w` bits beside the sign. -/
def Fits (w : ℕ) (n : ℤ) : Prop := -2 ^ w ≤ n ∧ n < 2 ^ w

instance (w : ℕ) (n : ℤ) : Decidable (Fits w n) :=
  inferInstanceAs (Decidable (-2 ^ w ≤ n ∧ n < 2 ^ w))

/-- A result that has to be in range. -/
def checked (w : ℕ) (n : ℤ) : Option ℤ := if Fits w n then some n else none

/-- A result wrapped around. -/
def wrap (w : ℕ) (n : ℤ) : ℤ := n.bmod (2 ^ (w + 1))

/-- Subtract an amount of larger units. -/
def subScaled (w : ℕ) (unit t n : ℤ) : Option ℤ := do
  let d ← checked w (n * unit)
  checked w (t - d)

/-- Add an amount of larger units. -/
def addScaled (w : ℕ) (unit t n : ℤ) : Option ℤ := do
  let d ← checked w (n * unit)
  checked w (t + d)

/-- Subtract an amount of larger units, wrapping around. -/
def wrapSubScaled (w : ℕ) (unit t n : ℤ) : ℤ := wrap w (t - wrap w (n * unit))

section results

variable {w : ℕ} {unit t n m : ℤ}

theorem checked_of_fits (h : Fits w n) : checked w n = some n := if_pos h

theorem checked_eq_some_iff : checked w n = some m ↔ Fits w n ∧ n = m := by
  unfold checked
  split
  · next h => simp [h]
  · next h => simp [h]

theorem subScaled_eq_some_iff : subScaled w unit t n = some m ↔
    (Fits w (n * unit) ∧ Fits w (t - n * unit)) ∧ t - n * unit = m := by
  simp only [subScaled, Option.bind_eq_bind, Option.bind_eq_some_iff, checked_eq_some_iff]
  constructor
  · rintro ⟨d, ⟨hscaled, rfl⟩, hfits, rfl⟩
    exact ⟨⟨hscaled, hfits⟩, rfl⟩
  · rintro ⟨⟨hscaled, hfits⟩, rfl⟩
    exact ⟨_, ⟨hscaled, rfl⟩, hfits, rfl⟩

theorem addScaled_eq_some_iff : addScaled w unit t n = some m ↔
    (Fits w (n * unit) ∧ Fits w (t + n * unit)) ∧ t + n * unit = m := by
  simp only [addScaled, Option.bind_eq_bind, Option.bind_eq_some_iff, checked_eq_some_iff]
  constructor
  · rintro ⟨d, ⟨hscaled, rfl⟩, hfits, rfl⟩
    exact ⟨⟨hscaled, hfits⟩, rfl⟩
  · rintro ⟨⟨hscaled, hfits⟩, rfl⟩
    exact ⟨_, ⟨hscaled, rfl⟩, hfits, rfl⟩

/-- A subtraction that leaves the range has no result. -/
theorem subScaled_eq_none (h : ¬(Fits w (n * unit) ∧ Fits w (t - n * unit))) :
    subScaled w unit t n = none := by
  cases hsub : subScaled w unit t n with
  | none => rfl
  | some m => exact absurd (subScaled_eq_some_iff.mp hsub).1 h

/-- Nothing wraps around within the range. -/
theorem wrap_of_fits (h : Fits w n) : wrap w n = n := by
  obtain ⟨hlow, hhigh⟩ := h
  have hsize : ((2 ^ (w + 1) : ℕ) : ℤ) = 2 * 2 ^ w := by
    push_cast
    ring
  unfold wrap
  refine Int.bmod_eq_of_le ?_ ?_
  · rw [hsize]
    omega
  · rw [hsize]
    omega

theorem wrapSubScaled_of_fits (hscaled : Fits w (n * unit)) (h : Fits w (t - n * unit)) :
    wrapSubScaled w unit t n = t - n * unit := by
  rw [wrapSubScaled, wrap_of_fits hscaled, wrap_of_fits h]

end results

section counting

variable {α β : Type*} {w : ℕ}

/-- A counter in range counts like one without bounds. -/
theorem foldlM_count (p : α → Bool) (xs : List α) {start : ℤ} (hstart : 0 ≤ start)
    (h : start + xs.length < 2 ^ w) :
    xs.foldlM (fun count x => if p x then checked w (count + 1) else some count) start =
      some (xs.foldl (fun count x => if p x then count + 1 else count) start) := by
  induction xs generalizing start with
  | nil => rfl
  | cons x xs ih =>
    rw [List.length_cons] at h
    push_cast at h
    rw [List.foldlM_cons, List.foldl_cons]
    by_cases hp : p x = true
    · have hfits : Fits w (start + 1) := by
        unfold Fits
        omega
      rw [if_pos hp, if_pos hp, checked_of_fits hfits]
      exact ih (by omega) (by omega)
    · rw [if_neg hp, if_neg hp]
      exact ih hstart (by omega)

/-- A counter grows by one at most for each thing it meets. -/
theorem foldl_count_bounds (p : α → Bool) (xs : List α) (start : ℤ) :
    start ≤ xs.foldl (fun count x => if p x then count + 1 else count) start ∧
      xs.foldl (fun count x => if p x then count + 1 else count) start ≤ start + xs.length := by
  induction xs generalizing start with
  | nil => simp
  | cons x xs ih =>
    rw [List.foldl_cons, List.length_cons]
    push_cast
    by_cases hp : p x = true
    · have hrest := ih (start + 1)
      rw [if_pos hp]
      omega
    · have hrest := ih start
      rw [if_neg hp]
      omega

/-- So does a set. -/
theorem card_foldl_le {f : Finset β → α → Finset β} (hf : ∀ s x, (f s x).card ≤ s.card + 1)
    (xs : List α) (s : Finset β) : (xs.foldl f s).card ≤ s.card + xs.length := by
  induction xs generalizing s with
  | nil => exact le_refl _
  | cons x xs ih =>
    have hstep := hf s x
    have hrest := ih (f s x)
    rw [List.foldl_cons, List.length_cons]
    omega

end counting

end Dlads.RangedArithmetic
