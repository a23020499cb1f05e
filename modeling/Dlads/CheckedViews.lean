import Mathlib.Data.List.DropRight
import Mathlib.Data.List.TakeWhile
import Mathlib.Tactic.Common

/-!
# Checked access to views

A computation on views of a text that faults where the compiled one would
leave the view: at an access beyond the end, at a part that starts beyond the
end, at an unsigned difference below zero, and when a loop is not over after
the iterations it is granted. A loop is run by an equation: each iteration
ends it with the value it is meant to have, or leaves this value and makes a
measure smaller. Positions in a view are related to what stands behind them.
-/

namespace Dlads.CheckedViews

/-- What can go wrong. -/
inductive Fault
  /-- An access at a position beyond the end. -/
  | access
  /-- A part that starts beyond the end. -/
  | outOfRange
  /-- An unsigned difference below zero. -/
  | wrapped
  /-- A loop that is not over. -/
  | unfinished
  deriving DecidableEq

/-- A value or a fault. -/
abbrev Checked (α : Type) := Except Fault α

/-- How an iteration of a loop ends. -/
inductive Pass (σ ρ : Type)
  /-- The loop goes on in a state. -/
  | goOn (state : σ)
  /-- The loop is left with a result. -/
  | leave (result : ρ)

variable {α σ ρ : Type}

/-- `s[i]`. -/
def access (s : List α) (i : ℕ) : Checked α :=
  match s[i]? with
  | some c => .ok c
  | none => .error .access

/-- `s.substr(pos)`. -/
def substrFrom (s : List α) (pos : ℕ) : Checked (List α) :=
  if pos ≤ s.length then .ok (s.drop pos) else .error .outOfRange

/-- `s.substr(pos, count)`. -/
def substr (s : List α) (pos count : ℕ) : Checked (List α) :=
  if pos ≤ s.length then .ok ((s.drop pos).take count) else .error .outOfRange

/-- `a - b` on unsigned numbers. -/
def minus (a b : ℕ) : Checked ℕ := if b ≤ a then .ok (a - b) else .error .wrapped

/-- A loop for a number of iterations. -/
def loop (body : σ → Checked (Pass σ ρ)) : ℕ → σ → Checked ρ
  | 0, _ => .error .unfinished
  | fuel + 1, s => do
    match ← body s with
    | .goOn next => loop body fuel next
    | .leave result => pure result

/-- An iteration of `while (i < s.size() && p(s[i])) ++i;`. -/
def skipPass (p : α → Bool) (s : List α) (i : ℕ) : Checked (Pass ℕ ℕ) := do
  if i < s.length then
    if p (← access s i) then pure (.goOn (i + 1)) else pure (.leave i)
  else pure (.leave i)

/-- `while (i < s.size() && p(s[i])) ++i;`, with one iteration for each element
and one to end. -/
def skipWhile (p : α → Bool) (s : List α) (start : ℕ) : Checked ℕ :=
  loop (skipPass p s) (s.length + 1) start

section rules

@[simp] theorem ok_bind (a : σ) (f : σ → Checked ρ) : (Except.ok a >>= f) = f a := rfl

@[simp] theorem pure_eq (a : σ) : (pure a : Checked σ) = .ok a := rfl

/-- The first element behind a position is the one at the position. -/
theorem access_of_drop {s rest : List α} {i : ℕ} {c : α} (h : s.drop i = c :: rest) :
    access s i = .ok c := by
  have hget : s[i]? = some c := by rw [← List.head?_drop, h, List.head?_cons]
  rw [access, hget]

/-- What stands behind the next position. -/
theorem drop_next {s rest : List α} {i : ℕ} {c : α} (h : s.drop i = c :: rest) :
    s.drop (i + 1) = rest := by
  rw [← List.tail_drop, h, List.tail_cons]

/-- A position with an element at it is no end. -/
theorem lt_length_of_drop {s rest : List α} {i : ℕ} {c : α} (h : s.drop i = c :: rest) :
    i < s.length := by
  by_contra hend
  rw [List.drop_eq_nil_of_le (not_lt.mp hend)] at h
  cases h

theorem access_eq {s : List α} {i : ℕ} {c : α} (h : s[i]? = some c) : access s i = .ok c := by
  rw [access, h]

theorem substrFrom_eq {s : List α} {pos : ℕ} (h : pos ≤ s.length) :
    substrFrom s pos = .ok (s.drop pos) := if_pos h

theorem substr_eq {s : List α} {pos : ℕ} (h : pos ≤ s.length) (count : ℕ) :
    substr s pos count = .ok ((s.drop pos).take count) := if_pos h

theorem minus_eq {a b : ℕ} (h : b ≤ a) : minus a b = .ok (a - b) := if_pos h

/-- A loop whose iterations keep the value it is meant to have, and make a
measure smaller as long as they go on, ends with this value. -/
theorem loop_eq {body : σ → Checked (Pass σ ρ)} (measure : σ → ℕ) (Inv : σ → Prop) (value : σ → ρ)
    (hstep : ∀ s, Inv s → body s = .ok (.leave (value s)) ∨
      ∃ next, body s = .ok (.goOn next) ∧ measure next < measure s ∧ Inv next ∧
        value next = value s)
    {fuel : ℕ} {s : σ} (hs : Inv s) (hfuel : measure s < fuel) :
    loop body fuel s = .ok (value s) := by
  induction fuel generalizing s with
  | zero => omega
  | succ fuel ih =>
    rw [loop]
    rcases hstep s hs with hend | ⟨next, hnext, hless, hinv, hvalue⟩
    · rw [hend]
      rfl
    · rw [hnext, ← hvalue]
      exact ih hinv (by omega)

/-- Position behind the elements that a loop skips from a position on. -/
def behindRun (p : α → Bool) (s : List α) (i : ℕ) : ℕ := i + ((s.drop i).takeWhile p).length

/-- What stands behind the skipped elements. -/
theorem drop_behindRun (p : α → Bool) (s : List α) (i : ℕ) :
    s.drop (behindRun p s i) = (s.drop i).dropWhile p := by
  have hsplit := List.takeWhile_append_dropWhile (p := p) (l := s.drop i)
  calc s.drop (behindRun p s i) = (s.drop i).drop ((s.drop i).takeWhile p).length := by
        rw [behindRun, List.drop_drop]
    _ = ((s.drop i).takeWhile p ++ (s.drop i).dropWhile p).drop
          ((s.drop i).takeWhile p).length := by rw [hsplit]
    _ = (s.drop i).dropWhile p := List.drop_left

theorem behindRun_le (p : α → Bool) {s : List α} {i : ℕ} (h : i ≤ s.length) :
    behindRun p s i ≤ s.length := by
  have hle := (List.takeWhile_prefix p (l := s.drop i)).length_le
  rw [List.length_drop] at hle
  unfold behindRun
  omega

/-- The part of a view that a loop skips. -/
theorem substr_behindRun (p : α → Bool) {s : List α} {i : ℕ} (h : i ≤ s.length) :
    ∃ count, minus (behindRun p s i) i = .ok count ∧
      substr s i count = .ok ((s.drop i).takeWhile p) := by
  have hcount : behindRun p s i - i = ((s.drop i).takeWhile p).length := Nat.add_sub_cancel_left i _
  refine ⟨behindRun p s i - i, minus_eq (Nat.le_add_right i _), ?_⟩
  rw [substr_eq h, hcount]
  exact congrArg _ (List.prefix_iff_eq_take.mp (List.takeWhile_prefix p)).symm

/-- The loop ends behind the elements it skips. -/
theorem skipWhile_eq (p : α → Bool) {s : List α} {start : ℕ} (h : start ≤ s.length) :
    skipWhile p s start = .ok (behindRun p s start) := by
  refine loop_eq (fun i => s.length - i) (fun i => i ≤ s.length) (behindRun p s) ?_ h (by omega)
  intro i hi
  unfold skipPass behindRun
  cases hrest : s.drop i with
  | nil =>
    have hend : ¬i < s.length := not_lt.mpr (List.drop_eq_nil_iff.mp hrest)
    left
    rw [if_neg hend]
    rfl
  | cons c rest =>
    have hlt := lt_length_of_drop hrest
    rw [if_pos hlt, access_of_drop hrest, ok_bind]
    cases hp : p c with
    | false =>
      left
      rw [if_neg (by decide), List.takeWhile_cons_of_neg (by simp [hp])]
      rfl
    | true =>
      refine .inr ⟨i + 1, rfl, by omega, by omega, ?_⟩
      rw [drop_next hrest, List.takeWhile_cons_of_pos hp, List.length_cons]
      omega

end rules

end Dlads.CheckedViews
