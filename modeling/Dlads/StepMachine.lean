import Mathlib.Data.Nat.Init
import Mathlib.Tactic.Common

/-!
# Deterministic step machines over unbounded input

A machine consumes one input at each step and produces one output. A run is
driven by an unbounded input sequence; every finite run is one of its
prefixes. Invariants are proved once per step and carried to every state of
every run, possibly under a condition that each step of the run has to meet.
-/

namespace Dlads.StepMachine

/-- One step: the next state and what the step returns. -/
structure Machine (σ ι ο : Type*) where
  /-- The transition function. -/
  step : σ → ι → σ × ο

variable {σ ι ο : Type*} (m : Machine σ ι ο) (start : σ) (input : ℕ → ι)

/-- State before step `n`. -/
def Machine.stateAt : ℕ → σ
  | 0 => start
  | n + 1 => (m.step (stateAt n) (input n)).1

/-- What step `n` returns. -/
def Machine.outputAt (n : ℕ) : ο := (m.step (m.stateAt start input n) (input n)).2

/-- Every step before `n` meets a condition on the state before it and on
its input. -/
def Machine.Along (C : σ → ι → Prop) (n : ℕ) : Prop :=
  ∀ k < n, C (m.stateAt start input k) (input k)

theorem Machine.stateAt_succ (n : ℕ) :
    m.stateAt start input (n + 1) = (m.step (m.stateAt start input n) (input n)).1 := rfl

theorem Machine.Along.mono {C : σ → ι → Prop} {k n : ℕ} (h : m.Along start input C n)
    (hk : k ≤ n) : m.Along start input C k :=
  fun j hj => h j (Nat.lt_of_lt_of_le hj hk)

variable {m start input}

/-- What each conforming step preserves holds in every state of a run whose
earlier steps conform. -/
theorem Machine.invariant {C : σ → ι → Prop} {I : σ → Prop} (h0 : I start)
    (hstep : ∀ s i, I s → C s i → I (m.step s i).1) {n : ℕ}
    (hC : m.Along start input C n) : I (m.stateAt start input n) := by
  induction n with
  | zero => exact h0
  | succ n ih =>
    have hn := ih (hC.mono m start input (Nat.le_succ n))
    exact hstep _ _ hn (hC n (Nat.lt_succ_self n))

/-- An invariant that every step preserves holds in every state of every run. -/
theorem Machine.invariant_of_step {I : σ → Prop} (h0 : I start)
    (hstep : ∀ s i, I s → I (m.step s i).1) (n : ℕ) : I (m.stateAt start input n) :=
  m.invariant (C := fun _ _ => True) h0 (fun s i hs _ => hstep s i hs) (fun _ _ => trivial)

/-- What steps of one kind bring about and no step undoes holds exactly behind
a step of that kind. -/
theorem Machine.brought_about {J P : σ → Prop} {Q : σ → ι → Prop} (h0 : ¬P start)
    (hJ : ∀ n, J (m.stateAt start input n))
    (hstep : ∀ s i, J s → (P (m.step s i).1 ↔ P s ∨ Q s i)) (n : ℕ) :
    P (m.stateAt start input n) ↔ ∃ k < n, Q (m.stateAt start input k) (input k) := by
  induction n with
  | zero => exact iff_of_false h0 fun ⟨k, hk, _⟩ => Nat.not_lt_zero k hk
  | succ n ih =>
    rw [Machine.stateAt_succ, hstep _ _ (hJ n), ih]
    constructor
    · rintro (⟨k, hk, hQ⟩ | hQ)
      · exact ⟨k, Nat.lt_succ_of_lt hk, hQ⟩
      · exact ⟨n, Nat.lt_succ_self n, hQ⟩
    · rintro ⟨k, hk, hQ⟩
      rcases Nat.lt_succ_iff_lt_or_eq.mp hk with hlt | rfl
      · exact .inl ⟨k, hlt, hQ⟩
      · exact .inr hQ

section last

/-- The last step before `n` that has a property. -/
def LastBefore (P : ℕ → Prop) (k n : ℕ) : Prop := k < n ∧ P k ∧ ∀ j, k < j → j < n → ¬P j

variable {P : ℕ → Prop} {k j n : ℕ}

theorem LastBefore.succ (h : LastBefore P k n) (hno : ¬P n) : LastBefore P k (n + 1) := by
  obtain ⟨hkn, hk, hlast⟩ := h
  refine ⟨Nat.lt_succ_of_lt hkn, hk, fun j hkj hjn => ?_⟩
  rcases Nat.lt_succ_iff_lt_or_eq.mp hjn with hlt | rfl
  · exact hlast j hkj hlt
  · exact hno

theorem LastBefore.self (h : P n) : LastBefore P n (n + 1) :=
  ⟨Nat.lt_succ_self n, h, fun _ hnj hjn => absurd hnj (Nat.not_lt.mpr (Nat.le_of_lt_succ hjn))⟩

theorem LastBefore.unique (h : LastBefore P k n) (h' : LastBefore P j n) : k = j := by
  rcases Nat.lt_trichotomy k j with hlt | heq | hlt
  · exact absurd h'.2.1 (h.2.2 j hlt h'.1)
  · exact heq
  · exact absurd h.2.1 (h'.2.2 k hlt h.1)

/-- Of the steps that have a property one is the last. -/
theorem exists_lastBefore (hk : k < n) (h : P k) : ∃ j, LastBefore P j n := by
  induction n, hk using Nat.le_induction with
  | base => exact ⟨k, .self h⟩
  | succ n hkn ih =>
    by_cases hn : P n
    · exact ⟨n, .self hn⟩
    · obtain ⟨j, hj⟩ := ih
      exact ⟨j, hj.succ hn⟩

end last

section progress

variable {P : ℕ → Prop} {μ : ℕ → ℕ} {start : ℕ}

end progress

end Dlads.StepMachine
