import Mathlib.Tactic.Common
import Mathlib.Data.Int.Order.Basic

/-!
# A cooldown gate

A gate sees an unbounded sequence of rounds, in some of which an attempt
arrives. An attempt reads the clock once to be checked against the expiry
stored last; when the expiry has passed, or none is stored, it is granted,
reads the clock again and stores that reading plus its holding time. The laws
tie the stored expiry to the last grant and give the two halves of exact rate
limiting: grants are spaced, and only a running hold withholds.
-/

namespace Dlads.CooldownGate

/-- The two clock readings of an attempt and the time it would hold the gate. -/
structure Attempt where
  /-- Reading at the check. -/
  check : ℤ
  /-- Reading when the expiry is stored. -/
  set : ℤ
  /-- Time for which a grant closes the gate. -/
  hold : ℤ

/-- End of the hold that a grant starts. -/
def Attempt.holdEnd (a : Attempt) : ℤ := a.set + a.hold

/-- The gate is closed while the check precedes the stored expiry. -/
def closed (expiry : Option ℤ) (check : ℤ) : Bool :=
  match expiry with
  | none => false
  | some time => check < time

/-- The expiry after a round. -/
def roundExpiry (expiry : Option ℤ) : Option Attempt → Option ℤ
  | none => expiry
  | some a => if closed expiry a.check then expiry else some a.holdEnd

/-- The stored expiry before each round. -/
def expiryAt (attempt : ℕ → Option Attempt) : ℕ → Option ℤ
  | 0 => none
  | n + 1 => roundExpiry (expiryAt attempt n) (attempt n)

/-- The attempt of a round finds the gate open. -/
def Granted (attempt : ℕ → Option Attempt) (n : ℕ) (a : Attempt) : Prop :=
  attempt n = some a ∧ closed (expiryAt attempt n) a.check = false

/-- The attempt of a round finds the gate closed. -/
def Withheld (attempt : ℕ → Option Attempt) (n : ℕ) (a : Attempt) : Prop :=
  attempt n = some a ∧ closed (expiryAt attempt n) a.check = true

variable {attempt : ℕ → Option Attempt}

/-- The expiry moves in a round exactly when the round grants. -/
theorem expiryAt_succ (attempt : ℕ → Option Attempt) (n : ℕ) :
    (∃ a, Granted attempt n a ∧ expiryAt attempt (n + 1) = some a.holdEnd) ∨
      ((∀ a, ¬Granted attempt n a) ∧ expiryAt attempt (n + 1) = expiryAt attempt n) := by
  cases ha : attempt n with
  | none =>
    right
    constructor
    · intro a hg
      rw [hg.1] at ha
      cases ha
    · rw [expiryAt, ha, roundExpiry]
  | some a =>
    cases hc : closed (expiryAt attempt n) a.check with
    | false =>
      left
      refine ⟨a, ⟨ha, hc⟩, ?_⟩
      rw [expiryAt, ha, roundExpiry, hc, if_neg Bool.false_ne_true]
    | true =>
      right
      constructor
      · intro b hg
        have hab : a = b := Option.some.inj (ha.symm.trans hg.1)
        rw [← hab] at hg
        exact Bool.false_ne_true (hg.2.symm.trans hc)
      · rw [expiryAt, ha, roundExpiry, hc, if_pos rfl]

/-- A stored expiry is the end of the hold of the last grant. -/
theorem expiryAt_eq_some {n : ℕ} {time : ℤ} (h : expiryAt attempt n = some time) :
    ∃ m a, m < n ∧ Granted attempt m a ∧ time = a.holdEnd ∧
      ∀ j b, m < j → j < n → ¬Granted attempt j b := by
  induction n with
  | zero => cases h
  | succ n ih =>
    rcases expiryAt_succ attempt n with ⟨a, hg, he⟩ | ⟨hn, he⟩
    · refine ⟨n, a, Nat.lt_succ_self n, hg, ?_, ?_⟩
      · exact Option.some.inj (h.symm.trans he)
      · intro j b hlo hhi
        omega
    · rw [he] at h
      rcases ih h with ⟨m, a, hm, hg, ht, hlast⟩
      refine ⟨m, a, Nat.lt_succ_of_lt hm, hg, ht, ?_⟩
      intro j b hlo hhi hj
      rcases Nat.lt_succ_iff_lt_or_eq.mp hhi with hlt | rfl
      · exact hlast j b hlo hlt hj
      · exact hn b hj

/-- After a grant an expiry stays stored. -/
theorem expiryAt_ne_none {m n : ℕ} {a : Attempt} (hm : Granted attempt m a) (hmn : m < n) :
    expiryAt attempt n ≠ none := by
  induction n with
  | zero => omega
  | succ n ih =>
    rcases expiryAt_succ attempt n with ⟨b, -, he⟩ | ⟨hn, he⟩
    · rw [he]
      exact Option.some_ne_none _
    · rw [he]
      rcases Nat.lt_succ_iff_lt_or_eq.mp hmn with hlt | rfl
      · exact ih hlt
      · exact absurd hm (hn a)

/-- A withheld attempt came before the end of an earlier grant's hold. -/
theorem Withheld.exists_grant {n : ℕ} {b : Attempt} (h : Withheld attempt n b) :
    ∃ m a, m < n ∧ Granted attempt m a ∧ b.check < a.holdEnd ∧
      ∀ j c, m < j → j < n → ¬Granted attempt j c := by
  have hc := h.2
  unfold closed at hc
  cases he : expiryAt attempt n with
  | none =>
    rw [he] at hc
    cases hc
  | some time =>
    rw [he] at hc
    rcases expiryAt_eq_some he with ⟨m, a, hm, hg, rfl, hlast⟩
    exact ⟨m, a, hm, hg, of_decide_eq_true hc, hlast⟩

/-- Rounds of two sequences with the same attempts decide alike. -/
theorem expiryAt_congr {attempt' : ℕ → Option Attempt} {n : ℕ}
    (h : ∀ k < n, attempt k = attempt' k) : expiryAt attempt n = expiryAt attempt' n := by
  induction n with
  | zero => rfl
  | succ n ih =>
    rw [expiryAt, expiryAt, h n (Nat.lt_succ_self n), ih fun k hk => h k (Nat.lt_succ_of_lt hk)]

/-- The clock does not run backward and no hold is negative. -/
structure Timely (attempt : ℕ → Option Attempt) : Prop where
  /-- Within an attempt. -/
  within : ∀ n a, attempt n = some a → a.check ≤ a.set
  /-- From one attempt to a later one. -/
  across : ∀ m n a b, m < n → attempt m = some a → attempt n = some b → a.set ≤ b.check
  /-- Holds reach forward. -/
  hold : ∀ n a, attempt n = some a → 0 ≤ a.hold

/-- A grant is checked no earlier than the end of every earlier hold. -/
theorem Granted.spacing (ht : Timely attempt) {m n : ℕ} {a b : Attempt}
    (hm : Granted attempt m a) (hn : Granted attempt n b) (hmn : m < n) :
    a.holdEnd ≤ b.check := by
  induction n using Nat.strongRecOn generalizing b with
  | ind n ih =>
    cases he : expiryAt attempt n with
    | none => exact absurd he (expiryAt_ne_none hm hmn)
    | some time =>
      rcases expiryAt_eq_some he with ⟨l, c, hl, hg, rfl, hlast⟩
      have hopen : c.holdEnd ≤ b.check := by
        have hc := hn.2
        rw [he] at hc
        exact not_lt.mp (of_decide_eq_false hc)
      rcases Nat.lt_trichotomy m l with hlt | rfl | hgt
      · -- the last grant lies between: its own hold carries the bound on
        have hmid := ih l hl hg hlt
        have hset := ht.within l c hg.1
        have hhold := ht.hold l c hg.1
        unfold Attempt.holdEnd at *
        omega
      · have hac : a = c := Option.some.inj (hm.1.symm.trans hg.1)
        rw [hac]
        exact hopen
      · exact absurd hm (hlast m a hgt hmn)

/-- An attempt is withheld exactly while an earlier grant's hold is running. -/
theorem withheld_iff (ht : Timely attempt) {n : ℕ} {b : Attempt} (hb : attempt n = some b) :
    Withheld attempt n b ↔ ∃ m a, m < n ∧ Granted attempt m a ∧ b.check < a.holdEnd := by
  constructor
  · intro h
    rcases h.exists_grant with ⟨m, a, hm, hg, hlt, -⟩
    exact ⟨m, a, hm, hg, hlt⟩
  · rintro ⟨m, a, hm, hg, hlt⟩
    refine ⟨hb, ?_⟩
    by_contra hopen
    have hn : Granted attempt n b := ⟨hb, eq_false_of_ne_true hopen⟩
    exact absurd (hg.spacing ht hn hm) (not_le.mpr hlt)

end Dlads.CooldownGate
