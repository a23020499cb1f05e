import Mathlib.Data.List.Perm.Subperm
import Mathlib.Tactic.Common

/-!
# Tables with a primary key

A table is the list of its rows in insertion order, with a key on the rows. An
insertion under the ignore clause drops the new row when its key is taken. A
table keeps a list of wanted rows if each of them has a row of its own with
the same contents; while the table is exactly that list, one more insertion
keeps one more wanted row only if its key is new and the row stored is the row
wanted.
-/

namespace Dlads.KeyedTable

variable {α κ : Type*} [DecidableEq κ] (key : α → κ)

/-- `INSERT OR IGNORE` of a row. -/
def insertOrIgnore (row : α) (rows : List α) : List α :=
  if key row ∈ rows.map key then rows else rows ++ [row]

/-- Each wanted row has a row of its own. -/
def Keeps (wanted rows : List α) : Prop := wanted.Subperm rows

theorem keeps_self (rows : List α) : Keeps rows rows := List.Subperm.refl rows

/-- As many rows as wanted ones must be the wanted ones. -/
theorem Keeps.perm {wanted rows : List α} (h : Keeps wanted rows)
    (hle : rows.length ≤ wanted.length) : wanted.Perm rows :=
  List.Subperm.perm_of_length_le h hle

variable {key}

theorem insertOrIgnore_of_fresh {row : α} {rows : List α} (h : key row ∉ rows.map key) :
    insertOrIgnore key row rows = rows ++ [row] := if_neg h

theorem insertOrIgnore_of_taken {row : α} {rows : List α} (h : key row ∈ rows.map key) :
    insertOrIgnore key row rows = rows := if_pos h

/-- An insertion that drops the new row keeps one row too few. -/
theorem not_keeps_of_taken {row wanted : α} {rows : List α} (h : key row ∈ rows.map key) :
    ¬Keeps (rows ++ [wanted]) (insertOrIgnore key row rows) := by
  intro hk
  rw [insertOrIgnore_of_taken h] at hk
  have hle : (rows ++ [wanted]).length ≤ rows.length := List.Subperm.length_le hk
  rw [List.length_append, List.length_singleton] at hle
  omega

/-- One more wanted row is kept exactly if its key is new and it is the row
that is stored. -/
theorem keeps_insert_iff {row wanted : α} {rows : List α} :
    Keeps (rows ++ [wanted]) (insertOrIgnore key row rows) ↔
      key row ∉ rows.map key ∧ row = wanted := by
  constructor
  · intro hk
    by_cases h : key row ∈ rows.map key
    · exact absurd hk (not_keeps_of_taken h)
    · rw [insertOrIgnore_of_fresh h] at hk
      have hperm : (rows ++ [wanted]).Perm (rows ++ [row]) := hk.perm (by simp)
      have hone : [wanted].Perm [row] := (List.perm_append_left_iff rows).mp hperm
      exact ⟨h, (List.singleton_perm_singleton.mp hone).symm⟩
  · rintro ⟨h, rfl⟩
    rw [insertOrIgnore_of_fresh h]
    exact keeps_self _

/-- An insertion that keeps one more wanted row appends it. -/
theorem insert_eq_of_keeps {row wanted : α} {rows : List α}
    (h : Keeps (rows ++ [wanted]) (insertOrIgnore key row rows)) :
    insertOrIgnore key row rows = rows ++ [wanted] := by
  obtain ⟨hfresh, hrow⟩ := keeps_insert_iff.mp h
  rw [insertOrIgnore_of_fresh hfresh, hrow]

section histories

variable (key) in
/-- A table that is empty at first and takes in what is logged at each step. -/
structure Filed (logged : ℕ → Option α) (table : ℕ → List α) : Prop where
  /-- Nothing is in it at first. -/
  empty : table 0 = []
  /-- A logged row is inserted unless its key is taken. -/
  step : ∀ n, table (n + 1) =
    (logged n).elim (table n) fun row => insertOrIgnore key row (table n)

variable (key) in
/-- No row with a key has been logged before a step. -/
def Unused (logged : ℕ → Option α) (n : ℕ) (k : κ) : Prop :=
  ∀ m < n, ∀ row, logged m = some row → key row ≠ k

variable {logged : ℕ → Option α} {table : ℕ → List α} {n : ℕ}

theorem mem_insertOrIgnore {row other : α} {rows : List α} :
    other ∈ insertOrIgnore key row rows ↔ other ∈ rows ∨ key row ∉ rows.map key ∧ other = row := by
  by_cases h : key row ∈ rows.map key
  · simp [insertOrIgnore_of_taken h, h]
  · rw [insertOrIgnore_of_fresh h, List.mem_append, List.mem_singleton, and_iff_right h]

/-- After an insertion the keys are the old ones and that of the row. -/
theorem key_mem_insertOrIgnore {row : α} {rows : List α} {k : κ} :
    k ∈ (insertOrIgnore key row rows).map key ↔ k ∈ rows.map key ∨ k = key row := by
  by_cases h : key row ∈ rows.map key
  · rw [insertOrIgnore_of_taken h]
    refine ⟨.inl, fun hk => hk.elim id ?_⟩
    rintro rfl
    exact h
  · rw [insertOrIgnore_of_fresh h, List.map_append, List.mem_append, List.map_singleton,
      List.mem_singleton]

theorem nodup_insertOrIgnore {row : α} {rows : List α} (h : (rows.map key).Nodup) :
    ((insertOrIgnore key row rows).map key).Nodup := by
  by_cases hrow : key row ∈ rows.map key
  · rwa [insertOrIgnore_of_taken hrow]
  · rw [insertOrIgnore_of_fresh hrow, List.map_append, List.map_singleton]
    refine List.nodup_append.mpr ⟨h, List.pairwise_singleton _ _, fun k hk other hother => ?_⟩
    rw [List.mem_singleton.mp hother]
    rintro rfl
    exact hrow hk

/-- The keys of a table are those of the logged rows. -/
theorem Filed.key_mem_iff (h : Filed key logged table) (n : ℕ) {k : κ} :
    k ∈ (table n).map key ↔ ∃ m < n, ∃ row, logged m = some row ∧ key row = k := by
  induction n with
  | zero => simp [h.empty]
  | succ n ih =>
    have hlast : (∃ m < n + 1, ∃ row, logged m = some row ∧ key row = k) ↔
        (∃ m < n, ∃ row, logged m = some row ∧ key row = k) ∨
          ∃ row, logged n = some row ∧ key row = k := Nat.exists_lt_succ_right
    rw [hlast, h.step, ← ih]
    cases hlog : logged n with
    | none => simp
    | some row =>
      rw [Option.elim_some, key_mem_insertOrIgnore]
      simp [eq_comm]

/-- A key is not in a table while it is unused. -/
theorem Filed.key_not_mem_iff (h : Filed key logged table) {k : κ} :
    k ∉ (table n).map key ↔ Unused key logged n k := by
  rw [h.key_mem_iff]
  simp [Unused]

/-- A table never has a key twice. -/
theorem Filed.nodup (h : Filed key logged table) (n : ℕ) : ((table n).map key).Nodup := by
  induction n with
  | zero =>
    rw [h.empty]
    exact List.nodup_nil
  | succ n ih =>
    rw [h.step]
    cases logged n with
    | none => exact ih
    | some row => exact nodup_insertOrIgnore ih

/-- A row is in the table exactly if it was logged when its key was unused. -/
theorem Filed.mem_iff (h : Filed key logged table) {row : α} :
    row ∈ table n ↔ ∃ k < n, logged k = some row ∧ Unused key logged k (key row) := by
  induction n with
  | zero => simp [h.empty]
  | succ n ih =>
    have hlast : (∃ k < n + 1, logged k = some row ∧ Unused key logged k (key row)) ↔
        (∃ k < n, logged k = some row ∧ Unused key logged k (key row)) ∨
          logged n = some row ∧ Unused key logged n (key row) := Nat.exists_lt_succ_right
    rw [hlast, h.step, ← ih]
    cases hlog : logged n with
    | none => simp
    | some other =>
      rw [Option.elim_some, mem_insertOrIgnore, h.key_not_mem_iff]
      refine or_congr_right ⟨?_, ?_⟩
      · rintro ⟨hunused, rfl⟩
        exact ⟨rfl, hunused⟩
      · rintro ⟨hsame, hunused⟩
        cases hsame
        exact ⟨hunused, rfl⟩

end histories

end Dlads.KeyedTable
