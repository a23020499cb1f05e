import Dlads.StepMachine

/-!
# Runs with inputs erased

A finite run is compared with the same run on fewer inputs. Suppose the runs
start in related states, an input that both take relates the states again and
shows an observer the same, and an input that is erased keeps the relation and
shows the observer nothing. Then the observer cannot tell the runs apart. The
relation may look at the inputs still to come, so that it can hold a budget
for them.
-/

namespace Dlads.StepMachine

variable {σ ι ο ω : Type*} (m : Machine σ ι ο)

/-- State after finitely many inputs. -/
def Machine.finalState : σ → List ι → σ
  | s, [] => s
  | s, i :: rest => finalState (m.step s i).1 rest

/-- What the steps on finitely many inputs return. -/
def Machine.outputs : σ → List ι → List ο
  | _, [] => []
  | s, i :: rest => (m.step s i).2 :: outputs (m.step s i).1 rest

theorem Machine.finalState_append (s : σ) (xs ys : List ι) :
    m.finalState s (xs ++ ys) = m.finalState (m.finalState s xs) ys := by
  induction xs generalizing s with
  | nil => rfl
  | cons x xs ih => exact ih (m.step s x).1

theorem Machine.outputs_append (s : σ) (xs ys : List ι) :
    m.outputs s (xs ++ ys) = m.outputs s xs ++ m.outputs (m.finalState s xs) ys := by
  induction xs generalizing s with
  | nil => rfl
  | cons x xs ih => exact congrArg (_ :: ·) (ih (m.step s x).1)

/-- The inputs that `keep` rejects can be erased: a relation between a run and
its erasure survives every step, and the view of an observer does not differ. -/
structure Machine.Erasable (keep : ι → Bool) (view : ο → List ω)
    (R : List ι → σ → σ → Prop) : Prop where
  /-- Both runs take an input. -/
  kept : ∀ i rest s t, keep i = true → R (i :: rest) s t →
    R rest (m.step s i).1 (m.step t i).1 ∧ view (m.step s i).2 = view (m.step t i).2
  /-- Only the full run takes an input. -/
  erased : ∀ i rest s t, keep i = false → R (i :: rest) s t →
    R rest (m.step s i).1 t ∧ view (m.step s i).2 = []

variable {m} {keep : ι → Bool} {view : ο → List ω} {R : List ι → σ → σ → Prop}

/-- A run and its erasure end in related states and show the observer the same. -/
theorem Machine.Erasable.run (h : m.Erasable keep view R) {inputs : List ι} {s t : σ}
    (hR : R inputs s t) :
    R [] (m.finalState s inputs) (m.finalState t (inputs.filter keep)) ∧
      (m.outputs s inputs).flatMap view =
        (m.outputs t (inputs.filter keep)).flatMap view := by
  induction inputs generalizing s t with
  | nil => exact ⟨hR, rfl⟩
  | cons i rest ih =>
    cases hk : keep i with
    | true =>
      obtain ⟨hnext, hview⟩ := h.kept i rest s t hk hR
      obtain ⟨hfinal, hrest⟩ := ih hnext
      rw [List.filter_cons_of_pos hk]
      refine ⟨hfinal, ?_⟩
      rw [Machine.outputs, Machine.outputs, List.flatMap_cons, List.flatMap_cons, hview, hrest]
    | false =>
      obtain ⟨hnext, hview⟩ := h.erased i rest s t hk hR
      obtain ⟨hfinal, hrest⟩ := ih hnext
      rw [List.filter_cons_of_neg (by rw [hk]; exact Bool.false_ne_true)]
      refine ⟨hfinal, ?_⟩
      rw [Machine.outputs, List.flatMap_cons, hview, List.nil_append, hrest]

end Dlads.StepMachine
