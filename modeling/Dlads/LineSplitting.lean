import Mathlib.Data.List.TakeWhile
import Mathlib.Tactic.Common

/-!
# Terminated segments

A stream is divided at its separators. The segments that a separator ends and
the remainder behind the last separator are the division of the core library,
read as what a line reader may deliver and what it has to keep. The laws let
the stream grow: what is delivered of a longer stream continues what was
delivered of a shorter one, and starts from its remainder.
-/

namespace Dlads.LineSplitting

variable {α : Type*} (sep : α → Bool)

/-- The segments that a separator ends. -/
def terminated (s : List α) : List (List α) := (s.splitOnP sep).dropLast

/-- What follows the last separator. -/
def remainder (s : List α) : List α := (s.splitOnP sep).getLast (List.splitOnP_ne_nil sep s)

/-- The terminated segments and the remainder are all segments. -/
theorem terminated_append_remainder (s : List α) :
    terminated sep s ++ [remainder sep s] = s.splitOnP sep :=
  List.dropLast_concat_getLast _

variable {sep} {line s : List α} {c : α}

/-- A text without separator is a remainder. -/
theorem terminated_plain (h : ∀ x ∈ s, sep x = false) :
    terminated sep s = [] ∧ remainder sep s = s := by
  simp only [terminated, remainder, List.splitOnP_eq_singleton h]
  exact ⟨rfl, rfl⟩

/-- The first separator ends the first segment. -/
theorem terminated_line (hline : ∀ x ∈ line, sep x = false) (hc : sep c = true) (s : List α) :
    terminated sep (line ++ c :: s) = line :: terminated sep s ∧
      remainder sep (line ++ c :: s) = remainder sep s := by
  have hsplit : (line ++ c :: s).splitOnP sep = line :: s.splitOnP sep :=
    List.splitOnP_append_cons_of_forall_mem hline c hc s
  have hne := List.splitOnP_ne_nil sep s
  simp only [terminated, remainder, hsplit]
  exact ⟨List.dropLast_cons_of_ne_nil hne, List.getLast_cons hne⟩

variable (sep) in
/-- A stream has no separator or starts with a terminated segment. -/
theorem plain_or_line (s : List α) : (∀ x ∈ s, sep x = false) ∨
    ∃ line c rest, s = line ++ c :: rest ∧ (∀ x ∈ line, sep x = false) ∧ sep c = true := by
  induction s with
  | nil => exact .inl fun x h => by cases h
  | cons x s ih =>
    cases hx : sep x with
    | true => exact .inr ⟨[], x, s, rfl, List.forall_mem_nil _, hx⟩
    | false =>
      rcases ih with hplain | ⟨line, c, rest, rfl, hline, hc⟩
      · exact .inl (List.forall_mem_cons.mpr ⟨hx, hplain⟩)
      · exact .inr ⟨x :: line, c, rest, rfl, List.forall_mem_cons.mpr ⟨hx, hline⟩, hc⟩

variable (sep) in
/-- Induction over the segments of a stream. -/
theorem segment_induction {motive : List α → Prop}
    (plain : ∀ s, (∀ x ∈ s, sep x = false) → motive s)
    (line : ∀ line c rest, (∀ x ∈ line, sep x = false) → sep c = true → motive rest →
      motive (line ++ c :: rest)) (s : List α) : motive s := by
  induction hn : s.length using Nat.strong_induction_on generalizing s with
  | _ n ih =>
    rcases plain_or_line sep s with hplain | ⟨first, c, rest, rfl, hfirst, hc⟩
    · exact plain s hplain
    · have hlt : rest.length < n := by
        rw [← hn, List.length_append, List.length_cons]
        omega
      exact line first c rest hfirst hc (ih rest.length hlt rest rfl)

variable (sep) in
/-- Segments are delivered once: a stream that grows goes on from its
remainder. -/
theorem terminated_append (s t : List α) :
    terminated sep (s ++ t) = terminated sep s ++ terminated sep (remainder sep s ++ t) ∧
      remainder sep (s ++ t) = remainder sep (remainder sep s ++ t) := by
  induction s using segment_induction sep with
  | plain s hplain =>
    obtain ⟨hnone, hrest⟩ := terminated_plain hplain
    rw [hnone, hrest]
    exact ⟨rfl, rfl⟩
  | line line c rest hline hc ih =>
    rw [List.append_assoc, List.cons_append, (terminated_line hline hc _).1,
      (terminated_line hline hc _).2, (terminated_line hline hc _).1,
      (terminated_line hline hc _).2, ih.1, ih.2]
    exact ⟨rfl, rfl⟩

variable (sep) in
/-- Neither a segment nor the remainder holds a separator. -/
theorem terminated_no_sep (s : List α) :
    (∀ line ∈ terminated sep s, ∀ x ∈ line, sep x = false) ∧
      ∀ x ∈ remainder sep s, sep x = false := by
  induction s using segment_induction sep with
  | plain s hplain =>
    obtain ⟨hnone, hrest⟩ := terminated_plain hplain
    rw [hnone, hrest]
    exact ⟨List.forall_mem_nil _, hplain⟩
  | line line c rest hline hc ih =>
    rw [(terminated_line hline hc _).1, (terminated_line hline hc _).2]
    exact ⟨List.forall_mem_cons.mpr ⟨hline, ih.1⟩, ih.2⟩

variable (sep) in
/-- Segments keep elements in order, and each once. -/
theorem terminated_flatten_sublist (s : List α) : (terminated sep s).flatten.Sublist s := by
  induction s using segment_induction sep with
  | plain s hplain =>
    rw [(terminated_plain hplain).1]
    exact List.nil_sublist s
  | line line c rest hline hc ih =>
    rw [(terminated_line hline hc rest).1, List.flatten_cons]
    exact (List.Sublist.refl line).append (ih.cons c)

end Dlads.LineSplitting
