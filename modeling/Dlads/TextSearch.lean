import Dlads.ByteText

/-!
# Laws of text search

What follows the first occurrence of a needle in a text assembled from parts:
an occurrence in the first part stays the first one, a part that the needle
cannot start in is passed over, and a separator that the needle does not hold
divides the search. Cutting at a separator stops before it.
-/

namespace Dlads.TextSearch

open ByteText

variable {needle s t : Bytes}

theorem after_nil (hn : needle ≠ []) : after needle [] = none := by
  simp [after, find, hn]

/-- A search either succeeds at the front or goes on behind the first byte. -/
theorem after_cons (needle : Bytes) (c : UInt8) (s : Bytes) : after needle (c :: s) =
    if needle.isPrefixOf (c :: s) then some ((c :: s).drop needle.length) else after needle s := by
  unfold after
  rw [find]
  split
  · rw [Option.map_some, Nat.zero_add]
  · rw [Option.map_map]
    refine congrArg (Option.map · (find needle s)) (funext fun p => ?_)
    rw [Function.comp_apply, Nat.add_right_comm, List.drop_succ_cons]

/-- A search that fails fails at the front and behind the first byte. -/
theorem after_cons_eq_none {c : UInt8} (h : after needle (c :: s) = none) :
    ¬needle.isPrefixOf (c :: s) = true ∧ after needle s = none := by
  rw [after_cons] at h
  split at h
  · cases h
  · next hp => exact ⟨hp, h⟩

/-- A needle is found at the front. -/
theorem after_self_append (hn : needle ≠ []) (t : Bytes) : after needle (needle ++ t) = some t := by
  cases needle with
  | nil => exact absurd rfl hn
  | cons c rest =>
    have hp : (c :: rest).isPrefixOf (c :: rest ++ t) = true :=
      List.isPrefixOf_iff_prefix.mpr (List.prefix_append _ _)
    rw [List.cons_append] at hp ⊢
    rw [after_cons, if_pos hp, ← List.cons_append, List.drop_left]

/-- A found needle divides the text. -/
theorem eq_of_find {p : ℕ} (h : find needle s = some p) :
    s = s.take p ++ (needle ++ s.drop (p + needle.length)) := by
  induction s generalizing p with
  | nil =>
    rw [find] at h
    split at h
    · next hn => rw [List.isEmpty_iff.mp hn, List.take_nil, List.drop_nil]; rfl
    · cases h
  | cons c s ih =>
    rw [find] at h
    split at h
    · next hp =>
      obtain ⟨t, ht⟩ := List.isPrefixOf_iff_prefix.mp hp
      rw [← Option.some.inj h, ← ht, Nat.zero_add, List.take_zero, List.nil_append, List.drop_left]
    · obtain ⟨q, hq, rfl⟩ := Option.map_eq_some_iff.mp h
      have hrest := ih hq
      rw [List.take_succ_cons, Nat.add_right_comm, List.drop_succ_cons, List.cons_append, ← hrest]

/-- A found needle lies within the text. -/
theorem length_of_find {p : ℕ} (h : find needle s = some p) : p + needle.length ≤ s.length := by
  induction s generalizing p with
  | nil =>
    rw [find] at h
    split at h
    · next hn =>
      rw [← Option.some.inj h, List.isEmpty_iff.mp hn]
      exact le_refl _
    · cases h
  | cons c s ih =>
    rw [find] at h
    split at h
    · next hp =>
      rw [← Option.some.inj h, Nat.zero_add]
      exact (List.isPrefixOf_iff_prefix.mp hp).length_le
    · obtain ⟨q, hq, rfl⟩ := Option.map_eq_some_iff.mp h
      have hle := ih hq
      rw [List.length_cons]
      omega

/-- A needle found last divides the text. -/
theorem eq_of_rfind {p : ℕ} (h : rfind needle s = some p) :
    s = s.take p ++ (needle ++ s.drop (p + needle.length)) := by
  induction s generalizing p with
  | nil =>
    rw [rfind] at h
    split at h
    · next hn => rw [List.isEmpty_iff.mp hn, List.take_nil, List.drop_nil]; rfl
    · cases h
  | cons c s ih =>
    rw [rfind] at h
    split at h
    · next q hq =>
      have hrest := ih hq
      rw [← Option.some.inj h, List.take_succ_cons, Nat.add_right_comm, List.drop_succ_cons,
        List.cons_append, ← hrest]
    · split at h
      · next hp =>
        obtain ⟨t, ht⟩ := List.isPrefixOf_iff_prefix.mp hp
        rw [← Option.some.inj h, ← ht, Nat.zero_add, List.take_zero, List.nil_append,
          List.drop_left]
      · cases h

/-- A byte that is not found last does not occur. -/
theorem not_mem_of_rfind_none {z : UInt8} (h : rfind [z] s = none) : z ∉ s := by
  induction s with
  | nil => exact List.not_mem_nil
  | cons c s ih =>
    rw [rfind] at h
    split at h
    · cases h
    · next hnone =>
      split at h
      · cases h
      · next hp =>
        have hc : ¬z = c := by simpa [List.isPrefixOf] using hp
        exact List.not_mem_cons_of_ne_of_not_mem hc (ih hnone)

/-- Needle and remainder lie within the text. -/
theorem length_of_after {r : Bytes} (h : after needle s = some r) :
    needle.length + r.length ≤ s.length := by
  induction s with
  | nil =>
    cases needle with
    | nil =>
      have hr : r = [] := by simpa [after, find] using h.symm
      rw [hr]
      exact le_refl _
    | cons c rest => simp [after, find] at h
  | cons c s ih =>
    rw [after_cons] at h
    split at h
    · next hp =>
      have hle := (List.isPrefixOf_iff_prefix.mp hp).length_le
      rw [← Option.some.inj h, List.length_drop]
      omega
    · have hlen := ih h
      rw [List.length_cons]
      omega

/-- A needle whose first byte does not occur before it is found where it is. -/
theorem find_append {z : UInt8} {needle s : Bytes} (hs : z ∉ s) (t : Bytes) :
    find (z :: needle) (s ++ (z :: needle ++ t)) = some s.length := by
  induction s with
  | nil =>
    have hp : (z :: needle).isPrefixOf (z :: needle ++ t) = true :=
      List.isPrefixOf_iff_prefix.mpr (List.prefix_append _ _)
    rw [List.nil_append, List.cons_append, find, ← List.cons_append, if_pos hp]
    rfl
  | cons c s ih =>
    have hp : ¬(z :: needle).isPrefixOf (c :: (s ++ (z :: needle ++ t))) = true := by
      intro hp
      have hz : z = c := (List.cons_prefix_cons.mp (List.isPrefixOf_iff_prefix.mp hp)).1
      exact hs (hz ▸ List.mem_cons_self)
    rw [List.cons_append, find, if_neg hp, ih fun h => hs (List.mem_cons_of_mem c h)]
    rfl

/-- A byte that does not occur before it is found where it is. -/
theorem find_byte {z : UInt8} {s : Bytes} (hs : z ∉ s) (t : Bytes) :
    find [z] (s ++ z :: t) = some s.length := @find_append z [] s hs t

/-- A byte that ends a text is found last. -/
theorem rfind_byte_last (z : UInt8) (s : Bytes) : rfind [z] (s ++ [z]) = some s.length := by
  induction s with
  | nil => simp [rfind]
  | cons c s ih =>
    rw [List.cons_append, rfind, ih]
    rfl

/-- Whether a needle is at the front of a text is decided by as many bytes. -/
theorem isPrefixOf_append_iff (h : needle.length ≤ s.length) (t : Bytes) :
    needle.isPrefixOf (s ++ t) = needle.isPrefixOf s := by
  rw [Bool.eq_iff_iff, List.isPrefixOf_iff_prefix, List.isPrefixOf_iff_prefix]
  constructor
  · intro hp
    exact List.prefix_of_prefix_length_le hp (List.prefix_append s t) h
  · intro hp
    exact hp.trans (List.prefix_append s t)

/-- A case-insensitive search succeeds exactly if the lower-cased needle stands
somewhere in the lower-cased text. -/
theorem isearch_iff_infix (needle s : Bytes) :
    isearch needle s = true ↔ needle.map toLower <:+: s.map toLower := by
  induction s with
  | nil => simp [isearch]
  | cons c s ih =>
    rw [isearch, Bool.or_eq_true, ih, List.isPrefixOf_iff_prefix, List.map_cons,
      List.infix_cons_iff]

/-- A search fails exactly if the needle stands nowhere in the text. -/
theorem find_eq_none_iff (needle s : Bytes) : find needle s = none ↔ ¬needle <:+: s := by
  induction s with
  | nil =>
    rw [find, List.infix_nil]
    cases needle with
    | nil => simp
    | cons c needle => simp
  | cons c s ih =>
    rw [find, List.infix_cons_iff, not_or, ← ih, ← List.isPrefixOf_iff_prefix]
    split
    · next hp => simp [hp]
    · next hp => simp [hp]

/-- Nothing behind the last occurrence of a byte is that byte. -/
theorem not_mem_of_rfind {z : UInt8} {p : ℕ} (h : rfind [z] s = some p) : z ∉ s.drop (p + 1) := by
  induction s generalizing p with
  | nil => exact List.not_mem_nil
  | cons c s ih =>
    rw [rfind] at h
    rw [List.drop_succ_cons]
    split at h
    · next q hq =>
      rw [← Option.some.inj h]
      exact ih hq
    · next hnone =>
      split at h
      · rw [← Option.some.inj h, List.drop_zero]
        exact not_mem_of_rfind_none hnone
      · cases h

/-- A byte that is found last ends the text or has other bytes behind it. -/
theorem rfind_byte_cases {z : UInt8} {p : ℕ} (h : rfind [z] s = some p) :
    s.length ≤ p + 1 ∧ s = s.take p ++ [z] ∨
      ∃ c, p + 2 ≤ s.length ∧ z ∉ c :: s.drop (p + 2) ∧
        s = s.take p ++ z :: c :: s.drop (p + 2) := by
  have hsplit : s = s.take p ++ z :: s.drop (p + 1) := eq_of_rfind h
  have hlast := not_mem_of_rfind h
  cases htail : s.drop (p + 1) with
  | nil =>
    rw [htail] at hsplit
    exact .inl ⟨List.drop_eq_nil_iff.mp htail, hsplit⟩
  | cons c t =>
    have hrest : s.drop (p + 2) = t := by rw [← List.tail_drop, htail, List.tail_cons]
    have hlength := congrArg List.length htail
    rw [List.length_drop, List.length_cons] at hlength
    rw [htail] at hsplit hlast
    rw [hrest]
    exact .inr ⟨c, by omega, hlast, hsplit⟩

/-- What stands before the first occurrence of a byte. -/
theorem takeWhile_of_find {z : UInt8} {p : ℕ} (h : find [z] s = some p) :
    s.takeWhile (· != z) = s.take p := by
  induction s generalizing p with
  | nil => simp
  | cons c s ih =>
    rw [find] at h
    split at h
    · next hp =>
      have hc : z = c := by simpa [List.isPrefixOf] using hp
      rw [← Option.some.inj h, List.take_zero, List.takeWhile_cons_of_neg (by simp [hc])]
    · next hp =>
      obtain ⟨q, hq, rfl⟩ := Option.map_eq_some_iff.mp h
      have hc : ¬z = c := by simpa [List.isPrefixOf] using hp
      rw [List.take_succ_cons, List.takeWhile_cons_of_pos (by simpa using Ne.symm hc), ih hq]

/-- A needle at the front of a text in two parts lies within the first part,
or covers it and goes on into the second. -/
theorem prefix_append_cases (h : needle.isPrefixOf (s ++ t) = true) :
    needle.isPrefixOf s = true ∨ ∃ rest, rest ≠ [] ∧ needle = s ++ rest ∧ rest <+: t := by
  have hp := List.isPrefixOf_iff_prefix.mp h
  rcases List.prefix_or_prefix_of_prefix hp (List.prefix_append s t) with hin | hout
  · exact .inl (List.isPrefixOf_iff_prefix.mpr hin)
  · obtain ⟨rest, rfl⟩ := hout
    cases rest with
    | nil => exact .inl (by simp)
    | cons x rest =>
      exact .inr ⟨x :: rest, List.cons_ne_nil x rest, rfl, (List.prefix_append_right_inj s).mp hp⟩

/-- The first occurrence in a text stays the first when more text follows. -/
theorem after_append_of_some {r : Bytes} (hn : needle ≠ []) (h : after needle s = some r)
    (t : Bytes) : after needle (s ++ t) = some (r ++ t) := by
  induction s with
  | nil =>
    rw [after_nil hn] at h
    cases h
  | cons c s ih =>
    have hle : needle.length ≤ (c :: s).length := by
      have hlen := length_of_after h
      omega
    rw [after_cons] at h
    rw [List.cons_append, after_cons, ← List.cons_append, isPrefixOf_append_iff hle]
    split
    · next hp =>
      rw [if_pos hp] at h
      rw [List.drop_append_of_le_length hle, Option.some.inj h]
    · next hp =>
      rw [if_neg hp] at h
      exact ih h

/-- A needle of which some byte is missing is not found. -/
theorem after_eq_none {z : UInt8} (hz : z ∈ needle) (hs : z ∉ s) : after needle s = none := by
  induction s with
  | nil => exact after_nil (List.ne_nil_of_mem hz)
  | cons c s ih =>
    have hp : ¬needle.isPrefixOf (c :: s) = true := fun hp =>
      hs ((List.isPrefixOf_iff_prefix.mp hp).subset hz)
    rw [after_cons, if_neg hp]
    exact ih fun h => hs (List.mem_cons_of_mem c h)

/-- A text in which the needle cannot start, whatever follows. -/
def Apart (needle p : Bytes) : Prop :=
  ∀ b ∈ p.tails, b ≠ [] → needle.isPrefixOf b = false ∧ b.isPrefixOf needle = false

instance (needle p : Bytes) : Decidable (Apart needle p) := by
  unfold Apart
  infer_instance

/-- A text in which the needle cannot start is passed over. -/
theorem after_append_of_apart {p : Bytes} (h : Apart needle p) (t : Bytes) :
    after needle (p ++ t) = after needle t := by
  induction p with
  | nil => rfl
  | cons c p ih =>
    have hhead := h (c :: p) (by simp) (List.cons_ne_nil c p)
    have hp : ¬needle.isPrefixOf (c :: p ++ t) = true := by
      intro hp
      rcases prefix_append_cases hp with hin | ⟨rest, -, hcover, -⟩
      · rw [hin] at hhead
        exact absurd hhead.1 (by simp)
      · have hfront : (c :: p).isPrefixOf needle = true :=
          List.isPrefixOf_iff_prefix.mpr ⟨rest, hcover.symm⟩
        rw [hfront] at hhead
        exact absurd hhead.2 (by simp)
    rw [List.cons_append] at hp ⊢
    rw [after_cons, if_neg hp]
    exact ih fun b hb => h b (by simp [List.tails, hb])

/-- A separator that the needle does not hold divides the search. -/
theorem after_append_sep {c : UInt8} (hn : needle ≠ []) (hc : c ∉ needle) (s t : Bytes) :
    after needle (s ++ c :: t) =
      ((after needle s).map (· ++ c :: t)).or (after needle t) := by
  cases hs : after needle s with
  | some r => exact after_append_of_some hn hs (c :: t)
  | none =>
    rw [Option.map_none, Option.none_or]
    induction s with
    | nil =>
      have hp : ¬needle.isPrefixOf (c :: t) = true := by
        intro hp
        cases needle with
        | nil => exact hn rfl
        | cons x rest =>
          have hx : x = c := (List.cons_prefix_cons.mp (List.isPrefixOf_iff_prefix.mp hp)).1
          exact hc (hx ▸ List.mem_cons_self)
      rw [List.nil_append, after_cons, if_neg hp]
    | cons x s ih =>
      obtain ⟨hnot, hs⟩ := after_cons_eq_none hs
      have hp : ¬needle.isPrefixOf (x :: s ++ c :: t) = true := by
        intro hp
        rcases prefix_append_cases hp with hin | ⟨rest, hrest, hcover, hpre⟩
        · exact hnot hin
        · cases rest with
          | nil => exact hrest rfl
          | cons y rest =>
            have hy : y = c := (List.cons_prefix_cons.mp hpre).1
            exact hc (hcover ▸ List.mem_append_right _ (hy ▸ List.mem_cons_self))
      rw [List.cons_append] at hp ⊢
      rw [after_cons, if_neg hp]
      exact ih hs

/-- Text without the last byte of a needle adds no occurrence. -/
theorem after_append_plain {first : Bytes} {z : UInt8} (hz : z ∉ t) (s : Bytes) :
    after (first ++ [z]) (s ++ t) = (after (first ++ [z]) s).map (· ++ t) := by
  have hn : first ++ [z] ≠ [] := by simp
  cases hs : after (first ++ [z]) s with
  | some r => exact after_append_of_some hn hs t
  | none =>
    rw [Option.map_none]
    induction s with
    | nil => exact after_eq_none (by simp) hz
    | cons c s ih =>
      obtain ⟨hnot, hs⟩ := after_cons_eq_none hs
      have hp : ¬(first ++ [z]).isPrefixOf (c :: s ++ t) = true := by
        intro hp
        rcases prefix_append_cases hp with hin | ⟨rest, hrest, hcover, hpre⟩
        · exact hnot hin
        · have hend : z = rest.getLast hrest := by
            have hlast := List.getLast_congr hn (List.append_ne_nil_of_right_ne_nil _ hrest) hcover
            rwa [List.getLast_append_singleton,
              List.getLast_append_of_right_ne_nil _ _ hrest] at hlast
          exact hz (hpre.subset (hend ▸ List.getLast_mem hrest))
      rw [List.cons_append] at hp ⊢
      rw [after_cons, if_neg hp]
      exact ih hs

/-- A needle that ends a text is its first occurrence unless one lies before
its last byte. -/
theorem after_append_last {first : Bytes} {z : UInt8} (s t : Bytes) :
    after (first ++ [z]) (s ++ first ++ z :: t) =
      ((after (first ++ [z]) (s ++ first)).map (· ++ z :: t)).or (some t) := by
  have hn : first ++ [z] ≠ [] := by simp
  cases hs : after (first ++ [z]) (s ++ first) with
  | some r => exact after_append_of_some hn hs (z :: t)
  | none =>
    rw [Option.map_none, Option.none_or]
    induction s with
    | nil =>
      have hfront := after_self_append hn t
      rwa [List.append_assoc, List.singleton_append] at hfront
    | cons c s ih =>
      obtain ⟨hnot, hs⟩ := after_cons_eq_none hs
      have hle : (first ++ [z]).length ≤ (c :: (s ++ first)).length := by
        simp only [List.length_append, List.length_cons, List.length_nil]
        omega
      have hp : ¬(first ++ [z]).isPrefixOf (c :: (s ++ first ++ z :: t)) = true := by
        rwa [← List.cons_append, isPrefixOf_append_iff hle]
      rw [List.cons_append, List.cons_append, after_cons, if_neg hp]
      exact ih hs

/-- What follows the needles, each found behind the one before. -/
def behind : List Bytes → Bytes → Option Bytes
  | [], s => some s
  | needle :: needles, s => (after needle s).bind (behind needles)

/-- Needles found in a text are found in the same places when more text
follows. -/
theorem behind_append_of_some {needles : List Bytes} (hn : ∀ needle ∈ needles, needle ≠ [])
    {s r : Bytes} (h : behind needles s = some r) (t : Bytes) :
    behind needles (s ++ t) = some (r ++ t) := by
  induction needles generalizing s with
  | nil =>
    rw [← Option.some.inj h]
    rfl
  | cons needle needles ih =>
    obtain ⟨u, hu, hrest⟩ := Option.bind_eq_some_iff.mp h
    rw [behind, after_append_of_some (hn needle List.mem_cons_self) hu t]
    exact ih (fun n hmem => hn n (List.mem_cons_of_mem needle hmem)) hrest

section cutting

variable {α : Type*} {p : α → Bool} {c : α}

/-- Cutting before a separator does not see what follows it. -/
theorem takeWhile_append_sep (hc : p c = false) (s t : List α) :
    (s ++ c :: t).takeWhile p = s.takeWhile p := by
  induction s with
  | nil => simp [hc]
  | cons x s ih =>
    rw [List.cons_append, List.takeWhile_cons, List.takeWhile_cons, ih]

theorem dropWhile_append_sep (hc : p c = false) (s t : List α) :
    (s ++ c :: t).dropWhile p = s.dropWhile p ++ c :: t := by
  induction s with
  | nil => simp [hc]
  | cons x s ih =>
    rw [List.cons_append, List.dropWhile_cons, List.dropWhile_cons, ih]
    split
    · rfl
    · rfl

/-- A run before a separator is what is cut off. -/
theorem takeWhile_run_sep {s : List α} (hs : ∀ x ∈ s, p x = true) (hc : p c = false) (t : List α) :
    (s ++ c :: t).takeWhile p = s := by
  rw [takeWhile_append_sep hc, List.takeWhile_eq_self_iff.mpr hs]

theorem dropWhile_run_sep {s : List α} (hs : ∀ x ∈ s, p x = true) (hc : p c = false) (t : List α) :
    (s ++ c :: t).dropWhile p = c :: t := by
  rw [dropWhile_append_sep hc, List.dropWhile_eq_nil_iff.mpr hs, List.nil_append]

end cutting

/-- What stands before the first delimiter is cut off by a search for it. -/
theorem take_find_byte (z : UInt8) (s t : Bytes) :
    ((find [z] (s ++ z :: t)).map fun e => (s ++ z :: t).take e) =
      some (s.takeWhile (· != z)) := by
  cases hfind : find [z] (s ++ z :: t) with
  | none => exact absurd ⟨s, t, by simp⟩ ((find_eq_none_iff [z] _).mp hfind)
  | some p => rw [Option.map_some, ← takeWhile_of_find hfind, takeWhile_append_sep (by simp)]

end Dlads.TextSearch
