import Mathlib.Data.List.DropRight
import Mathlib.Data.Nat.Basic

/-!
# The fixed-capacity ring buffer

`RingBuffer<T, Cap>` with its physical slots, write position, read position and
count. Over it stands the abstract content, the list of elements that are
still stored, oldest first: `Holds` relates the two, a push keeps the last
`Cap` elements of the extended list, and a snapshot returns exactly the list.
-/

namespace Dlads.RingStorage

/-- The data members of `RingBuffer<T, Cap>`. -/
structure RingBuffer (T : Type*) (Cap : ℕ) where
  /-- `storage_`, one element for each of the `Cap` slots. -/
  storage : List T
  /-- `head_`: next write position. -/
  head : ℕ
  /-- `tail_`: position of the oldest element. -/
  tail : ℕ
  /-- `size_`: number of elements stored. -/
  size : ℕ

variable {T : Type*} {Cap : ℕ}

/-- A default-constructed buffer; the slots hold default values. -/
def RingBuffer.init (default : T) : RingBuffer T Cap := ⟨List.replicate Cap default, 0, 0, 0⟩

/-- `next(idx)`. -/
def next (Cap idx : ℕ) : ℕ := (idx + 1) % Cap

/-- `push(value)`: write at the head; a full buffer also advances its tail. -/
def RingBuffer.push (rb : RingBuffer T Cap) (value : T) : RingBuffer T Cap :=
  let storage := rb.storage.set rb.head value
  let head := next Cap rb.head
  if rb.size < Cap then ⟨storage, head, rb.tail, rb.size + 1⟩
  else ⟨storage, head, next Cap rb.tail, rb.size⟩

/-- `clear()`: the slots keep their stale elements. -/
def RingBuffer.clear (rb : RingBuffer T Cap) : RingBuffer T Cap := ⟨rb.storage, 0, 0, 0⟩

/-- `snapshot()`: the slots from the tail on, oldest first. -/
def RingBuffer.snapshot (rb : RingBuffer T Cap) : List T :=
  (List.range rb.size).filterMap fun i => rb.storage[(rb.tail + i) % Cap]?

/-- The buffer stores exactly the elements of a list, oldest first. -/
structure Holds (rb : RingBuffer T Cap) (xs : List T) : Prop where
  /-- Every slot exists. -/
  slots : rb.storage.length = Cap
  /-- The read position is a slot. -/
  tail_lt : rb.tail < Cap
  /-- The count is the length of the content. -/
  size_eq : rb.size = xs.length
  /-- The content fits. -/
  size_le : xs.length ≤ Cap
  /-- The write position follows the newest element. -/
  head_eq : rb.head = (rb.tail + rb.size) % Cap
  /-- The slots from the tail on are the content. -/
  cell : ∀ i < xs.length, rb.storage[(rb.tail + i) % Cap]? = xs[i]?

/-- Offsets within one revolution address different slots. -/
theorem slot_ne {tail i j : ℕ} (ht : tail < Cap) (hij : i < j) (hj : j < Cap) :
    (tail + i) % Cap ≠ (tail + j) % Cap := by
  have slot : ∀ k < Cap, (tail + k) % Cap =
      if tail + k < Cap then tail + k else tail + k - Cap := by
    intro k hk
    split
    · next h => exact Nat.mod_eq_of_lt h
    · next h => rw [Nat.mod_eq_sub_mod (by omega), Nat.mod_eq_of_lt (by omega)]
  rw [slot i (by omega), slot j hj]
  split <;> split <;> omega

/-- Advancing the read position shifts every offset by one. -/
theorem next_add_mod (tail i : ℕ) : (next Cap tail + i) % Cap = (tail + (i + 1)) % Cap := by
  rw [next, Nat.mod_add_mod]
  congr 1
  omega

/-- A new buffer stores nothing. -/
theorem holds_init (default : T) (hC : 0 < Cap) :
    Holds (RingBuffer.init default : RingBuffer T Cap) [] where
  slots := List.length_replicate
  tail_lt := hC
  size_eq := rfl
  size_le := Nat.zero_le _
  head_eq := (Nat.zero_mod Cap).symm
  cell := by simp

/-- A cleared buffer stores nothing. -/
theorem holds_clear {rb : RingBuffer T Cap} {xs : List T} (h : Holds rb xs) :
    Holds rb.clear [] where
  slots := h.slots
  tail_lt := Nat.lt_of_le_of_lt (Nat.zero_le _) h.tail_lt
  size_eq := rfl
  size_le := Nat.zero_le _
  head_eq := (Nat.zero_mod Cap).symm
  cell := by simp

/-- A push into a buffer with room appends. -/
theorem holds_push_room {rb : RingBuffer T Cap} {xs : List T} (h : Holds rb xs) (value : T)
    (hr : xs.length < Cap) : Holds (rb.push value) (xs ++ [value]) := by
  have hs : rb.size < Cap := h.size_eq ▸ hr
  have hp : rb.push value =
      ⟨rb.storage.set rb.head value, next Cap rb.head, rb.tail, rb.size + 1⟩ := if_pos hs
  have hh : rb.head < rb.storage.length := by
    rw [h.slots, h.head_eq]
    exact Nat.mod_lt _ (by omega)
  rw [hp]
  refine ⟨by simpa using h.slots, h.tail_lt, by simp [h.size_eq],
    by simpa using Nat.succ_le_of_lt hr, ?_, ?_⟩
  · simp only [next, h.head_eq, Nat.mod_add_mod]
    congr 1
  · intro i hi
    simp only
    obtain hlt | rfl := Nat.lt_succ_iff_lt_or_eq.mp (by simpa using hi : i < xs.length + 1)
    · have hne : rb.head ≠ (rb.tail + i) % Cap := by
        rw [h.head_eq, h.size_eq]
        exact (slot_ne h.tail_lt hlt hr).symm
      rw [List.getElem?_set_ne hne, h.cell i hlt, List.getElem?_append_left hlt]
    · have he : (rb.tail + xs.length) % Cap = rb.head := by rw [h.head_eq, h.size_eq]
      rw [he, List.getElem?_set_self hh, List.getElem?_concat_length]

/-- A push into a full buffer drops the oldest element. -/
theorem holds_push_full {rb : RingBuffer T Cap} {xs : List T} (h : Holds rb xs) (value : T)
    (hf : xs.length = Cap) : Holds (rb.push value) (xs.drop 1 ++ [value]) := by
  have hC : 0 < Cap := Nat.lt_of_le_of_lt (Nat.zero_le _) h.tail_lt
  have hs : ¬rb.size < Cap := by rw [h.size_eq, hf]; exact Nat.lt_irrefl _
  have hp : rb.push value =
      ⟨rb.storage.set rb.head value, next Cap rb.head, next Cap rb.tail, rb.size⟩ := if_neg hs
  have ht : rb.head = rb.tail := by
    rw [h.head_eq, h.size_eq, hf, Nat.add_mod_right, Nat.mod_eq_of_lt h.tail_lt]
  have hh : rb.head < rb.storage.length := by rw [h.slots, ht]; exact h.tail_lt
  rw [hp]
  refine ⟨by simpa using h.slots, Nat.mod_lt _ hC, ?_, ?_, ?_, ?_⟩
  · simp only [List.length_append, List.length_drop, List.length_singleton]
    have := h.size_eq
    omega
  · simp only [List.length_append, List.length_drop, List.length_singleton]
    omega
  · simp only [next, ht, h.size_eq, hf, Nat.add_mod_right, Nat.mod_mod]
  · intro i hi
    have hlen : (xs.drop 1).length + 1 = Cap := by simp only [List.length_drop]; omega
    simp only [List.length_append, List.length_singleton, hlen] at hi
    simp only [next_add_mod]
    obtain hlt | he := Nat.lt_or_ge i (xs.drop 1).length
    · have hi1 : i + 1 < Cap := by omega
      have hne : rb.head ≠ (rb.tail + (i + 1)) % Cap := by
        have hz : rb.head = (rb.tail + 0) % Cap := by
          rw [Nat.add_zero, Nat.mod_eq_of_lt h.tail_lt, ht]
        rw [hz]
        exact slot_ne h.tail_lt (Nat.succ_pos i) hi1
      rw [List.getElem?_set_ne hne, h.cell (i + 1) (by omega), List.getElem?_append_left hlt,
        List.getElem?_drop, Nat.add_comm]
    · have hi1 : i = (xs.drop 1).length := by omega
      have hslot : (rb.tail + (i + 1)) % Cap = rb.head := by
        rw [hi1, hlen, Nat.add_mod_right, Nat.mod_eq_of_lt h.tail_lt, ht]
      rw [hslot, List.getElem?_set_self hh, hi1, List.getElem?_concat_length]

/-- Every push keeps the last `Cap` elements of the extended content. -/
theorem holds_push {rb : RingBuffer T Cap} {xs : List T} (h : Holds rb xs) (value : T) :
    Holds (rb.push value) ((xs ++ [value]).rtake Cap) := by
  have hC : 0 < Cap := Nat.lt_of_le_of_lt (Nat.zero_le _) h.tail_lt
  obtain hr | hf := Nat.lt_or_eq_of_le h.size_le
  · have hk : (xs ++ [value]).rtake Cap = xs ++ [value] := by
      rw [List.rtake, List.length_append, List.length_singleton,
        Nat.sub_eq_zero_of_le hr, List.drop_zero]
    rw [hk]
    exact holds_push_room h value hr
  · have hk : (xs ++ [value]).rtake Cap = xs.drop 1 ++ [value] := by
      rw [List.rtake, List.length_append, List.length_singleton, hf, Nat.add_sub_cancel_left,
        List.drop_append_of_le_length (by omega)]
    rw [hk]
    exact holds_push_full h value hf

theorem map_rtake {α β : Type*} (f : α → β) (xs : List α) (limit : ℕ) :
    (xs.map f).rtake limit = (xs.rtake limit).map f := by
  rw [List.rtake, List.rtake, List.map_drop, List.length_map]

/-- Keeping the last elements after each of two steps is keeping them once. -/
theorem rtake_concat_rtake (xs : List T) (value : T) :
    (xs.rtake Cap ++ [value]).rtake Cap = (xs ++ [value]).rtake Cap := by
  cases Cap with
  | zero => rw [List.rtake_zero, List.rtake_zero]
  | succ k =>
    rw [List.rtake_concat_succ, List.rtake_concat_succ]
    congr 1
    simp only [List.rtake_eq_reverse_take_reverse, List.reverse_reverse, List.take_take]
    rw [Nat.min_eq_left (Nat.le_succ k)]

/-- A snapshot returns the content. -/
theorem snapshot_eq {rb : RingBuffer T Cap} {xs : List T} (h : Holds rb xs) :
    rb.snapshot = xs := by
  have hcells : ∀ n ≤ xs.length, (List.range n).filterMap
      (fun i => rb.storage[(rb.tail + i) % Cap]?) = xs.take n := by
    intro n hn
    induction n with
    | zero => rfl
    | succ n ih =>
      rw [List.range_succ, List.filterMap_append, ih (by omega)]
      have hlt : n < xs.length := by omega
      simp only [List.filterMap_cons, List.filterMap_nil, h.cell n hlt,
        List.getElem?_eq_getElem hlt, List.take_add_one, Option.toList_some]
  rw [RingBuffer.snapshot, h.size_eq, hcells _ le_rfl, List.take_length]

section histories

/-- A call that changes a buffer. -/
inductive Mutation (T : Type*)
  /-- `push(value)`. -/
  | push (value : T)
  /-- `clear()`. -/
  | clear

/-- What a call does to a buffer. -/
def RingBuffer.apply (rb : RingBuffer T Cap) : Mutation T → RingBuffer T Cap
  | .push value => rb.push value
  | .clear => rb.clear

/-- A new buffer after some calls. -/
def RingBuffer.run (default : T) (calls : List (Mutation T)) : RingBuffer T Cap :=
  calls.foldl RingBuffer.apply (.init default)

/-- What a call does to the elements pushed since the last clear. -/
def extend (pushed : List T) : Mutation T → List T
  | .push value => pushed ++ [value]
  | .clear => []

/-- The elements pushed since the last clear. -/
def pushedSinceClear (calls : List (Mutation T)) : List T := calls.foldl extend []

/-- Every call keeps the buffer at the last elements of the history. -/
theorem holds_apply {rb : RingBuffer T Cap} {pushed : List T} (h : Holds rb (pushed.rtake Cap))
    (call : Mutation T) : Holds (rb.apply call) ((extend pushed call).rtake Cap) := by
  cases call with
  | push value =>
    have hpush := holds_push h value
    rwa [rtake_concat_rtake] at hpush
  | clear =>
    rw [extend, List.rtake_nil]
    exact holds_clear h

/-- After any calls the buffer holds the last elements of the history. -/
theorem holds_run (hC : 0 < Cap) (default : T) (calls : List (Mutation T)) :
    Holds (RingBuffer.run default calls : RingBuffer T Cap)
      ((pushedSinceClear calls).rtake Cap) := by
  induction calls using List.reverseRecOn with
  | nil =>
    have hempty : (pushedSinceClear ([] : List (Mutation T))).rtake Cap = [] := List.rtake_nil Cap
    rw [hempty]
    exact holds_init default hC
  | append_singleton calls call ih =>
    rw [RingBuffer.run, pushedSinceClear, List.foldl_concat, List.foldl_concat]
    exact holds_apply ih call

/-- The buffer is a bounded queue: after any calls its size and its snapshot
are those of the last elements of the history, and every slot that a push or a
snapshot addresses exists. -/
theorem run_refines (hC : 0 < Cap) (default : T) (calls : List (Mutation T)) :
    let rb : RingBuffer T Cap := RingBuffer.run default calls
    let pushed := pushedSinceClear calls
    rb.size = min Cap pushed.length ∧
      rb.snapshot = pushed.rtake (min Cap pushed.length) ∧
      rb.head < Cap ∧ rb.tail < Cap ∧ rb.head = (rb.tail + rb.size) % Cap ∧
      rb.storage.length = Cap ∧
      ∀ i < rb.size, ∃ slot, rb.storage[(rb.tail + i) % Cap]? = some slot := by
  intro rb pushed
  have h : Holds rb (pushed.rtake Cap) := holds_run hC default calls
  have hlast : pushed.rtake Cap = pushed.rtake (min Cap pushed.length) := by
    rw [List.rtake, List.rtake]
    congr 1
    omega
  have hlen : (pushed.rtake Cap).length = min Cap pushed.length := by
    rw [List.rtake, List.length_drop]
    omega
  have hhead : rb.head < Cap := by
    rw [h.head_eq]
    exact Nat.mod_lt _ hC
  refine ⟨h.size_eq.trans hlen, (snapshot_eq h).trans hlast, hhead, h.tail_lt, h.head_eq, h.slots,
    fun i hi => ?_⟩
  have hslot : (rb.tail + i) % Cap < rb.storage.length := by
    rw [h.slots]
    exact Nat.mod_lt _ hC
  exact ⟨_, List.getElem?_eq_getElem hslot⟩

/-- One slot: the second push overwrites the first, and after a clear the next
one is alone. -/
theorem run_refines_one_slot :
    let rb : RingBuffer ℕ 1 := RingBuffer.run 0 [.push 7, .push 8, .clear, .push 9]
    let pushed := pushedSinceClear [.push 7, .push 8, .clear, .push 9]
    rb.size = min 1 pushed.length ∧
      rb.snapshot = pushed.rtake (min 1 pushed.length) ∧
      rb.head < 1 ∧ rb.tail < 1 ∧ rb.head = (rb.tail + rb.size) % 1 ∧
      rb.storage.length = 1 ∧
      ∀ i < rb.size, ∃ slot, rb.storage[(rb.tail + i) % 1]? = some slot :=
  run_refines (by decide) 0 [.push 7, .push 8, .clear, .push 9]

end histories

end Dlads.RingStorage
