import Mathlib.Data.List.Basic
import Mathlib.Tactic.Common

/-!
# Channels that lose messages

A channel takes messages, loses some of them at any place, and hands over the
oldest one it still holds. What has been handed over and what it still holds
are, in order, among what it took, and the number of the others is that of the
losses.
-/

namespace Dlads.LossyChannel

/-- A channel and its history. -/
structure Channel (α : Type*) where
  /-- What it took, in order. -/
  sent : List α
  /-- What it holds. -/
  inFlight : List α
  /-- What it handed over, in order. -/
  received : List α
  /-- How many messages it lost. -/
  lost : ℕ

variable {α : Type*}

/-- A channel that took nothing. -/
def Channel.empty : Channel α := ⟨[], [], [], 0⟩

namespace Channel

variable (c : Channel α)

/-- The channel takes a message, if there is one. -/
def put : Option α → Channel α
  | none => c
  | some m => { c with sent := c.sent ++ [m], inFlight := c.inFlight ++ [m] }

/-- The channel loses the message at a place. -/
def lose (k : ℕ) : Channel α :=
  if k < c.inFlight.length then
    { c with inFlight := c.inFlight.eraseIdx k, lost := c.lost + 1 }
  else c

/-- The channel hands over its oldest message. -/
def take : Channel α :=
  match c.inFlight with
  | [] => c
  | m :: rest => { c with inFlight := rest, received := c.received ++ [m] }

/-- What a channel handed over and holds is, in order, among what it took, and
the rest was lost. -/
structure Ordered : Prop where
  /-- Nothing is made up, doubled or overtaken. -/
  sublist : (c.received ++ c.inFlight).Sublist c.sent
  /-- Nothing disappears uncounted. -/
  balance : c.received.length + c.inFlight.length + c.lost = c.sent.length

variable {c}

theorem ordered_empty : (empty : Channel α).Ordered := ⟨.slnil, rfl⟩

theorem Ordered.put (h : c.Ordered) (m : Option α) : (c.put m).Ordered := by
  cases m with
  | none => exact h
  | some m =>
    have hbalance := h.balance
    refine ⟨?_, ?_⟩
    · change (c.received ++ (c.inFlight ++ [m])).Sublist (c.sent ++ [m])
      rw [← List.append_assoc]
      exact h.sublist.append_right [m]
    · simp only [Channel.put, List.length_append, List.length_singleton]
      omega

theorem Ordered.lose (h : c.Ordered) (k : ℕ) : (c.lose k).Ordered := by
  have hbalance := h.balance
  unfold Channel.lose
  split
  · next hk =>
    refine ⟨?_, ?_⟩
    · exact ((List.eraseIdx_sublist c.inFlight k).append_left c.received).trans h.sublist
    · simp only [List.length_eraseIdx_of_lt hk]
      omega
  · exact h

theorem Ordered.take (h : c.Ordered) : c.take.Ordered := by
  have hsublist := h.sublist
  have hbalance := h.balance
  unfold Channel.take
  split
  · exact h
  · next m rest heq =>
    rw [heq] at hsublist hbalance
    refine ⟨?_, ?_⟩
    · change (c.received ++ [m] ++ rest).Sublist c.sent
      rwa [List.append_assoc, List.singleton_append]
    · simp only [List.length_append, List.length_cons, List.length_nil] at hbalance ⊢
      omega

/-- What was handed over was taken before. -/
theorem Ordered.received_sublist (h : c.Ordered) : c.received.Sublist c.sent :=
  (List.sublist_append_left c.received c.inFlight).trans h.sublist

@[simp] theorem received_put (c : Channel α) (m : Option α) : (c.put m).received = c.received := by
  cases m <;> rfl

@[simp] theorem sent_lose (c : Channel α) (k : ℕ) : (c.lose k).sent = c.sent := by
  unfold Channel.lose
  split <;> rfl

@[simp] theorem received_lose (c : Channel α) (k : ℕ) : (c.lose k).received = c.received := by
  unfold Channel.lose
  split <;> rfl

@[simp] theorem sent_take (c : Channel α) : c.take.sent = c.sent := by
  unfold Channel.take
  split <;> rfl

theorem received_take_cons {m : α} {rest : List α} (h : c.inFlight = m :: rest) :
    c.take.received = c.received ++ [m] := by
  simp only [Channel.take, h]

/-- A loss takes nothing in. -/
theorem inFlight_lose_subset (c : Channel α) (k : ℕ) : (c.lose k).inFlight ⊆ c.inFlight := by
  unfold Channel.lose
  split
  · exact List.eraseIdx_subset
  · exact List.Subset.refl _

/-- Handing over takes nothing in. -/
theorem inFlight_take_subset (c : Channel α) : c.take.inFlight ⊆ c.inFlight := by
  unfold Channel.take
  split
  · exact List.Subset.refl _
  · next m rest h =>
    rw [h]
    exact List.subset_cons_self m rest

end Channel

end Dlads.LossyChannel
