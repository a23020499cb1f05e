import Mathlib.Data.List.Basic
import Mathlib.Tactic.Common

/-!
# Lists of keyed items

A list whose items have a key or none, and one item written for a key: each
item with the key is replaced, and without such an item the new one is
appended. The items without the key are what they were, in order. What a
search for another key finds, and what a traversal makes of the list as far as
it ignores the key, depend on these items only.
-/

namespace Dlads.KeyedItems

variable {α κ σ β : Type*} [BEq κ] (keyOf : α → Option κ) (key : κ) (new : α)

/-- Write an item for a key. -/
def overwrite (items : List α) : List α :=
  if items.any (keyOf · == some key) then
    items.map fun x => if keyOf x == some key then new else x
  else items ++ [new]

/-- The items without a key. -/
def others (items : List α) : List α := items.filter (keyOf · != some key)

variable {keyOf key new} {items : List α}

/-- Overwriting brings in nothing but the new item. -/
theorem mem_overwrite {x : α} (h : x ∈ overwrite keyOf key new items) : x = new ∨ x ∈ items := by
  unfold overwrite at h
  split at h
  · obtain ⟨y, hy, hx⟩ := List.mem_map.mp h
    split at hx
    · exact .inl hx.symm
    · exact .inr (hx ▸ hy)
  · rcases List.mem_append.mp h with h | h
    · exact .inr h
    · exact .inl (List.mem_singleton.mp h)

/-- Two keys that agree on which items are meant overwrite the same items. -/
theorem overwrite_congr {keyOf' : α → Option κ}
    (h : ∀ x ∈ items, (keyOf x == some key) = (keyOf' x == some key)) :
    overwrite keyOf key new items = overwrite keyOf' key new items := by
  have hany : items.any (keyOf · == some key) = items.any (keyOf' · == some key) := by
    rw [Bool.eq_iff_iff, List.any_eq_true, List.any_eq_true]
    exact exists_congr fun x => and_congr_right fun hx => by rw [h x hx]
  have hmap : (items.map fun x => if keyOf x == some key then new else x) =
      items.map fun x => if keyOf' x == some key then new else x :=
    List.map_congr_left fun x hx => by rw [h x hx]
  rw [overwrite, overwrite, hany, hmap]

variable [LawfulBEq κ]

/-- Replacing the items with the key leaves the others. -/
theorem others_replace (hnew : keyOf new = some key) :
    others keyOf key (items.map fun x => if keyOf x == some key then new else x) =
      others keyOf key items := by
  have hdrop : (keyOf new != some key) = false := by simp [hnew]
  unfold others
  induction items with
  | nil => rfl
  | cons x rest ih =>
    rw [List.map_cons, List.filter_cons, List.filter_cons, ih]
    cases hx : keyOf x == some key with
    | true =>
      have hout : (keyOf x != some key) = false := by simp [bne, hx]
      rw [if_pos rfl, hdrop, hout, if_neg Bool.false_ne_true, if_neg Bool.false_ne_true]
    | false => rw [if_neg Bool.false_ne_true]

/-- The items without the key stay, in order. -/
theorem others_overwrite (hnew : keyOf new = some key) :
    others keyOf key (overwrite keyOf key new items) = others keyOf key items := by
  unfold overwrite
  split
  · exact others_replace hnew
  · have hdrop : (keyOf new != some key) = false := by simp [hnew]
    rw [others, List.filter_append, List.filter_singleton, hdrop, cond_false, List.append_nil,
      others]

/-- The first item with the key is the new one. -/
theorem find_overwrite (hnew : keyOf new = some key) :
    (overwrite keyOf key new items).find? (keyOf · == some key) = some new := by
  have hfound : (keyOf new == some key) = true := by simp [hnew]
  unfold overwrite
  split
  · next hany =>
    induction items with
    | nil => cases hany
    | cons x rest ih =>
      rw [List.map_cons, List.find?_cons]
      cases hx : keyOf x == some key with
      | true => simp only [if_true, hfound]
      | false =>
        rw [List.any_cons, hx, Bool.false_or] at hany
        simp only [Bool.false_eq_true, if_false, hx]
        exact ih hany
  · next hany =>
    have hnone : items.find? (keyOf · == some key) = none := by
      rw [List.find?_eq_none]
      intro x hx hkey
      exact hany (List.any_eq_true.mpr ⟨x, hx, hkey⟩)
    rw [List.find?_append, hnone, List.find?_singleton, if_pos hfound]
    rfl

/-- A search for another key finds nothing but items without the key. -/
theorem find_others {k : κ} (hk : k ≠ key) :
    (others keyOf key items).find? (keyOf · == some k) = items.find? (keyOf · == some k) := by
  rw [others, List.find?_filter]
  congr 1
  funext x
  cases hx : keyOf x == some k with
  | true =>
    have hother : keyOf x ≠ some key := by
      rw [beq_iff_eq.mp hx]
      exact fun h => hk (Option.some.inj h)
    simpa using hother
  | false => simp

/-- A traversal that observes nothing of the items with the key. -/
theorem foldl_others {step : σ → α → σ} {observe : σ → β}
    (hstep : ∀ s s' x, observe s = observe s' → observe (step s x) = observe (step s' x))
    (hskip : ∀ s x, keyOf x = some key → observe (step s x) = observe s) {s s' : σ}
    (hs : observe s = observe s') :
    observe ((others keyOf key items).foldl step s) = observe (items.foldl step s') := by
  induction items generalizing s s' with
  | nil => exact hs
  | cons x rest ih =>
    rw [others, List.filter_cons, ← others]
    cases hx : keyOf x == some key with
    | true =>
      have hsame := hskip s' x (beq_iff_eq.mp hx)
      simp only [bne, hx, Bool.not_true, Bool.false_eq_true, if_false]
      exact ih (hs.trans hsame.symm)
    | false =>
      simp only [bne, hx, Bool.not_false, if_true]
      exact ih (hstep s s' x hs)

end Dlads.KeyedItems
