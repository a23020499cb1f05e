import Mathlib.Data.Finmap
import Mathlib.Data.Finset.Sort
import Dlads.ByteText

/-!
# Finite maps keyed by byte strings

The extensional reading of `std::unordered_map<std::string, V>`: finitely many
keys, each with one value, and no iteration order to observe. Lookup after an
update is stated as a case distinction on the key, which is the only fact the
users of these maps need.
-/

namespace Dlads.StringMaps

open ByteText

/-- Strings compare byte by byte; with the two instances below, what sorting
them asks for. -/
instance (priority := high) bytesLeTrans : IsTrans Bytes (· ≤ ·) :=
  inferInstanceAs (IsTrans (List UInt8) (· ≤ ·))

instance (priority := high) bytesLeAntisymm : Std.Antisymm fun s t : Bytes => s ≤ t :=
  inferInstanceAs (Std.Antisymm fun s t : List UInt8 => s ≤ t)

instance (priority := high) bytesLeTotal : Std.Total fun s t : Bytes => s ≤ t :=
  inferInstanceAs (Std.Total fun s t : List UInt8 => s ≤ t)

/-- A finite map from strings. -/
abbrev StringMap (V : Type*) := Finmap (fun _ : Bytes => V)

variable {V : Type*}

/-- `map[key] = value`, overwriting. -/
def assign (m : StringMap V) (key : Bytes) (value : V) : StringMap V := m.insert key value

/-- `map.emplace(key, value)`, which keeps an existing entry. -/
def emplace (m : StringMap V) (key : Bytes) (value : V) : StringMap V :=
  if key ∈ m then m else m.insert key value

/-- `map[key].push_back(value)` on a map of vectors. -/
def pushBack (m : StringMap (List V)) (key : Bytes) (value : V) : StringMap (List V) :=
  m.insert key ((m.lookup key).getD [] ++ [value])

/-- The vector under a key, empty when the key is absent. -/
def bucket (m : StringMap (List V)) (key : Bytes) : List V := (m.lookup key).getD []

/-- The values in the order of their keys, as a range `for` over a `std::map` meets them. -/
def values (m : StringMap V) : List V := (m.keys.sort (· ≤ ·)).filterMap m.lookup

/-- `map[key] = f(map[key])` where there is an entry. -/
def update (f : V → V) (m : StringMap V) (key : Bytes) : StringMap V :=
  match m.lookup key with
  | some value => assign m key (f value)
  | none => m

/-- A range `for` over a map that changes each value in place. -/
def updateAll (f : V → V) (m : StringMap V) : StringMap V :=
  (m.keys.sort (· ≤ ·)).foldl (update f) m

@[simp] theorem lookup_assign (m : StringMap V) (key key' : Bytes) (value : V) :
    (assign m key value).lookup key' = if key' = key then some value else m.lookup key' := by
  unfold assign
  split
  · next h => rw [h, Finmap.lookup_insert]
  · next h => rw [Finmap.lookup_insert_of_ne _ h]

@[simp] theorem lookup_update (f : V → V) (m : StringMap V) (key key' : Bytes) :
    (update f m key).lookup key' = if key' = key then (m.lookup key').map f else m.lookup key' := by
  unfold update
  obtain rfl | hk := eq_or_ne key' key
  · rw [if_pos rfl]
    cases hv : m.lookup key' with
    | none => exact hv
    | some value => simp
  · rw [if_neg hk]
    cases hv : m.lookup key with
    | none => rfl
    | some value => simp [hk]

theorem lookup_foldl_update (f : V → V) (keys : List Bytes) (hkeys : keys.Nodup)
    (m : StringMap V) (key : Bytes) : (keys.foldl (update f) m).lookup key =
      if key ∈ keys then (m.lookup key).map f else m.lookup key := by
  induction keys generalizing m with
  | nil => rfl
  | cons k keys ih =>
    obtain ⟨hk, hrest⟩ := List.nodup_cons.mp hkeys
    rw [List.foldl_cons, ih hrest, lookup_update]
    obtain rfl | hne := eq_or_ne key k
    · rw [if_neg hk, if_pos rfl, if_pos List.mem_cons_self]
    · simp only [List.mem_cons, hne, false_or, if_false]

/-- Changing each value in place changes the value of every key. -/
@[simp] theorem lookup_updateAll (f : V → V) (m : StringMap V) (key : Bytes) :
    (updateAll f m).lookup key = (m.lookup key).map f := by
  rw [updateAll, lookup_foldl_update f _ (Finset.sort_nodup ..)]
  split
  · rfl
  · next h =>
    have hkey : key ∉ m := by simpa [Finmap.mem_keys] using h
    rw [Finmap.lookup_eq_none.mpr hkey, Option.map_none]

/-- The values of a map are those under its keys. -/
theorem mem_values {m : StringMap V} {value : V} :
    value ∈ values m ↔ ∃ key, m.lookup key = some value := by
  rw [values, List.mem_filterMap]
  constructor
  · rintro ⟨key, -, hkey⟩
    exact ⟨key, hkey⟩
  · rintro ⟨key, hkey⟩
    have hmem : key ∈ m := Finmap.mem_iff.mpr ⟨value, hkey⟩
    exact ⟨key, by simpa [Finmap.mem_keys] using hmem, hkey⟩

/-- The values of a map, counted by key. -/
theorem countP_values (p : V → Bool) (m : StringMap V) : (values m).countP p =
    (m.keys.filter fun key => (m.lookup key).any p).card := by
  have hkeys : ∀ keys : List Bytes, (keys.filterMap m.lookup).countP p =
      keys.countP fun key => (m.lookup key).any p := by
    intro keys
    induction keys with
    | nil => rfl
    | cons k keys ih =>
      cases hv : m.lookup k with
      | none => simp [hv, ih]
      | some value => simp [hv, ih, List.countP_cons]
  have hsorted : (m.keys.sort (· ≤ ·)).countP (fun key => (m.lookup key).any p) =
      Multiset.countP (fun key => (m.lookup key).any p = true) m.keys.val := by
    rw [← Finset.sort_eq m.keys (· ≤ ·), Multiset.coe_countP]
    simp
  rw [values, hkeys, hsorted, Multiset.countP_eq_card_filter]
  rfl

@[simp] theorem lookup_erase (m : StringMap V) (key key' : Bytes) :
    (m.erase key).lookup key' = if key' = key then none else m.lookup key' := by
  split
  · next h => rw [h, Finmap.lookup_erase]
  · next h => rw [Finmap.lookup_erase_ne h]

/-- Emplacing only fills a hole. -/
@[simp] theorem lookup_emplace (m : StringMap V) (key key' : Bytes) (value : V) :
    (emplace m key value).lookup key' =
      if key' = key then some ((m.lookup key).getD value) else m.lookup key' := by
  unfold emplace
  by_cases hm : key ∈ m
  · obtain ⟨v, hv⟩ := Finmap.mem_iff.mp hm
    obtain rfl | hk := eq_or_ne key' key
    · simp [hm, hv]
    · simp [hm, hk]
  · have hn : m.lookup key = none := Finmap.lookup_eq_none.mpr hm
    rw [if_neg hm]
    obtain rfl | hk := eq_or_ne key' key
    · rw [Finmap.lookup_insert, if_pos rfl, hn, Option.getD_none]
    · rw [Finmap.lookup_insert_of_ne _ hk, if_neg hk]

/-- Appending to one bucket leaves the others alone. -/
@[simp] theorem bucket_pushBack (m : StringMap (List V)) (key key' : Bytes) (value : V) :
    bucket (pushBack m key value) key' =
      if key' = key then bucket m key ++ [value] else bucket m key' := by
  unfold bucket pushBack
  obtain rfl | hk := eq_or_ne key' key
  · rw [Finmap.lookup_insert, if_pos rfl, Option.getD_some]
  · rw [Finmap.lookup_insert_of_ne _ hk, if_neg hk]

/-- Grouping values by a key: each bucket holds the values of the elements with
its key, in the order of the list. -/
theorem bucket_foldl_pushBack_map {ι : Type*} (key : ι → Bytes) (value : ι → V) (xs : List ι)
    (m : StringMap (List V)) (k : Bytes) :
    bucket (xs.foldl (fun m x => pushBack m (key x) (value x)) m) k =
      bucket m k ++ (xs.filter fun x => key x = k).map value := by
  induction xs generalizing m with
  | nil => rw [List.foldl_nil, List.filter_nil, List.map_nil, List.append_nil]
  | cons x xs ih =>
    rw [List.foldl_cons, ih, bucket_pushBack]
    by_cases hk : key x = k
    · rw [if_pos hk.symm, List.filter_cons_of_pos (by simpa using hk), hk, List.map_cons,
        List.append_assoc, List.singleton_append]
    · rw [if_neg (Ne.symm hk), List.filter_cons_of_neg (by simpa using hk)]

/-- Grouping a list by a key: each bucket is the sublist with its key, in the
order of the list. -/
theorem bucket_foldl_pushBack (key : V → Bytes) (xs : List V) (m : StringMap (List V))
    (k : Bytes) :
    bucket (xs.foldl (fun m x => pushBack m (key x) x) m) k =
      bucket m k ++ xs.filter fun x => key x = k := by
  rw [bucket_foldl_pushBack_map key (fun x => x), List.map_id']

@[simp] theorem bucket_empty (key : Bytes) : bucket (∅ : StringMap (List V)) key = [] := rfl

end Dlads.StringMaps
