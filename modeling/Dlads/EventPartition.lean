import Dlads.IndexedHistory

/-!
# The event index as a partition

The lists of an event index hold pointers into the snapshot. With pointers as
positions, equal events at different places are kept apart: each event of the
last day is in the list of its address and in the list of its source, once,
and in no other; the two windows hold the events that are recent enough; and
every list is in snapshot order.
-/

namespace Dlads.EventPartition

open ByteText StringMaps Records IndexedHistory

section positions

variable {α : Type*} (p : α → Bool) (xs : List α)

/-- The positions of the elements with a property, in order. -/
def positions : List ℕ := (xs.zipIdx.filter fun x => p x.1).map Prod.snd

variable {p xs}

theorem mem_positions {i : ℕ} : i ∈ positions p xs ↔ ∃ x, xs[i]? = some x ∧ p x = true := by
  unfold positions
  constructor
  · intro h
    obtain ⟨⟨x, k⟩, hx, rfl⟩ := List.mem_map.mp h
    obtain ⟨hmem, hp⟩ := List.mem_filter.mp hx
    exact ⟨x, List.mk_mem_zipIdx_iff_getElem?.mp hmem, hp⟩
  · rintro ⟨x, hx, hp⟩
    exact List.mem_map.mpr
      ⟨(x, i), List.mem_filter.mpr ⟨List.mk_mem_zipIdx_iff_getElem?.mpr hx, hp⟩, rfl⟩

variable (p xs)

theorem positions_pairwise : (positions p xs).Pairwise (· < ·) := by
  have hall : (xs.zipIdx.map Prod.snd).Pairwise (· < ·) := by
    rw [List.zipIdx_map_snd]
    exact List.pairwise_lt_range'
  exact hall.sublist (List.filter_sublist.map Prod.snd)

/-- The elements at the positions are those with the property. -/
theorem filterMap_positions : (positions p xs).filterMap (xs[·]?) = xs.filter p := by
  have hpoint : ∀ x ∈ xs.zipIdx.filter (fun x => p x.1), xs[x.2]? = some x.1 := fun x hx =>
    List.mem_zipIdx_iff_getElem?.mp (List.mem_filter.mp hx).1
  have hfst : xs.filter p = (xs.zipIdx.filter fun x => p x.1).map Prod.fst := by
    conv_lhs => rw [← List.zipIdx_map_fst 0 xs, List.filter_map]
    rfl
  rw [positions, List.filterMap_map, hfst, ← List.filterMap_eq_map]
  exact List.filterMap_congr hpoint

/-- More elements have a weaker property. -/
theorem positions_sublist {q : α → Bool} (h : ∀ x, p x = true → q x = true) :
    (positions p xs).Sublist (positions q xs) := by
  have hfilter : xs.zipIdx.filter (fun x => p x.1) =
      (xs.zipIdx.filter fun x => q x.1).filter fun x => p x.1 := by
    rw [List.filter_filter]
    refine List.filter_congr fun x _ => ?_
    cases hp : p x.1 with
    | false => rfl
    | true => simp [h x.1 hp]
  rw [positions, hfilter]
  exact List.filter_sublist.map Prod.snd

end positions

/-- `EventIndex`, its pointers as positions in the snapshot. -/
structure PointerIndex where
  /-- Pointers by extracted address. -/
  byIp : StringMap (List ℕ) := ∅
  /-- Pointers by log source. -/
  bySource : StringMap (List ℕ) := ∅
  /-- Pointers to the events of the last minute. -/
  last60s : List ℕ := []
  /-- Pointers to the events of the last five minutes. -/
  last300s : List ℕ := []

/-- One iteration of the loop in `build_index`, on an event and its position. -/
def indexPointer (now : ℤ) (idx : PointerIndex) (entry : LogEvent × ℕ) : PointerIndex :=
  if entry.1.timestamp < now - hours 24 then idx
  else
    let idx := { idx with
      byIp := pushBack idx.byIp (extractSrcIp entry.1) entry.2
      bySource := pushBack idx.bySource entry.1.logSource entry.2 }
    if now - seconds 300 ≤ entry.1.timestamp then
      let idx := { idx with last300s := idx.last300s ++ [entry.2] }
      if now - seconds 60 ≤ entry.1.timestamp then
        { idx with last60s := idx.last60s ++ [entry.2] }
      else idx
    else idx

/-- `RuleEngine::build_index`. -/
def buildPointers (snapshot : List LogEvent) (now : ℤ) : PointerIndex :=
  snapshot.zipIdx.foldl (indexPointer now) {}

/-- The events that are not older than a duration. -/
def within (duration now : ℤ) (ev : LogEvent) : Bool := now - duration ≤ ev.timestamp

/-- A grouping puts each event of the last day into the list of its key. -/
structure Partitions (snapshot : List LogEvent) (now : ℤ) (key : LogEvent → Bytes)
    (groups : StringMap (List ℕ)) : Prop where
  /-- An event of the last day is in the list of its key once, and in no other. -/
  once : ∀ i ev, snapshot[i]? = some ev → now - hours 24 ≤ ev.timestamp → ∀ k,
    (bucket groups k).count i = if k = key ev then 1 else 0
  /-- Nothing else is anywhere. -/
  only : ∀ k, ∀ i ∈ bucket groups k, ∃ ev, snapshot[i]? = some ev ∧
    now - hours 24 ≤ ev.timestamp ∧ key ev = k
  /-- Every list is in snapshot order. -/
  ordered : ∀ k, (bucket groups k).Pairwise (· < ·)

/-- A list holds the events from a time on, in snapshot order. -/
structure Window (snapshot : List LogEvent) (cutoff : ℤ) (pointers : List ℕ) : Prop where
  /-- Exactly these events. -/
  exact : ∀ i, i ∈ pointers ↔ ∃ ev, snapshot[i]? = some ev ∧ cutoff ≤ ev.timestamp
  /-- In snapshot order. -/
  ordered : pointers.Pairwise (· < ·)

section views

variable {snapshot : List LogEvent} {now : ℤ}

/-- An iteration appends the position to each view that admits the event. -/
theorem indexPointer_views (now : ℤ) (idx : PointerIndex) (entry : LogEvent × ℕ) :
    (indexPointer now idx entry).byIp =
        (if within (hours 24) now entry.1 then pushBack idx.byIp (extractSrcIp entry.1) entry.2
          else idx.byIp) ∧
      (indexPointer now idx entry).bySource =
        (if within (hours 24) now entry.1 then pushBack idx.bySource entry.1.logSource entry.2
          else idx.bySource) ∧
      (indexPointer now idx entry).last60s =
        (if within (seconds 60) now entry.1 then idx.last60s ++ [entry.2] else idx.last60s) ∧
      (indexPointer now idx entry).last300s =
        (if within (seconds 300) now entry.1 then idx.last300s ++ [entry.2]
          else idx.last300s) := by
  unfold indexPointer within hours seconds
  by_cases hday : entry.1.timestamp < now - 24 * 3600000000000
  · rw [if_pos hday, decide_eq_false (by omega), decide_eq_false (by omega),
      decide_eq_false (by omega)]
    exact ⟨rfl, rfl, rfl, rfl⟩
  · rw [if_neg hday, decide_eq_true (by omega : now - 24 * 3600000000000 ≤ entry.1.timestamp)]
    by_cases hfive : now - 300 * 1000000000 ≤ entry.1.timestamp
    · rw [if_pos hfive, decide_eq_true hfive]
      by_cases hone : now - 60 * 1000000000 ≤ entry.1.timestamp
      · rw [if_pos hone, decide_eq_true hone]
        exact ⟨rfl, rfl, rfl, rfl⟩
      · rw [if_neg hone, decide_eq_false hone]
        exact ⟨rfl, rfl, rfl, rfl⟩
    · rw [if_neg hfive, decide_eq_false hfive, decide_eq_false (by omega)]
      exact ⟨rfl, rfl, rfl, rfl⟩

/-- A grouping that each admitted position is pushed into, over a whole loop. -/
theorem foldl_indexPointer_groups (view : PointerIndex → StringMap (List ℕ))
    (key : LogEvent → Bytes) (hview : ∀ idx entry, view (indexPointer now idx entry) =
      if within (hours 24) now entry.1 then pushBack (view idx) (key entry.1) entry.2 else view idx)
    (entries : List (LogEvent × ℕ)) (idx : PointerIndex) :
    view (entries.foldl (indexPointer now) idx) =
      (entries.filter fun entry => within (hours 24) now entry.1).foldl
        (fun m entry => pushBack m (key entry.1) entry.2) (view idx) := by
  induction entries generalizing idx with
  | nil => rfl
  | cons entry rest ih =>
    rw [List.foldl_cons, ih, hview]
    by_cases hday : within (hours 24) now entry.1 = true
    · rw [if_pos hday, List.filter_cons, if_pos hday, List.foldl_cons]
    · rw [if_neg hday, List.filter_cons, if_neg hday]

/-- A window that each admitted position is appended to, over a whole loop. -/
theorem foldl_indexPointer_window (view : PointerIndex → List ℕ) (p : LogEvent → Bool)
    (hview : ∀ idx entry, view (indexPointer now idx entry) =
      if p entry.1 then view idx ++ [entry.2] else view idx)
    (entries : List (LogEvent × ℕ)) (idx : PointerIndex) :
    view (entries.foldl (indexPointer now) idx) =
      view idx ++ (entries.filter fun entry => p entry.1).map Prod.snd := by
  induction entries generalizing idx with
  | nil => rw [List.foldl_nil, List.filter_nil, List.map_nil, List.append_nil]
  | cons entry rest ih =>
    rw [List.foldl_cons, ih, hview]
    by_cases hp : p entry.1 = true
    · rw [if_pos hp, List.filter_cons, if_pos hp, List.map_cons, List.append_assoc,
        List.singleton_append]
    · rw [if_neg hp, List.filter_cons, if_neg hp]

/-- The list of a key holds the positions of the admitted events with this key. -/
theorem bucket_groups (view : PointerIndex → StringMap (List ℕ)) (key : LogEvent → Bytes)
    (hview : ∀ idx entry, view (indexPointer now idx entry) =
      if within (hours 24) now entry.1 then pushBack (view idx) (key entry.1) entry.2 else view idx)
    (hempty : view {} = ∅) (k : Bytes) : bucket (view (buildPointers snapshot now)) k =
      positions (fun ev => within (hours 24) now ev && key ev = k) snapshot := by
  rw [buildPointers, foldl_indexPointer_groups view key hview, hempty,
    bucket_foldl_pushBack_map (fun entry : LogEvent × ℕ => key entry.1) Prod.snd, bucket_empty,
    List.nil_append, List.filter_filter, positions]
  congr 1
  exact List.filter_congr fun x _ => Bool.and_comm _ _

theorem bucket_byIp (snapshot : List LogEvent) (now : ℤ) (ip : Bytes) :
    bucket (buildPointers snapshot now).byIp ip =
      positions (fun ev => within (hours 24) now ev && extractSrcIp ev = ip) snapshot :=
  bucket_groups PointerIndex.byIp extractSrcIp
    (fun idx entry => (indexPointer_views now idx entry).1) rfl ip

theorem bucket_bySource (snapshot : List LogEvent) (now : ℤ) (source : Bytes) :
    bucket (buildPointers snapshot now).bySource source =
      positions (fun ev => within (hours 24) now ev && ev.logSource = source) snapshot :=
  bucket_groups PointerIndex.bySource LogEvent.logSource
    (fun idx entry => (indexPointer_views now idx entry).2.1) rfl source

theorem last60s_eq (snapshot : List LogEvent) (now : ℤ) :
    (buildPointers snapshot now).last60s = positions (within (seconds 60) now) snapshot :=
  foldl_indexPointer_window PointerIndex.last60s (within (seconds 60) now)
    (fun idx entry => (indexPointer_views now idx entry).2.2.1) snapshot.zipIdx {}

theorem last300s_eq (snapshot : List LogEvent) (now : ℤ) :
    (buildPointers snapshot now).last300s = positions (within (seconds 300) now) snapshot :=
  foldl_indexPointer_window PointerIndex.last300s (within (seconds 300) now)
    (fun idx entry => (indexPointer_views now idx entry).2.2.2) snapshot.zipIdx {}

end views

section results

variable {snapshot : List LogEvent} {now : ℤ}

/-- A grouping whose lists are the positions of the admitted events by key. -/
theorem partitions_of_bucket {key : LogEvent → Bytes} {groups : StringMap (List ℕ)}
    (h : ∀ k, bucket groups k =
      positions (fun ev => within (hours 24) now ev && key ev = k) snapshot) :
    Partitions snapshot now key groups where
  once := by
    intro i ev hev hday k
    have hnodup : (bucket groups k).Nodup := by
      rw [h]
      exact (positions_pairwise _ _).imp fun hlt => hlt.ne
    have hmem : i ∈ bucket groups k ↔ k = key ev := by
      rw [h, mem_positions]
      constructor
      · rintro ⟨found, hfound, hp⟩
        obtain rfl := Option.some.inj (hev.symm.trans hfound)
        simp only [Bool.and_eq_true, decide_eq_true_eq] at hp
        exact hp.2.symm
      · rintro rfl
        exact ⟨ev, hev, by simpa [within] using hday⟩
    split
    · next hk => exact List.count_eq_one_of_mem hnodup (hmem.mpr hk)
    · next hk => exact List.count_eq_zero_of_not_mem fun hi => hk (hmem.mp hi)
  only := by
    intro k i hi
    rw [h, mem_positions] at hi
    obtain ⟨ev, hev, hp⟩ := hi
    simp only [Bool.and_eq_true, decide_eq_true_eq, within] at hp
    exact ⟨ev, hev, hp.1, hp.2⟩
  ordered := by
    intro k
    rw [h]
    exact positions_pairwise _ _

theorem window_positions (snapshot : List LogEvent) (duration now : ℤ) :
    Window snapshot (now - duration) (positions (within duration now) snapshot) where
  exact := by
    intro i
    rw [mem_positions]
    simp only [within, decide_eq_true_eq]
  ordered := positions_pairwise _ _

/-- The lists of the index as the rules see it are what the pointers point at. -/
theorem buildIndex_eq (snapshot : List LogEvent) (now : ℤ) :
    (∀ ip, bucket (buildIndex snapshot now).byIp ip =
      (bucket (buildPointers snapshot now).byIp ip).filterMap (snapshot[·]?)) ∧
    ∀ source, bucket (buildIndex snapshot now).bySource source =
      (bucket (buildPointers snapshot now).bySource source).filterMap (snapshot[·]?) := by
  constructor
  · intro ip
    rw [bucket_byIp_buildIndex, bucket_byIp, filterMap_positions, List.filter_filter]
    exact List.filter_congr fun ev _ => Bool.and_comm _ _
  · intro source
    rw [bucket_bySource_buildIndex, bucket_bySource, filterMap_positions, List.filter_filter]
    exact List.filter_congr fun ev _ => Bool.and_comm _ _

end results

/-- `build_index` partitions the events of the last day by address and by
source, and picks out the last minute and the last five minutes. -/
theorem index_partitions (snapshot : List LogEvent) (now : ℤ) :
    Partitions snapshot now extractSrcIp (buildPointers snapshot now).byIp ∧
    Partitions snapshot now LogEvent.logSource (buildPointers snapshot now).bySource ∧
    Window snapshot (now - seconds 60) (buildPointers snapshot now).last60s ∧
    Window snapshot (now - seconds 300) (buildPointers snapshot now).last300s ∧
    (buildPointers snapshot now).last60s.Sublist (buildPointers snapshot now).last300s := by
  refine ⟨partitions_of_bucket (bucket_byIp snapshot now),
    partitions_of_bucket (bucket_bySource snapshot now), ?_, ?_, ?_⟩
  · rw [last60s_eq]
    exact window_positions snapshot (seconds 60) now
  · rw [last300s_eq]
    exact window_positions snapshot (seconds 300) now
  · rw [last60s_eq, last300s_eq]
    refine positions_sublist _ _ fun ev hev => ?_
    have hone : now - 60 * 1000000000 ≤ ev.timestamp := of_decide_eq_true hev
    have hfive : now - 300 * 1000000000 ≤ ev.timestamp := by omega
    exact decide_eq_true hfive

/-- Two equal events of one address, one of another, and one that is too old. -/
example : let ev (ip : Bytes) (t : ℤ) : LogEvent :=
      { timestamp := seconds t, logSource := text "sshd", message := text "from " ++ ip }
    let idx := buildPointers [ev (text "1") 99900, ev (text "2") 99990, ev (text "1") 1,
      ev (text "1") 99900] (seconds 100000)
    bucket idx.byIp (text "1") = [0, 3] ∧ bucket idx.bySource (text "sshd") = [0, 1, 3] ∧
      idx.last60s = [1] ∧ idx.last300s = [0, 1, 3] := by
  decide +kernel

end Dlads.EventPartition
