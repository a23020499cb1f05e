import Mathlib.Data.List.Nodup
import Mathlib.Data.Finset.Card
import Mathlib.Tactic.Common

/-!
# Quorums over a sliding window

Arrivals are numbered. Some of them concern a topic, each comes from a source,
and an arrival stays fresh for later ones for a while. A topic records the
arrivals that may still count: on each arrival that concerns it, stale ones
are dropped, the arrival is added unless its source is recorded, and as soon
as a quorum of arrivals is recorded the topic fires and starts over. Recorded
arrivals come from distinct sources, in order, after the last firing; a firing
therefore names a quorum of sources, and no arrival serves two firings.
-/

namespace Dlads.WindowQuorum

/-- The arrivals as one topic sees them. -/
structure Topic (N : Type*) where
  /-- Source of an arrival. -/
  source : ℕ → N
  /-- The arrival concerns the topic. -/
  concerns : ℕ → Bool
  /-- An earlier arrival is fresh at a later one. -/
  fresh : ℕ → ℕ → Bool
  /-- Arrivals needed. -/
  quorum : ℤ

variable {N : Type*} [DecidableEq N] (topic : Topic N)

/-- The recorded arrivals with a new one: stale ones dropped, the new one added
unless its source is still recorded. -/
def Topic.enroll (n : ℕ) (recorded : List ℕ) : List ℕ :=
  let kept := recorded.filter (topic.fresh n ·)
  if kept.any (topic.source · = topic.source n) then kept else kept ++ [n]

/-- The arrivals recorded before an arrival. -/
def Topic.recorded : ℕ → List ℕ
  | 0 => []
  | n + 1 =>
    if topic.concerns n then
      let enrolled := topic.enroll n (recorded n)
      if (enrolled.length : ℤ) < topic.quorum then enrolled else []
    else recorded n

/-- The arrivals that count at an arrival, itself included. -/
def Topic.enrolled (n : ℕ) : List ℕ := topic.enroll n (topic.recorded n)

theorem Topic.recorded_succ (n : ℕ) : topic.recorded (n + 1) =
    if topic.concerns n then
      if ((topic.enrolled n).length : ℤ) < topic.quorum then topic.enrolled n else []
    else topic.recorded n := rfl

/-- The topic fires at an arrival. -/
def Topic.Fires (n : ℕ) : Prop :=
  topic.concerns n = true ∧ topic.quorum ≤ ((topic.enrolled n).length : ℤ)

/-- What holds of arrivals that count: they are numbered below a bound, and
nothing fired between them and arrival `n`. -/
structure Topic.Tracked (n bound : ℕ) (arrivals : List ℕ) : Prop where
  /-- They are below the bound. -/
  below : ∀ i ∈ arrivals, i < bound
  /-- They concern the topic. -/
  concern : ∀ i ∈ arrivals, topic.concerns i = true
  /-- They came after every firing before `n`. -/
  since : ∀ i ∈ arrivals, ∀ m < n, topic.Fires m → m < i
  /-- They stand in order of arrival. -/
  sorted : arrivals.Pairwise (· < ·)
  /-- They come from distinct sources. -/
  sources : (arrivals.map topic.source).Nodup

/-- Nothing counts right after a firing. -/
theorem tracked_nil (n bound : ℕ) : topic.Tracked n bound [] :=
  ⟨by simp, by simp, by simp, List.Pairwise.nil, List.nodup_nil⟩

variable {topic}

/-- Dropping arrivals keeps what is known of the others. -/
theorem Topic.Tracked.filter {n bound : ℕ} {arrivals : List ℕ}
    (h : topic.Tracked n bound arrivals) (p : ℕ → Bool) :
    topic.Tracked n bound (arrivals.filter p) where
  below := fun i hi => h.below i (List.mem_of_mem_filter hi)
  concern := fun i hi => h.concern i (List.mem_of_mem_filter hi)
  since := fun i hi => h.since i (List.mem_of_mem_filter hi)
  sorted := h.sorted.filter p
  sources := h.sources.sublist (List.filter_sublist.map topic.source)

/-- An arrival without a firing lets what counts stand. -/
theorem Topic.Tracked.succ {n bound : ℕ} {arrivals : List ℕ}
    (h : topic.Tracked n bound arrivals) (hf : ¬topic.Fires n) :
    topic.Tracked (n + 1) bound arrivals := by
  refine ⟨h.below, h.concern, ?_, h.sorted, h.sources⟩
  intro i hi m hm hfm
  rcases Nat.lt_succ_iff_lt_or_eq.mp hm with hlt | rfl
  · exact h.since i hi m hlt hfm
  · exact absurd hfm hf

/-- A later bound is a bound. -/
theorem Topic.Tracked.mono {n bound bound' : ℕ} {arrivals : List ℕ}
    (h : topic.Tracked n bound arrivals) (hb : bound ≤ bound') :
    topic.Tracked n bound' arrivals :=
  ⟨fun i hi => Nat.lt_of_lt_of_le (h.below i hi) hb, h.concern, h.since, h.sorted, h.sources⟩

/-- An enrolled arrival is a fresh recorded one or the new one. -/
theorem mem_enroll {n i : ℕ} {recorded : List ℕ} (hi : i ∈ topic.enroll n recorded) :
    (i ∈ recorded ∧ topic.fresh n i = true) ∨ i = n := by
  unfold Topic.enroll at hi
  dsimp only at hi
  split at hi
  · exact .inl (List.mem_filter.mp hi)
  · rcases List.mem_append.mp hi with hi | hi
    · exact .inl (List.mem_filter.mp hi)
    · exact .inr (List.mem_singleton.mp hi)

/-- Fresh recorded arrivals stay enrolled. -/
theorem mem_enroll_of_fresh {n i : ℕ} {recorded : List ℕ} (hi : i ∈ recorded)
    (hf : topic.fresh n i = true) : i ∈ topic.enroll n recorded := by
  have hk : i ∈ recorded.filter (topic.fresh n ·) := List.mem_filter.mpr ⟨hi, hf⟩
  unfold Topic.enroll
  dsimp only
  split
  · exact hk
  · exact List.mem_append_left _ hk

/-- The source of the new arrival is among the enrolled ones. -/
theorem source_mem_enroll (n : ℕ) (recorded : List ℕ) :
    topic.source n ∈ (topic.enroll n recorded).map topic.source := by
  unfold Topic.enroll
  dsimp only
  split
  · next hany =>
    rcases List.any_eq_true.mp hany with ⟨i, hi, hs⟩
    exact List.mem_map.mpr ⟨i, hi, of_decide_eq_true hs⟩
  · exact List.mem_map_of_mem (List.mem_append_right _ (List.mem_singleton_self n))

/-- Enrolling an arrival keeps distinct sources in order of arrival. -/
theorem Topic.Tracked.enroll {n : ℕ} {recorded : List ℕ} (h : topic.Tracked n n recorded)
    (hc : topic.concerns n = true) : topic.Tracked n (n + 1) (topic.enroll n recorded) := by
  have hk := h.filter (topic.fresh n ·)
  have hs := hk.mono (Nat.le_succ n)
  unfold Topic.enroll
  dsimp only
  split
  · exact hs
  · next hnew =>
    have hnot : ∀ i ∈ recorded.filter (topic.fresh n ·), topic.source i ≠ topic.source n := by
      intro i hi he
      exact hnew (List.any_eq_true.mpr ⟨i, hi, decide_eq_true he⟩)
    constructor
    · intro i hi
      rcases List.mem_append.mp hi with hi | hi
      · exact hs.below i hi
      · rw [List.mem_singleton.mp hi]
        exact Nat.lt_succ_self n
    · intro i hi
      rcases List.mem_append.mp hi with hi | hi
      · exact hs.concern i hi
      · rw [List.mem_singleton.mp hi]
        exact hc
    · intro i hi m hm hfm
      rcases List.mem_append.mp hi with hi | hi
      · exact hs.since i hi m hm hfm
      · rw [List.mem_singleton.mp hi]
        exact hm
    · refine List.pairwise_append.mpr ⟨hk.sorted, List.pairwise_singleton _ _, ?_⟩
      intro i hi j hj
      rw [List.mem_singleton.mp hj]
      exact hk.below i hi
    · rw [List.map_append, List.map_singleton]
      refine List.Nodup.append hk.sources (List.nodup_singleton _) ?_
      intro s hs' hs''
      rcases List.mem_map.mp hs' with ⟨i, hi, rfl⟩
      exact hnot i hi (List.mem_singleton.mp hs'')

/-- What is recorded before an arrival counts there. -/
theorem tracked_recorded (topic : Topic N) (n : ℕ) : topic.Tracked n n (topic.recorded n) := by
  induction n with
  | zero => exact tracked_nil topic 0 0
  | succ n ih =>
    rw [Topic.recorded_succ]
    split
    · next hc =>
      split
      · next hlt =>
        have hf : ¬topic.Fires n := fun h => absurd h.2 (not_le.mpr hlt)
        exact (ih.enroll hc).succ hf
      · exact tracked_nil topic _ _
    · next hc =>
      have hf : ¬topic.Fires n := fun h => hc h.1
      exact (ih.succ hf).mono (Nat.le_succ n)

/-- What is enrolled at an arrival counts there. -/
theorem tracked_enrolled {n : ℕ} (hc : topic.concerns n = true) :
    topic.Tracked n (n + 1) (topic.enrolled n) :=
  (tracked_recorded topic n).enroll hc

/-- Less than a quorum is ever recorded. -/
theorem recorded_length_lt (hq : 0 < topic.quorum) (n : ℕ) :
    ((topic.recorded n).length : ℤ) < topic.quorum := by
  induction n with
  | zero => exact hq
  | succ n ih =>
    rw [Topic.recorded_succ]
    split
    · split
      · next hlt => exact hlt
      · exact hq
    · exact ih

/-- A quorum of sources, each the new one or that of a fresh recorded arrival,
makes the topic fire. -/
theorem fires_of_sources {n : ℕ} (hc : topic.concerns n = true) {sources : Finset N}
    (hq : topic.quorum ≤ (sources.card : ℤ))
    (hs : ∀ s ∈ sources, s = topic.source n ∨
      ∃ i ∈ topic.recorded n, topic.source i = s ∧ topic.fresh n i = true) :
    topic.Fires n := by
  refine ⟨hc, le_trans hq ?_⟩
  have hsub : sources ⊆ ((topic.enrolled n).map topic.source).toFinset := by
    intro s hmem
    rw [List.mem_toFinset]
    rcases hs s hmem with rfl | ⟨i, hi, rfl, hf⟩
    · exact source_mem_enroll n (topic.recorded n)
    · exact List.mem_map_of_mem (mem_enroll_of_fresh hi hf)
  have hle := le_trans (Finset.card_le_card hsub) (List.toFinset_card_le _)
  rw [List.length_map] at hle
  exact_mod_cast hle

section leading

variable (topic)

/-- What is fresh at an arrival was fresh at every one before it. -/
def Topic.Waning : Prop :=
  ∀ i k n, i ≤ k → k ≤ n → topic.fresh n i = true → topic.fresh k i = true

/-- An arrival leads its source: every earlier leading arrival of the source is
stale by then or was cleared away since. -/
def Topic.Leads (cleared : ℕ → Prop) (n : ℕ) : Prop :=
  ∀ j, j < n → Topic.Leads cleared j → topic.concerns j = true →
    topic.source j = topic.source n → topic.fresh n j = true → ∃ m, j ≤ m ∧ m < n ∧ cleared m
termination_by n

/-- An arrival stands at a later one or at itself: it leads its source, nothing
was cleared since, and it is fresh. -/
structure Topic.Stands (cleared : ℕ → Prop) (n i : ℕ) : Prop where
  /-- It is no later. -/
  le : i ≤ n
  /-- It concerns the topic. -/
  concerns : topic.concerns i = true
  /-- It leads its source. -/
  leads : topic.Leads cleared i
  /-- Nothing was cleared since. -/
  kept : ∀ m, i ≤ m → m < n → ¬cleared m
  /-- It is the later one itself or fresh there. -/
  fresh : i = n ∨ topic.fresh n i = true

/-- An arrival lasts until a later one: it leads its source, was not cleared
away by a firing and was fresh at every arrival since. -/
def Topic.Lasts (n i : ℕ) : Prop :=
  i < n ∧ topic.concerns i = true ∧ topic.Leads topic.Fires i ∧
    (∀ m, i ≤ m → m < n → ¬topic.Fires m) ∧
      ∀ k, i < k → k < n → topic.concerns k = true → topic.fresh k i = true

variable {topic}

omit [DecidableEq N] in
theorem leads_iff {cleared : ℕ → Prop} (n : ℕ) : topic.Leads cleared n ↔
    ∀ j, j < n → topic.Leads cleared j → topic.concerns j = true →
      topic.source j = topic.source n → topic.fresh n j = true →
        ∃ m, j ≤ m ∧ m < n ∧ cleared m := by
  rw [Topic.Leads]

/-- What is enrolled are the fresh recorded arrivals, and the new one if none
of them has its source. -/
theorem mem_enroll_iff {n i : ℕ} {recorded : List ℕ} : i ∈ topic.enroll n recorded ↔
    (i ∈ recorded ∧ topic.fresh n i = true) ∨
      i = n ∧ ∀ j ∈ recorded, topic.fresh n j = true → topic.source j ≠ topic.source n := by
  have hany : ((recorded.filter (topic.fresh n ·)).any (topic.source · = topic.source n)) = true ↔
      ¬∀ j ∈ recorded, topic.fresh n j = true → topic.source j ≠ topic.source n := by
    simp only [List.any_eq_true, List.mem_filter, decide_eq_true_eq, ne_eq, not_forall, not_not]
    constructor
    · rintro ⟨j, ⟨hj, hf⟩, he⟩
      exact ⟨j, hj, hf, he⟩
    · rintro ⟨j, hj, hf, he⟩
      exact ⟨j, ⟨hj, hf⟩, he⟩
  unfold Topic.enroll
  dsimp only
  split
  · next h =>
    rw [List.mem_filter]
    constructor
    · exact fun hi => .inl hi
    · rintro (hi | ⟨-, hnone⟩)
      · exact hi
      · exact absurd hnone (hany.mp h)
  · next h =>
    have hnone := not_not.mp fun hc => h (hany.mpr hc)
    rw [List.mem_append, List.mem_filter, List.mem_singleton]
    constructor
    · rintro (hi | rfl)
      · exact .inl hi
      · exact .inr ⟨rfl, hnone⟩
    · rintro (hi | ⟨rfl, -⟩)
      · exact .inl hi
      · exact .inr rfl

/-- Where nothing fires, what lasts is what lasted and is still fresh, and an
arrival that leads its source. -/
theorem lasts_succ_iff {n : ℕ} (hquiet : ¬topic.Fires n) (i : ℕ) : topic.Lasts (n + 1) i ↔
    (topic.Lasts n i ∧ (topic.concerns n = true → topic.fresh n i = true)) ∨
      i = n ∧ topic.concerns n = true ∧ topic.Leads topic.Fires n := by
  constructor
  · rintro ⟨hin, hic, hil, hkept, hfresh⟩
    rcases Nat.lt_succ_iff_lt_or_eq.mp hin with hlt | rfl
    · exact .inl ⟨⟨hlt, hic, hil, fun m him hm => hkept m him (Nat.lt_succ_of_lt hm),
        fun k hik hk => hfresh k hik (Nat.lt_succ_of_lt hk)⟩, hfresh n hlt (Nat.lt_succ_self n)⟩
    · exact .inr ⟨rfl, hic, hil⟩
  · rintro (⟨⟨hin, hic, hil, hkept, hfresh⟩, hf⟩ | ⟨rfl, hic, hil⟩)
    · refine ⟨Nat.lt_succ_of_lt hin, hic, hil, ?_, ?_⟩
      · intro m him hm
        rcases Nat.lt_succ_iff_lt_or_eq.mp hm with hmn | rfl
        · exact hkept m him hmn
        · exact hquiet
      · intro k hik hk hkc
        rcases Nat.lt_succ_iff_lt_or_eq.mp hk with hkn | rfl
        · exact hfresh k hik hkn hkc
        · exact hf hkc
    · refine ⟨Nat.lt_succ_self i, hic, hil, ?_, fun k hik hk => by omega⟩
      intro m him hm
      have hmi : m = i := by omega
      exact hmi ▸ hquiet

/-- An arrival leads its source exactly if nothing recorded has it. -/
theorem leads_iff_recorded (hw : topic.Waning) {n : ℕ}
    (hrecorded : ∀ j, j ∈ topic.recorded n ↔ topic.Lasts n j) :
    topic.Leads topic.Fires n ↔ ∀ j ∈ topic.recorded n,
      topic.fresh n j = true → topic.source j ≠ topic.source n := by
  rw [leads_iff]
  constructor
  · intro h j hj hf he
    obtain ⟨hjn, hjc, hjl, hkept, -⟩ := (hrecorded j).mp hj
    obtain ⟨m, hjm, hmn, hfires⟩ := h j hjn hjl hjc he hf
    exact hkept m hjm hmn hfires
  · intro h j hjn hjl hjc he hf
    by_contra hkept
    have hnone : ∀ m, j ≤ m → m < n → ¬topic.Fires m := fun m hjm hmn hfires =>
      hkept ⟨m, hjm, hmn, hfires⟩
    exact h j ((hrecorded j).mpr ⟨hjn, hjc, hjl, hnone, fun k hjk hkn _ =>
      hw j k n (Nat.le_of_lt hjk) (Nat.le_of_lt hkn) hf⟩) hf he

/-- What is recorded before an arrival is what lasts until it. -/
theorem mem_recorded_iff (hw : topic.Waning) (n i : ℕ) :
    i ∈ topic.recorded n ↔ topic.Lasts n i := by
  induction n generalizing i with
  | zero => exact ⟨fun h => absurd h List.not_mem_nil, fun h => absurd h.1 (Nat.not_lt_zero i)⟩
  | succ n ih =>
    rw [Topic.recorded_succ]
    by_cases hc : topic.concerns n = true
    · rw [if_pos hc]
      split
      · next hlt =>
        have hquiet : ¬topic.Fires n := fun h => absurd h.2 (not_le.mpr hlt)
        rw [Topic.enrolled, mem_enroll_iff, ← leads_iff_recorded hw ih, ih, lasts_succ_iff hquiet]
        simp only [hc, true_implies, true_and]
      · next hge =>
        have hfires : topic.Fires n := ⟨hc, not_lt.mp hge⟩
        constructor
        · intro h
          cases h
        · rintro ⟨hin, -, -, hkept, -⟩
          exact absurd hfires (hkept n (Nat.lt_succ_iff.mp hin) (Nat.lt_succ_self n))
    · rw [if_neg hc, ih, lasts_succ_iff fun h => hc h.1]
      simp [hc]

/-- What counts at an arrival is what stands there. -/
theorem mem_enrolled_iff (hw : topic.Waning) {n : ℕ} (hc : topic.concerns n = true) (i : ℕ) :
    i ∈ topic.enrolled n ↔ topic.Stands topic.Fires n i := by
  rw [Topic.enrolled, mem_enroll_iff, ← leads_iff_recorded hw (mem_recorded_iff hw n)]
  constructor
  · rintro (⟨hi, hf⟩ | ⟨rfl, hil⟩)
    · obtain ⟨hin, hic, hil, hkept, -⟩ := (mem_recorded_iff hw n i).mp hi
      exact ⟨Nat.le_of_lt hin, hic, hil, hkept, .inr hf⟩
    · exact ⟨Nat.le_refl i, hc, hil, fun m him hm => by omega, .inl rfl⟩
  · intro h
    rcases h.le.lt_or_eq with hlt | rfl
    · have hf : topic.fresh n i = true := h.fresh.resolve_left (Nat.ne_of_lt hlt)
      exact .inl ⟨(mem_recorded_iff hw n i).mpr ⟨hlt, h.concerns, h.leads, h.kept,
        fun k hik hkn _ => hw i k n (Nat.le_of_lt hik) (Nat.le_of_lt hkn) hf⟩, hf⟩
    · exact .inr ⟨rfl, h.leads⟩

/-- The arrival that makes a topic fire counts. -/
theorem self_mem_enrolled {n : ℕ} (h : topic.Fires n) : n ∈ topic.enrolled n := by
  by_contra hnot
  rw [Topic.enrolled, mem_enroll_iff] at hnot
  obtain ⟨j, hj, hf, he⟩ : ∃ j ∈ topic.recorded n, topic.fresh n j = true ∧
      topic.source j = topic.source n := by
    by_contra hnone
    exact hnot (.inr ⟨rfl, fun j hj hf he => hnone ⟨j, hj, hf, he⟩⟩)
  -- then no arrival is added to those recorded, and they are too few
  have hkept : topic.enrolled n = (topic.recorded n).filter (topic.fresh n ·) := by
    unfold Topic.enrolled Topic.enroll
    dsimp only
    rw [if_pos]
    exact List.any_eq_true.mpr ⟨j, List.mem_filter.mpr ⟨hj, hf⟩, decide_eq_true he⟩
  have hle : (topic.enrolled n).length ≤ (topic.recorded n).length := by
    rw [hkept]
    exact List.length_filter_le _ _
  have hpos : 0 < (topic.recorded n).length := List.length_pos_of_mem hj
  have hfew : 0 < topic.quorum → ((topic.recorded n).length : ℤ) < topic.quorum := fun hq =>
    recorded_length_lt hq n
  have hnil : topic.quorum ≤ 0 → topic.recorded n = [] := by
    intro hq
    clear hj hf he hkept hle hpos hfew hnot h j
    induction n with
    | zero => rfl
    | succ n ih =>
      rw [Topic.recorded_succ, if_neg (show ¬((topic.enrolled n).length : ℤ) < topic.quorum by omega),
        ih, ite_self]
  have hquorum := h.2
  rcases lt_or_ge 0 topic.quorum with hq | hq
  · have := hfew hq
    omega
  · rw [hnil hq] at hpos
    exact absurd hpos (Nat.lt_irrefl 0)

end leading

section quiet

/-- After a firing, while nothing fires and everything stays fresh, every source
that arrives is recorded. -/
theorem recorded_source {m n : ℕ} (hfire : topic.Fires m)
    (hquiet : ∀ k, m < k → k < n → ¬topic.Fires k)
    (hfresh : ∀ i k, m < i → i < k → k < n → topic.fresh k i = true) {i : ℕ} (hmi : m < i)
    (hin : i < n) (hc : topic.concerns i = true) :
    ∃ j ∈ topic.recorded n, m < j ∧ topic.source j = topic.source i := by
  induction n with
  | zero => exact absurd hin (Nat.not_lt_zero i)
  | succ n ih =>
    have hback : i < n → ∃ j ∈ topic.recorded n, m < j ∧ topic.source j = topic.source i :=
      ih (fun k hk hkn => hquiet k hk (Nat.lt_succ_of_lt hkn))
        fun i k hi hik hkn => hfresh i k hi hik (Nat.lt_succ_of_lt hkn)
    rw [Topic.recorded_succ]
    by_cases hcn : topic.concerns n = true
    · have hmn : m < n := Nat.lt_of_lt_of_le hmi (Nat.lt_succ_iff.mp hin)
      have hlt : ((topic.enrolled n).length : ℤ) < topic.quorum := by
        by_contra hge
        exact hquiet n hmn (Nat.lt_succ_self n) ⟨hcn, not_lt.mp hge⟩
      rw [if_pos hcn, if_pos hlt]
      rcases Nat.lt_succ_iff_lt_or_eq.mp hin with hlt' | rfl
      · obtain ⟨j, hj, hmj, he⟩ := hback hlt'
        have hjn := (tracked_recorded topic n).below j hj
        exact ⟨j, mem_enroll_of_fresh hj (hfresh j n hmj hjn (Nat.lt_succ_self n)), hmj, he⟩
      · have hmem : topic.source i ∈ (topic.enrolled i).map topic.source :=
          source_mem_enroll i (topic.recorded i)
        obtain ⟨j, hj, he⟩ := List.mem_map.mp hmem
        exact ⟨j, hj, (tracked_enrolled hcn).since j hj m hmn hfire, he⟩
    · have hne : i ≠ n := by
        rintro rfl
        exact hcn hc
      rw [if_neg hcn]
      exact hback (by omega)

end quiet

end Dlads.WindowQuorum
