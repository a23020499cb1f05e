import Dlads.ThreatSeverity

/-!
# How far apart threats are

A threat takes the entries of its address away, which keeps the same alerts
from completing another. It does not keep the same nodes from reporting again:
as soon as enough of them have, the next threat is returned, however short the
time. Within the window after a threat every report stays, so that threats are
spaced by the window exactly if too few nodes report in it.
-/

namespace Dlads.ThreatSpacing

open ByteText Records Correlation WindowQuorum CorrelationHistory ThreatSeverity

variable (run : Run)

/-- Two threats about one address are more than the window apart. -/
def Spaced : Prop :=
  ∀ x m n, m < n → ThreatAbout run x m → ThreatAbout run x n →
    seconds run.windowSec < run.clock n - run.clock m

/-- A host has reported an address after one ingest and up to another. -/
def ReportedBetween (x : Bytes) (m n : ℕ) (node : Bytes) : Prop :=
  ∃ i, m < i ∧ i ≤ n ∧ run.address i = x ∧ run.host i = node

/-- As long as the window after a threat about an address lasts, fewer hosts
report the address again than a threat takes. -/
def Calm : Prop :=
  ∀ x m n, m < n → ThreatAbout run x m → run.clock n - run.clock m ≤ seconds run.windowSec →
    ∀ nodes : Finset Bytes, (∀ node ∈ nodes, ReportedBetween run x m n node) →
      (nodes.card : ℤ) < run.threshold

variable {run}

/-- Alerts that arrive within the window after one reading are fresh at each
other. -/
theorem fresh_of_within (hclock : Monotone run.clock) {m n : ℕ}
    (hwithin : run.clock n - run.clock m ≤ seconds run.windowSec) (x : Bytes) {i k : ℕ}
    (hmi : m < i) (hik : i < k) (hkn : k ≤ n) : (run.topic x).fresh k i = true := by
  have hmi' := hclock (Nat.le_of_lt hmi)
  have hik' := hclock (Nat.le_of_lt hik)
  have hkn' := hclock hkn
  have hle : wholeSeconds (run.clock k - run.clock i) ≤ run.windowSec := by
    unfold wholeSeconds
    unfold seconds at hwithin
    rw [Int.tdiv_eq_ediv_of_nonneg (by omega)]
    omega
  change (!decide (run.windowSec < wholeSeconds (run.clock k - run.clock i))) = true
  simpa using hle

/-- Enough hosts that report an address within the window after a threat about
it complete another threat there. -/
theorem exists_threat_between (hclock : Monotone run.clock) {x : Bytes} {m n : ℕ}
    (hpos : 0 < run.threshold) (ht : ThreatAbout run x m)
    (hwithin : run.clock n - run.clock m ≤ seconds run.windowSec) {nodes : Finset Bytes}
    (hnodes : ∀ node ∈ nodes, ReportedBetween run x m n node)
    (hcard : run.threshold ≤ (nodes.card : ℤ)) : ∃ k, m < k ∧ k ≤ n ∧ ThreatAbout run x k := by
  by_contra hnone
  have hfire : (run.topic x).Fires m := (fires_iff run m x).mpr ht
  have hquiet : ∀ k, m < k → k ≤ n → ¬(run.topic x).Fires k := fun k hmk hkn hf =>
    hnone ⟨k, hmk, hkn, (fires_iff run k x).mp hf⟩
  -- the last report of the address up to `n`
  obtain ⟨node, hnode⟩ : nodes.Nonempty := by
    rw [← Finset.card_pos]
    omega
  obtain ⟨i, hmi, hin, hxi, -⟩ := hnodes node hnode
  obtain ⟨last, ⟨hml, hln, hxl⟩, hlast⟩ : ∃ last, (m < last ∧ last ≤ n ∧ run.address last = x) ∧
      ∀ k, (m < k ∧ k ≤ n ∧ run.address k = x) → k ≤ last := by
    have hfind := Nat.findGreatest_spec (P := fun k => m < k ∧ run.address k = x) hin ⟨hmi, hxi⟩
    refine ⟨_, ⟨hfind.1, Nat.findGreatest_le n, hfind.2⟩, fun k hk => ?_⟩
    exact Nat.le_findGreatest hk.2.1 ⟨hk.1, hk.2.2⟩
  have hc : (run.topic x).concerns last = true := decide_eq_true hxl
  refine hquiet last hml hln (fires_of_sources hc hcard fun s hs => ?_)
  obtain ⟨j, hmj, hjn, hxj, hhost⟩ := hnodes s hs
  rcases (hlast j ⟨hmj, hjn, hxj⟩).lt_or_eq with hjl | rfl
  · obtain ⟨e, he, hme, hsource⟩ := recorded_source hfire
      (fun k hmk hkl => hquiet k hmk (by omega))
      (fun a k hma hak hkl => fresh_of_within hclock hwithin x hma hak (by omega)) hmj hjl
      (decide_eq_true hxj)
    have hel := (tracked_recorded (run.topic x) last).below e he
    exact .inr ⟨e, he, hsource.trans hhost, fresh_of_within hclock hwithin x hme hel hln⟩
  · exact .inl hhost.symm

/-- Threats are spaced by the window exactly if too few hosts report again in
the window after each. -/
theorem spaced_iff (run : Run) (hk : 2 ≤ run.threshold) (hclock : Monotone run.clock) :
    Spaced run ↔ Calm run := by
  constructor
  · intro h x m n hmn ht hwithin nodes hnodes
    by_contra hge
    obtain ⟨k, hmk, hkn, htk⟩ :=
      exists_threat_between hclock (by omega) ht hwithin hnodes (not_lt.mp hge)
    have hfar := h x m k hmk ht htk
    have hle := hclock hkn
    omega
  · intro h x m n hmn htm htn
    by_contra hnear
    have hf : (run.topic x).Fires n := (fires_iff run n x).mpr htn
    have hfm : (run.topic x).Fires m := (fires_iff run m x).mpr htm
    have htracked := tracked_enrolled hf.1
    have hfew := h x m n hmn htm (not_lt.mp hnear)
      (((run.topic x).enrolled n).map (run.topic x).source).toFinset ?_
    · rw [List.toFinset_card_of_nodup htracked.sources, List.length_map] at hfew
      exact absurd hf.2 (not_le.mpr hfew)
    · intro node hnode
      obtain ⟨i, hi, rfl⟩ := List.mem_map.mp (List.mem_toFinset.mp hnode)
      exact ⟨i, htracked.since i hi m hmn hfm, Nat.lt_succ_iff.mp (htracked.below i hi),
        of_decide_eq_true (htracked.concern i hi), rfl⟩

/-- Nodes `A` and `B` report in turn every second. -/
def busyRun : Run where
  windowSec := 120
  threshold := 2
  alerts := fun n => alertFrom (if n % 2 = 0 then text "A" else text "B")
  clock := fun n => seconds n

theorem busyRun_monotone : Monotone busyRun.clock := by
  intro m n hmn
  change seconds m ≤ seconds n
  unfold seconds
  omega

/-- Every other report is a threat, two seconds after the one before. -/
theorem busyRun_not_spaced : ¬∀ run : Run, 2 ≤ run.threshold → Monotone run.clock →
    Spaced run := by
  intro h
  have hthreats : ((busyRun.threatAt 1).map CorrelatedThreat.sourceIp = some (text "x")) ∧
      (busyRun.threatAt 3).map CorrelatedThreat.sourceIp = some (text "x") := by decide +kernel
  have habout : ∀ n, (busyRun.threatAt n).map CorrelatedThreat.sourceIp = some (text "x") →
      ThreatAbout busyRun (text "x") n := by
    intro n hn
    obtain ⟨threat, ht, hx⟩ := Option.map_eq_some_iff.mp hn
    exact ⟨threat, ht, hx⟩
  have hfar := h busyRun (by decide) busyRun_monotone (text "x") 1 3 (by decide)
    (habout 1 hthreats.1) (habout 3 hthreats.2)
  exact absurd hfar (by decide)

/-- Within the window after a threat of the two attacks one node reports at
most. -/
theorem twiceRun_one_host {m n : ℕ} (ht : ThreatAbout twiceRun (text "x") m)
    (hwithin : twiceRun.clock n - twiceRun.clock m ≤ seconds twiceRun.windowSec) :
    ∃ host, ∀ i, m < i → i ≤ n → twiceRun.host i = host := by
  by_cases hm : m < 6
  · have hthree : m = 3 := by
      obtain ⟨threat, ht, -⟩ := ht
      have hsome := (twiceRun_threats.1 m (by omega)).mp (ht ▸ rfl)
      omega
    subst hthree
    have hn : n < 5 := by
      by_contra hge
      have hlate : seconds 500 ≤ twiceRun.clock n := twiceRun_monotone (not_lt.mp hge)
      have hstart : twiceRun.clock 3 = seconds 300 := rfl
      have hwindow : twiceRun.windowSec = 120 := rfl
      rw [hstart, hwindow] at hwithin
      unfold seconds at hlate hwithin
      omega
    refine ⟨text "A", fun i hmi hin => ?_⟩
    rw [twiceRun_host, if_neg (by omega)]
  · refine ⟨text "B", fun i hmi hin => ?_⟩
    rw [twiceRun_host, if_pos (by omega)]

/-- Two threats about one address, spaced by more than the window. -/
theorem twiceRun_spaced : Spaced twiceRun ∧ ThreatAbout twiceRun (text "x") 3 ∧
    ThreatAbout twiceRun (text "x") 6 := by
  have habout : ∀ m, m = 3 ∨ m = 6 → ThreatAbout twiceRun (text "x") m := by
    intro m hm
    obtain ⟨threat, ht, hx, -⟩ := twiceRun_threatAt hm
    exact ⟨threat, ht, hx⟩
  refine ⟨(spaced_iff twiceRun (by decide) twiceRun_monotone).mpr ?_, habout 3 (.inl rfl),
    habout 6 (.inr rfl)⟩
  intro x m n hmn ht hwithin nodes hnodes
  have hx : x = text "x" := by
    obtain ⟨threat, ht, rfl⟩ := ht
    obtain ⟨-, rfl⟩ := (threatAt_eq_some twiceRun).mp ht
    exact twiceRun_address m
  obtain ⟨host, hhost⟩ := twiceRun_one_host (hx ▸ ht) hwithin
  have hsub : nodes ⊆ {host} := by
    intro node hnode
    obtain ⟨i, hmi, hin, -, rfl⟩ := hnodes node hnode
    exact Finset.mem_singleton.mpr (hhost i hmi hin)
  have hle := Finset.card_le_card hsub
  rw [Finset.card_singleton] at hle
  change (nodes.card : ℤ) < 2
  omega

end Dlads.ThreatSpacing
