import Mathlib.Data.Int.ConditionallyCompleteOrder
import Dlads.Correlation
import Dlads.WindowQuorum

/-!
# Correlation over whole runs

The entries stored under an address are the recorded arrivals of a windowed
quorum: the alerts for that address are its arrivals and the hosts their
sources. What the quorum guarantees is the soundness of threats. It is
complete only as far as a host's stored entry stands for all alerts of the
host, which it stops doing when a repeated alert outlives it.
-/

namespace Dlads.CorrelationHistory

open ByteText StringMaps Records StepMachine Correlation WindowQuorum

/-- A run of ingests on a new engine. -/
structure Run where
  /-- `window_sec_`. -/
  windowSec : ℤ
  /-- `threshold_`. -/
  threshold : ℤ
  /-- The alerts in order. -/
  alerts : ℕ → AlertEvent
  /-- The clock reading of each ingest. -/
  clock : ℕ → ℤ

namespace Run

variable (run : Run)

/-- The engine before an ingest. -/
def engineAt (n : ℕ) : CorrelationEngine :=
  correlator.stateAt (.init run.windowSec run.threshold) (fun k => (run.alerts k, run.clock k)) n

/-- What an ingest returns. -/
def threatAt (n : ℕ) : Option CorrelatedThreat :=
  correlator.outputAt (.init run.windowSec run.threshold) (fun k => (run.alerts k, run.clock k)) n

/-- Host of an alert. -/
def host (n : ℕ) : Bytes := (run.alerts n).sourceHost

/-- Address an alert is filed under. -/
def address (n : ℕ) : Bytes := sourceIp (run.alerts n)

/-- The entry an alert leaves. -/
def entry (n : ℕ) : Entry := entryOf (run.alerts n) (run.clock n)

/-- An address as a topic of the alerts. -/
def topic (x : Bytes) : Topic Bytes where
  source := run.host
  concerns := fun n => run.address n = x
  fresh := fun n i => inWindow run.windowSec (run.clock n) (run.clock i)
  quorum := run.threshold

end Run

section simulation

variable (run : Run)

theorem config_engineAt (n : ℕ) : (run.engineAt n).windowSec = run.windowSec ∧
    (run.engineAt n).threshold = run.threshold := by
  induction n with
  | zero => exact ⟨rfl, rfl⟩
  | succ n ih =>
    have hstep := ingest_config (run.engineAt n) (run.alerts n) (run.clock n)
    exact ⟨hstep.1.trans ih.1, hstep.2.trans ih.2⟩

/-- Eviction and insertion act on entries as enrolment does on arrivals. -/
theorem enrollEntry_map (x : Bytes) (n : ℕ) (arrivals : List ℕ) :
    enrollEntry run.windowSec (arrivals.map run.entry) (run.alerts n) (run.clock n) =
      ((run.topic x).enroll n arrivals).map run.entry := by
  have hkept : (arrivals.map run.entry).filter
      (fun e => inWindow run.windowSec (run.clock n) e.timestamp) =
      (arrivals.filter ((run.topic x).fresh n ·)).map run.entry := List.filter_map
  have hany : ((arrivals.filter ((run.topic x).fresh n ·)).map run.entry).any
      (fun e => e.nodeId = (run.alerts n).sourceHost) =
      (arrivals.filter ((run.topic x).fresh n ·)).any
        ((run.topic x).source · = (run.topic x).source n) := List.any_map
  unfold enrollEntry Topic.enroll
  dsimp only
  rw [hkept, hany]
  split
  · next hnew =>
    rw [if_neg (by simpa using hnew), List.map_append, List.map_singleton]
    rfl
  · next hold => rw [if_pos (by simpa using hold)]

/-- The entries under an address are those of its recorded alerts. -/
theorem bucket_engineAt (n : ℕ) (x : Bytes) :
    bucket (run.engineAt n).index x = ((run.topic x).recorded n).map run.entry := by
  induction n with
  | zero => rfl
  | succ n ih =>
    have hcfg := config_engineAt run n
    have hstep := bucket_ingest (run.engineAt n) (run.alerts n) (run.clock n) x
    change bucket ((run.engineAt n).ingest (run.alerts n) (run.clock n)).1.index x = _
    rw [hstep, ih, Topic.recorded_succ]
    by_cases hx : x = sourceIp (run.alerts n)
    · have hc : (run.topic x).concerns n = true := decide_eq_true hx.symm
      have hentries : ingestEntries (run.engineAt n) (run.alerts n) (run.clock n) =
          ((run.topic x).enrolled n).map run.entry := by
        rw [ingestEntries, ← hx, ih, hcfg.1, enrollEntry_map run x]
        rfl
      have hq : (run.topic x).quorum = run.threshold := rfl
      rw [if_pos hx, if_pos hc, hentries, List.length_map, hcfg.2, hq]
      split
      · rfl
      · rfl
    · have hc : ¬(run.topic x).concerns n = true := fun h => hx (of_decide_eq_true h).symm
      rw [if_neg hx, if_neg hc]

/-- The entries an ingest compares with the threshold are those of the alerts
its address admits. -/
theorem ingestEntries_eq (n : ℕ) :
    ingestEntries (run.engineAt n) (run.alerts n) (run.clock n) =
      ((run.topic (run.address n)).enrolled n).map run.entry := by
  rw [ingestEntries, bucket_engineAt, (config_engineAt run n).1,
    enrollEntry_map run (run.address n)]
  rfl

/-- An ingest returns a threat exactly when its address fires. -/
theorem threatAt_eq_some {n : ℕ} {threat : CorrelatedThreat} :
    run.threatAt n = some threat ↔ (run.topic (run.address n)).Fires n ∧
      threat = buildThreat (run.engineAt n) (run.alerts n) (run.clock n)
        (((run.topic (run.address n)).enrolled n).map run.entry) := by
  have hc : (run.topic (run.address n)).concerns n = true := decide_eq_true rfl
  have hout : run.threatAt n = ((run.engineAt n).ingest (run.alerts n) (run.clock n)).2 := rfl
  rw [hout, ingest_snd, ingestEntries_eq, List.length_map, (config_engineAt run n).2,
    Option.ite_none_left_eq_some, Option.some.injEq, not_lt]
  constructor
  · rintro ⟨hq, ht⟩
    exact ⟨⟨hc, hq⟩, ht.symm⟩
  · rintro ⟨hf, ht⟩
    exact ⟨hf.2, ht.symm⟩

/-- An address fires at an ingest exactly when a threat about it is returned. -/
theorem fires_iff (n : ℕ) (x : Bytes) : (run.topic x).Fires n ↔
    ∃ threat, run.threatAt n = some threat ∧ threat.sourceIp = x := by
  constructor
  · intro hf
    have hx : run.address n = x := of_decide_eq_true hf.1
    rw [← hx] at hf
    exact ⟨_, (threatAt_eq_some run).mpr ⟨hf, rfl⟩, hx⟩
  · rintro ⟨threat, ht, hx⟩
    rcases (threatAt_eq_some run).mp ht with ⟨hf, rfl⟩
    have haddr : run.address n = x := hx
    rw [← haddr]
    exact hf

end simulation

section soundness

/-- What a run's threats rest on: for each ingest the earlier ingests whose
alerts are its evidence. -/
structure Sound (run : Run) (evidence : ℕ → List ℕ) : Prop where
  /-- A threat is built from the entries of its evidence. -/
  built : ∀ n threat, run.threatAt n = some threat →
    threat = buildThreat (run.engineAt n) (run.alerts n) (run.clock n)
      ((evidence n).map run.entry)
  /-- It names the hosts of its evidence, all different. -/
  nodes : ∀ n threat, run.threatAt n = some threat →
    threat.confirmedByNodes = (evidence n).map run.host ∧ threat.confirmedByNodes.Nodup
  /-- It names enough of them. -/
  enough : ∀ n threat, run.threatAt n = some threat →
    run.threshold ≤ (threat.confirmedByNodes.length : ℤ)
  /-- Its evidence was ingested by then, for its address and in its window. -/
  recent : ∀ n threat, run.threatAt n = some threat → ∀ i ∈ evidence n, i ≤ n ∧
    run.address i = threat.sourceIp ∧ wholeSeconds (run.clock n - run.clock i) ≤ run.windowSec
  /-- Its evidence was ingested after every earlier threat for the address. -/
  since : ∀ n threat, run.threatAt n = some threat → ∀ m < n, ∀ earlier,
    run.threatAt m = some earlier → earlier.sourceIp = threat.sourceIp →
    ∀ i ∈ evidence n, m < i
  /-- No alert is evidence of two threats. -/
  once : ∀ m n, m ≠ n → (run.threatAt m).isSome → (run.threatAt n).isSome →
    (evidence m).Disjoint (evidence n)

/-- What holds of every list of entries between ingests. -/
structure WellFormed (threshold : ℤ) (entries : List Entry) : Prop where
  /-- Nodes are pairwise distinct. -/
  nodes : (entries.map Entry.nodeId).Nodup
  /-- Times do not decrease. -/
  times : entries.Pairwise fun e e' => e.timestamp ≤ e'.timestamp
  /-- There are too few for a threat. -/
  few : (entries.length : ℤ) < threshold

/-- The alerts an ingest's address admits, as the evidence of its threat. -/
def evidence (run : Run) (n : ℕ) : List ℕ := (run.topic (run.address n)).enrolled n

variable {run : Run}

theorem evidence_recent (hw : 0 ≤ run.windowSec) {n i : ℕ} (hi : i ∈ evidence run n) : i ≤ n ∧
    run.address i = run.address n ∧ wholeSeconds (run.clock n - run.clock i) ≤ run.windowSec := by
  have hc : (run.topic (run.address n)).concerns n = true := decide_eq_true rfl
  have ht := tracked_enrolled hc
  refine ⟨Nat.lt_succ_iff.mp (ht.below i hi), of_decide_eq_true (ht.concern i hi), ?_⟩
  rcases mem_enroll hi with ⟨-, hf⟩ | rfl
  · have hfresh : (!decide (run.windowSec < wholeSeconds (run.clock n - run.clock i))) = true := hf
    simpa using hfresh
  · rw [Int.sub_self]
    exact hw

theorem evidence_since {n m i : ℕ} (hi : i ∈ evidence run n) (hm : m < n)
    (hf : (run.topic (run.address n)).Fires m) : m < i := by
  have hc : (run.topic (run.address n)).concerns n = true := decide_eq_true rfl
  exact (tracked_enrolled hc).since i hi m hm hf

/-- An earlier threat's evidence is no later threat's. -/
theorem evidence_disjoint (hw : 0 ≤ run.windowSec) {m n : ℕ} (hmn : m < n)
    (hm : (run.threatAt m).isSome) : (evidence run m).Disjoint (evidence run n) := by
  intro i him hin
  rcases Option.isSome_iff_exists.mp hm with ⟨threat, ht⟩
  rcases evidence_recent hw him with ⟨hle, haddr, -⟩
  rcases evidence_recent hw hin with ⟨-, haddr', -⟩
  have hfires := ((threatAt_eq_some run).mp ht).1
  rw [← haddr, haddr'] at hfires
  have hlt := evidence_since hin hmn hfires
  omega

/-- Threats are sound and use each alert once, and between ingests every list
of entries is well formed. -/
theorem threats_sound (run : Run) (hw : 0 ≤ run.windowSec) (hk : 1 ≤ run.threshold)
    (hclock : Monotone run.clock) :
    (∃ evidence, Sound run evidence) ∧
      ∀ n x, WellFormed run.threshold (bucket (run.engineAt n).index x) := by
  constructor
  · refine ⟨evidence run, ?_, ?_, ?_, ?_, ?_, ?_⟩
    · intro n threat ht
      exact ((threatAt_eq_some run).mp ht).2
    · intro n threat ht
      rcases (threatAt_eq_some run).mp ht with ⟨hf, rfl⟩
      have hnodes : (buildThreat (run.engineAt n) (run.alerts n) (run.clock n)
          (((run.topic (run.address n)).enrolled n).map run.entry)).confirmedByNodes =
          (evidence run n).map run.host := by
        rw [buildThreat, List.map_map]
        rfl
      rw [hnodes]
      exact ⟨rfl, (tracked_enrolled hf.1).sources⟩
    · intro n threat ht
      rcases (threatAt_eq_some run).mp ht with ⟨hf, rfl⟩
      rw [buildThreat, List.length_map, List.length_map]
      exact hf.2
    · intro n threat ht i hi
      rcases (threatAt_eq_some run).mp ht with ⟨-, rfl⟩
      exact evidence_recent hw hi
    · intro n threat ht m hm earlier he hsame i hi
      rcases (threatAt_eq_some run).mp ht with ⟨-, rfl⟩
      exact evidence_since hi hm ((fires_iff run m _).mpr ⟨earlier, he, hsame⟩)
    · intro m n hne hm hn
      rcases Nat.lt_or_gt_of_ne hne with hlt | hgt
      · exact evidence_disjoint hw hlt hm
      · exact (evidence_disjoint hw hgt hn).symm
  · intro n x
    have ht := tracked_recorded (run.topic x) n
    rw [bucket_engineAt]
    constructor
    · rw [List.map_map]
      exact ht.sources
    · rw [List.pairwise_map]
      exact ht.sorted.imp fun hlt => hclock (Nat.le_of_lt hlt)
    · rw [List.length_map]
      exact recorded_length_lt (by change (0 : ℤ) < run.threshold; omega) n

end soundness

section completeness

variable (run : Run)

/-- A host has had an alert for the address of an ingest, the arriving one
included, since the last threat for it and in the window. -/
def Reported (n : ℕ) (node : Bytes) : Prop :=
  node = run.host n ∨ ∃ i < n, run.host i = node ∧ run.address i = run.address n ∧
    (∀ m < n, ∀ earlier, run.threatAt m = some earlier →
      earlier.sourceIp = run.address n → m < i) ∧
    wholeSeconds (run.clock n - run.clock i) ≤ run.windowSec

/-- A host is the arriving one or has an entry in the window. -/
def Counted (n : ℕ) (node : Bytes) : Prop :=
  node = run.host n ∨ ∃ e ∈ bucket (run.engineAt n).index (run.address n), e.nodeId = node ∧
    wholeSeconds (run.clock n - e.timestamp) ≤ run.windowSec

/-- There is a threshold of hosts with a property. -/
def Enough (property : Bytes → Prop) : Prop :=
  ∃ nodes : Finset Bytes, run.threshold ≤ (nodes.card : ℤ) ∧ ∀ node ∈ nodes, property node

/-- An ingest returns a threat for its address. -/
def ThreatAt (n : ℕ) : Prop :=
  ∃ threat, run.threatAt n = some threat ∧ threat.sourceIp = run.address n

/-- Enough reporting hosts get a threat for the address. -/
def CompleteAt (n : ℕ) : Prop := Enough run (Reported run n) → ThreatAt run n

/-- Every reporting host is counted: no entry has left the window while a
repeated alert of its host, which left no entry, is still in it. -/
def EntriesCurrent (n : ℕ) : Prop := ∀ node, Reported run n node → Counted run n node

variable {run}

theorem counted_iff {n : ℕ} {node : Bytes} : Counted run n node ↔
    node = (run.topic (run.address n)).source n ∨
      ∃ i ∈ (run.topic (run.address n)).recorded n, (run.topic (run.address n)).source i = node ∧
        (run.topic (run.address n)).fresh n i = true := by
  have hfresh : ∀ time, inWindow run.windowSec (run.clock n) time = true ↔
      wholeSeconds (run.clock n - time) ≤ run.windowSec := by
    intro time
    simp [inWindow]
  refine or_congr Iff.rfl ?_
  rw [bucket_engineAt]
  constructor
  · rintro ⟨e, he, hnode, htime⟩
    rcases List.mem_map.mp he with ⟨i, hi, rfl⟩
    exact ⟨i, hi, hnode, (hfresh _).mpr htime⟩
  · rintro ⟨i, hi, hnode, hf⟩
    exact ⟨run.entry i, List.mem_map_of_mem hi, hnode, (hfresh _).mp hf⟩

/-- An ingest returns a threat exactly when enough hosts are counted. -/
theorem threatAt_iff_enough_counted (n : ℕ) : ThreatAt run n ↔ Enough run (Counted run n) := by
  have hc : (run.topic (run.address n)).concerns n = true := decide_eq_true rfl
  rw [ThreatAt, ← fires_iff]
  constructor
  · intro hf
    have hnodup := (tracked_enrolled hc).sources
    refine ⟨(((run.topic (run.address n)).enrolled n).map
      (run.topic (run.address n)).source).toFinset, ?_, ?_⟩
    · rw [List.toFinset_card_of_nodup hnodup, List.length_map]
      exact hf.2
    · intro node hnode
      rcases List.mem_map.mp (List.mem_toFinset.mp hnode) with ⟨i, hi, rfl⟩
      rw [counted_iff]
      rcases mem_enroll hi with ⟨hrec, hfresh⟩ | rfl
      · exact .inr ⟨i, hrec, rfl, hfresh⟩
      · exact .inl rfl
  · rintro ⟨nodes, hq, hnodes⟩
    exact fires_of_sources hc hq fun node hnode => counted_iff.mp (hnodes node hnode)

/-- A counted host has reported. -/
theorem reported_of_counted {n : ℕ} {node : Bytes} (h : Counted run n node) :
    Reported run n node := by
  rcases counted_iff.mp h with hn | ⟨i, hi, hnode, hf⟩
  · exact .inl hn
  · have ht := tracked_recorded (run.topic (run.address n)) n
    refine .inr ⟨i, ht.below i hi, hnode, of_decide_eq_true (ht.concern i hi), ?_, ?_⟩
    · intro m hm earlier he hsame
      exact ht.since i hi m hm ((fires_iff run m _).mpr ⟨earlier, he, hsame⟩)
    · have hw : (!decide (run.windowSec < wholeSeconds (run.clock n - run.clock i))) = true := hf
      simpa using hw

/-- A run whose entries are current at every ingest is complete. In any run an
ingest is complete exactly when enough hosts have reported just if enough are
counted. -/
theorem correlation_complete (run : Run) :
    ((∀ n, EntriesCurrent run n) → ∀ n, CompleteAt run n) ∧
      ∀ n, CompleteAt run n ↔ (Enough run (Reported run n) ↔ Enough run (Counted run n)) := by
  constructor
  · rintro hcur n ⟨nodes, hq, hnodes⟩
    exact (threatAt_iff_enough_counted n).mpr
      ⟨nodes, hq, fun node hnode => hcur n node (hnodes node hnode)⟩
  · intro n
    have hback : Enough run (Counted run n) → Enough run (Reported run n) := by
      rintro ⟨nodes, hq, hnodes⟩
      exact ⟨nodes, hq, fun node hnode => reported_of_counted (hnodes node hnode)⟩
    rw [CompleteAt, threatAt_iff_enough_counted]
    constructor
    · intro h
      exact ⟨h, hback⟩
    · intro h
      exact h.mp

end completeness

/-- An alert of a node about the address `x`. -/
def alertFrom (node : Bytes) : AlertEvent where
  sourceHost := node
  metadata := assign ∅ (text "src_ip") (text "x")

/-- The default engine: node `A` reports at 0 s and at 100 s, node `B` at
150 s. -/
def repeatRun : Run where
  windowSec := 120
  threshold := 2
  alerts := fun n => alertFrom (if n < 2 then text "A" else text "B")
  clock := fun n => if n = 0 then 0 else if n = 1 then seconds 100 else seconds 150

theorem repeatRun_monotone : Monotone repeatRun.clock := by
  intro m n hmn
  change (if m = 0 then 0 else if m = 1 then seconds 100 else seconds 150) ≤
    (if n = 0 then 0 else if n = 1 then seconds 100 else seconds 150)
  unfold seconds
  split_ifs <;> omega

/-- Both nodes have reported within 50 s of node `B`'s alert, but the entry of
node `A` was that of its first alert. -/
theorem repeatRun_not_complete : Monotone repeatRun.clock ∧ ¬CompleteAt repeatRun 2 := by
  refine ⟨repeatRun_monotone, ?_⟩
  intro h
  have hnone : repeatRun.threatAt 2 = none := by decide +kernel
  have hreported : Enough repeatRun (Reported repeatRun 2) := by
    refine ⟨{text "A", text "B"}, by decide, ?_⟩
    intro node hnode
    rcases Finset.mem_insert.mp hnode with rfl | hb
    · refine .inr ⟨1, by decide, by decide, by decide, ?_, by decide⟩
      intro m hm earlier he
      have hquiet : ∀ m < 2, repeatRun.threatAt m = none := by decide +kernel
      rw [hquiet m hm] at he
      cases he
    · exact .inl (Finset.mem_singleton.mp hb)
  rcases h hreported with ⟨threat, ht, -⟩
  rw [hnone] at ht
  cases ht

/-- The default engine over two attacks. Node `A` reports at 0, 200, 250, 310
and 500 s, node `B` at 300 s and from 550 s on. -/
def twiceRun : Run where
  windowSec := 120
  threshold := 2
  alerts := fun n => alertFrom (if n = 3 ∨ 6 ≤ n then text "B" else text "A")
  clock := fun n => seconds ([0, 200, 250, 300, 310, 500][n]?.getD 550)

theorem twiceRun_monotone : Monotone twiceRun.clock := by
  refine monotone_nat_of_le_succ fun n => ?_
  by_cases hn : n < 6
  · have hfirst : ∀ n < 6, twiceRun.clock n ≤ twiceRun.clock (n + 1) := by decide +kernel
    exact hfirst n hn
  · have hlater : ∀ k, 6 ≤ k → twiceRun.clock k = seconds 550 := by
      intro k hk
      change seconds (([0, 200, 250, 300, 310, 500] : List ℤ)[k]?.getD 550) = seconds 550
      rw [List.getElem?_eq_none hk]
      rfl
    rw [hlater n (by omega), hlater (n + 1) (by omega)]

/-- The reports of node `B` at 300 s and at 550 s complete threats, and they are
the first two. -/
theorem twiceRun_threats : (∀ n < 7, (twiceRun.threatAt n).isSome ↔ n = 3 ∨ n = 6) ∧
    ∀ n < 7, ∀ threat ∈ twiceRun.threatAt n, threat.sourceIp = text "x" ∧
      threat.confirmedByNodes = [text "A", text "B"] := by
  decide +kernel

theorem twiceRun_threatAt {n : ℕ} (hn : n = 3 ∨ n = 6) : ∃ threat,
    twiceRun.threatAt n = some threat ∧ threat.sourceIp = text "x" ∧
      threat.confirmedByNodes = [text "A", text "B"] := by
  have hlt : n < 7 := by omega
  obtain ⟨threat, ht⟩ := Option.isSome_iff_exists.mp ((twiceRun_threats.1 n hlt).mpr hn)
  exact ⟨threat, ht, twiceRun_threats.2 n hlt threat ht⟩

theorem twiceRun_host (n : ℕ) :
    twiceRun.host n = if n = 3 ∨ 6 ≤ n then text "B" else text "A" :=
  rfl

theorem twiceRun_address (n : ℕ) : twiceRun.address n = text "x" := by
  change sourceIp (alertFrom _) = text "x"
  rfl

/-- A report counts from the last of the two threats on. -/
theorem twiceRun_reported {n : ℕ} {node : Bytes} (h : Reported twiceRun n node) :
    node = twiceRun.host n ∨ ∃ i < n, twiceRun.host i = node ∧ (3 < n → 3 < i) ∧
      (6 < n → 6 < i) := by
  refine h.imp id ?_
  rintro ⟨i, hi, hnode, -, hsince, -⟩
  have hafter : ∀ m, m = 3 ∨ m = 6 → m < n → m < i := by
    intro m hm hmn
    obtain ⟨threat, ht, hx, -⟩ := twiceRun_threatAt hm
    exact hsince m hmn threat ht (hx.trans (twiceRun_address n).symm)
  exact ⟨i, hi, hnode, hafter 3 (.inl rfl), hafter 6 (.inr rfl)⟩

/-- Node `A` is counted at both threats: its entry of 0 s and that of 310 s left
the window before the report that made the next one. -/
theorem twiceRun_counted {n : ℕ} (hn : n = 3 ∨ n = 6) : Counted twiceRun n (text "A") := by
  rcases hn with rfl | rfl
  · exact .inr (by decide +kernel)
  · exact .inr (by decide +kernel)

/-- Every host that has reported is counted. -/
theorem twiceRun_current (n : ℕ) : EntriesCurrent twiceRun n := by
  intro node h
  rcases twiceRun_reported h with hn | ⟨i, hi, hnode, hfirst, hsecond⟩
  · exact .inl hn
  · rw [twiceRun_host] at hnode
    by_cases hthreat : n = 3 ∨ n = 6
    · rw [if_neg (by omega)] at hnode
      exact hnode ▸ twiceRun_counted hthreat
    -- no other host has reported since the threat before
    · left
      rw [twiceRun_host, ← hnode]
      by_cases hlate : 6 < n
      · rw [if_pos (by omega), if_pos (by omega)]
      · rw [if_neg (by omega), if_neg (by omega)]

/-- Node `A` and node `B` have both reported at each of the two. -/
theorem twiceRun_enough {n : ℕ} (hn : n = 3 ∨ n = 6) :
    Enough twiceRun (Reported twiceRun n) := by
  refine ⟨{text "A", text "B"}, by decide, ?_⟩
  intro node hnode
  rcases Finset.mem_insert.mp hnode with rfl | hb
  · exact reported_of_counted (twiceRun_counted hn)
  · refine .inl ((Finset.mem_singleton.mp hb).trans ?_)
    rw [twiceRun_host, if_pos (by omega)]

/-- Entries are current throughout, so that the two nodes complete a threat each
time they are in the window together. -/
theorem twiceRun_complete : ThreatAt twiceRun 3 ∧ ThreatAt twiceRun 6 := by
  have hcomplete := (correlation_complete twiceRun).1 twiceRun_current
  exact ⟨hcomplete 3 (twiceRun_enough (.inl rfl)), hcomplete 6 (twiceRun_enough (.inr rfl))⟩

/-- The threats at 300 s and at 550 s rest on two reports each. -/
theorem twiceRun_sound : (∃ evidence, Sound twiceRun evidence ∧
      (evidence 3).map twiceRun.host = [text "A", text "B"] ∧
      (evidence 6).map twiceRun.host = [text "A", text "B"] ∧
      (evidence 3).Disjoint (evidence 6)) ∧
    ∀ n x, WellFormed twiceRun.threshold (bucket (twiceRun.engineAt n).index x) := by
  obtain ⟨⟨evidence, hsound⟩, hformed⟩ :=
    threats_sound twiceRun (by decide) (by decide) twiceRun_monotone
  obtain ⟨first, hfirst, -, hnodes⟩ := twiceRun_threatAt (n := 3) (.inl rfl)
  obtain ⟨second, hsecond, -, hnodes'⟩ := twiceRun_threatAt (n := 6) (.inr rfl)
  refine ⟨⟨evidence, hsound, ?_, ?_, ?_⟩, hformed⟩
  · rw [← (hsound.nodes 3 first hfirst).1, hnodes]
  · rw [← (hsound.nodes 6 second hsecond).1, hnodes']
  · exact hsound.once 3 6 (by decide) (hfirst ▸ rfl) (hsecond ▸ rfl)

end Dlads.CorrelationHistory
