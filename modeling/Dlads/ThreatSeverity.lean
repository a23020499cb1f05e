import Dlads.CorrelationHistory

/-!
# How severe a threat is

A threat's severity is one level above the highest severity of its entries,
and an address keeps one entry for each node: that of the alert with which the
node came in. Later alerts of the node do not change the entry while it is in
the window, however severe they are.
-/

namespace Dlads.ThreatSeverity

open ByteText Records Correlation WindowQuorum CorrelationHistory

variable (run : Run)

/-- An ingest returns a threat about an address. -/
def ThreatAbout (x : Bytes) (m : ℕ) : Prop :=
  ∃ threat, run.threatAt m = some threat ∧ threat.sourceIp = x

/-- An alert has been ingested for the address of an ingest since the last
threat about it and in the window, the arriving one included. -/
structure Recent (n i : ℕ) : Prop where
  /-- It was ingested by then. -/
  le : i ≤ n
  /-- It is for that address. -/
  address : run.address i = run.address n
  /-- No threat about the address was returned since. -/
  kept : ∀ m, i ≤ m → m < n → ¬ThreatAbout run (run.address n) m
  /-- It is the arriving one or in the window. -/
  fresh : i = n ∨ wholeSeconds (run.clock n - run.clock i) ≤ run.windowSec

/-- A recent alert with which its node came in: when it was ingested no alert
with which the node had come in before was recent. -/
def Stands (n i : ℕ) : Prop :=
  (run.topic (run.address n)).Stands (ThreatAbout run (run.address n)) n i

/-- A severity is one level above the highest severity of some alerts. -/
def OneAbove (severity : Severity) (counts : ℕ → Prop) : Prop :=
  ∃ top, (∃ i, counts i ∧ (run.alerts i).severity = top) ∧
    (∀ i, counts i → (run.alerts i).severity.rank ≤ top.rank) ∧ severity = escalate top

/-- A threat is one level above all recent alerts of its nodes. -/
def Escalates (n : ℕ) (threat : CorrelatedThreat) : Prop :=
  OneAbove run threat.severity
    fun i => Recent run n i ∧ run.host i ∈ threat.confirmedByNodes

section severities

/-- The highest severity of entries is at least that of each, and that of one. -/
theorem maxSeverity_spec (entries : List Entry) :
    (∀ e ∈ entries, e.severity.rank ≤ (maxSeverity entries).rank) ∧
      (entries ≠ [] → ∃ e ∈ entries, e.severity = maxSeverity entries) := by
  have hfold : ∀ (entries : List Entry) (m : Severity),
      m.rank ≤ (entries.foldl
        (fun m e => if m.rank < e.severity.rank then e.severity else m) m).rank ∧
      (∀ e ∈ entries, e.severity.rank ≤ (entries.foldl
        (fun m e => if m.rank < e.severity.rank then e.severity else m) m).rank) ∧
      (entries.foldl (fun m e => if m.rank < e.severity.rank then e.severity else m) m = m ∨
        ∃ e ∈ entries, e.severity = entries.foldl
          (fun m e => if m.rank < e.severity.rank then e.severity else m) m) := by
    intro entries
    induction entries with
    | nil => exact fun m => ⟨le_refl _, fun e he => absurd he List.not_mem_nil, .inl rfl⟩
    | cons e rest ih =>
      intro m
      rw [List.foldl_cons]
      obtain ⟨hstart, hall, hwhich⟩ := ih (if m.rank < e.severity.rank then e.severity else m)
      have hboth : m.rank ≤ (if m.rank < e.severity.rank then e.severity else m).rank ∧
          e.severity.rank ≤ (if m.rank < e.severity.rank then e.severity else m).rank := by
        split
        · next h => exact ⟨Nat.le_of_lt h, le_refl _⟩
        · next h => exact ⟨le_refl _, not_lt.mp h⟩
      refine ⟨hboth.1.trans hstart, ?_, ?_⟩
      · intro x hx
        rcases List.mem_cons.mp hx with rfl | hx
        · exact hboth.2.trans hstart
        · exact hall x hx
      · rcases hwhich with heq | ⟨x, hx, he⟩
        · rw [heq]
          split
          · exact .inr ⟨e, List.mem_cons_self, rfl⟩
          · exact .inl rfl
        · exact .inr ⟨x, List.mem_cons_of_mem e hx, he⟩
  obtain ⟨-, hall, hwhich⟩ := hfold entries .low
  refine ⟨hall, fun hne => ?_⟩
  rcases hwhich with hlow | hentry
  · -- nothing ranks below the lowest severity, so every entry has it
    obtain ⟨e, rest, rfl⟩ := List.exists_cons_of_ne_nil hne
    have hle := hall e List.mem_cons_self
    rw [hlow] at hle
    refine ⟨e, List.mem_cons_self, ?_⟩
    rw [maxSeverity, hlow]
    cases hs : e.severity <;> rw [hs] at hle <;> first | rfl | exact absurd hle (by decide)
  · exact hentry

theorem rank_le_escalate (severity : Severity) : severity.rank ≤ (escalate severity).rank := by
  cases severity <;> decide

end severities

section standing

variable {run}

/-- A later reading leaves no more in the window. -/
theorem waning_topic (hclock : Monotone run.clock) (x : Bytes) : (run.topic x).Waning := by
  intro i k n hik hkn hf
  have hwindow : ∀ t, (run.topic x).fresh t i = true ↔
      wholeSeconds (run.clock t - run.clock i) ≤ run.windowSec := by
    intro t
    change (!decide (run.windowSec < wholeSeconds (run.clock t - run.clock i))) = true ↔ _
    simp
  rw [hwindow] at hf ⊢
  have hle : wholeSeconds (run.clock k - run.clock i) ≤
      wholeSeconds (run.clock n - run.clock i) := by
    have hkn' := hclock hkn
    have hik' := hclock hik
    unfold wholeSeconds
    rw [Int.tdiv_eq_ediv_of_nonneg (by omega), Int.tdiv_eq_ediv_of_nonneg (by omega)]
    exact Int.ediv_le_ediv (by decide) (by omega)
  exact hle.trans hf

/-- A threat's evidence is what stands. -/
theorem mem_evidence_iff (hclock : Monotone run.clock) (n i : ℕ) :
    i ∈ evidence run n ↔ Stands run n i := by
  have hc : (run.topic (run.address n)).concerns n = true := decide_eq_true rfl
  have hcleared : (run.topic (run.address n)).Fires = ThreatAbout run (run.address n) :=
    funext fun m => propext (fires_iff run m (run.address n))
  rw [evidence, mem_enrolled_iff (waning_topic hclock _) hc, hcleared]
  rfl

/-- What stands is recent. -/
theorem Stands.recent {n i : ℕ} (h : Stands run n i) : Recent run n i := by
  refine ⟨h.le, of_decide_eq_true h.concerns, h.kept, h.fresh.imp_right fun hf => ?_⟩
  have hw : (!decide (run.windowSec < wholeSeconds (run.clock n - run.clock i))) = true := hf
  simpa using hw

/-- A threat is one level above the alerts that stand: one of each of its nodes,
the arriving one among them. -/
theorem threat_escalates (run : Run) (hclock : Monotone run.clock) {n : ℕ}
    {threat : CorrelatedThreat} (ht : run.threatAt n = some threat) :
    OneAbove run threat.severity (Stands run n) ∧
      (∀ i, Stands run n i → (run.alerts i).severity.rank ≤ threat.severity.rank) ∧
      Stands run n n ∧ (∀ i, Stands run n i → Recent run n i) ∧
      ∀ node, node ∈ threat.confirmedByNodes ↔
        ∃ i, Stands run n i ∧ run.host i = node ∧
          ∀ j, Stands run n j → run.host j = node → j = i := by
  obtain ⟨hf, rfl⟩ := (threatAt_eq_some run).mp ht
  have hmem := mem_evidence_iff hclock n
  have hself : Stands run n n := (hmem n).mp (self_mem_enrolled hf)
  have hsources := (tracked_enrolled hf.1).sources
  obtain ⟨hall, hsome⟩ := maxSeverity_spec ((evidence run n).map run.entry)
  have hne : (evidence run n).map run.entry ≠ [] := by
    have hn : n ∈ evidence run n := (hmem n).mpr hself
    intro hnil
    rw [List.map_eq_nil_iff.mp hnil] at hn
    cases hn
  obtain ⟨e, he, hmax⟩ := hsome hne
  obtain ⟨i, hi, rfl⟩ := List.mem_map.mp he
  have hrank : ∀ j, Stands run n j → (run.alerts j).severity.rank ≤
      (maxSeverity ((evidence run n).map run.entry)).rank := fun j hj =>
    hall _ (List.mem_map_of_mem ((hmem j).mpr hj))
  refine ⟨⟨_, ⟨i, (hmem i).mp hi, hmax⟩, hrank, rfl⟩, ?_, hself, fun j hj => hj.recent, ?_⟩
  · exact fun j hj => (hrank j hj).trans (rank_le_escalate _)
  · intro node
    have hnodes : node ∈ ((evidence run n).map run.entry).map Entry.nodeId ↔
        ∃ i ∈ evidence run n, run.host i = node := by
      rw [List.map_map, List.mem_map]
      rfl
    refine hnodes.trans ?_
    constructor
    · rintro ⟨i, hi, hnode⟩
      refine ⟨i, (hmem i).mp hi, hnode, fun j hj hj' => ?_⟩
      exact List.inj_on_of_nodup_map hsources ((hmem j).mpr hj) hi (hj'.trans hnode.symm)
    · rintro ⟨i, hi, hnode, -⟩
      exact ⟨i, (hmem i).mpr hi, hnode⟩

end standing

/-- An alert of a node about the address `x`, of some severity. -/
def alertOf (node : Bytes) (severity : Severity) : AlertEvent :=
  { alertFrom node with severity := severity }

/-- Node `A` reports a low and a critical alert, then node `B` a low one. -/
def outrankedRun : Run where
  windowSec := 120
  threshold := 2
  alerts := fun n => if n = 0 then alertOf (text "A") .low
    else if n = 1 then alertOf (text "A") .critical else alertOf (text "B") .low
  clock := fun n => seconds n

theorem outrankedRun_monotone : Monotone outrankedRun.clock := by
  intro m n hmn
  change seconds m ≤ seconds n
  unfold seconds
  omega

/-- The threat of node `B`'s alert is a medium one. -/
theorem outrankedRun_medium :
    (outrankedRun.threatAt 2).map CorrelatedThreat.severity = some .medium := by decide +kernel

/-- The critical alert does not count. -/
theorem outrankedRun_not_escalated : ¬∀ run : Run, Monotone run.clock → ∀ n threat,
    run.threatAt n = some threat → Escalates run n threat := by
  intro h
  have hmedium := outrankedRun_medium
  cases ht : outrankedRun.threatAt 2 with
  | none =>
    rw [ht] at hmedium
    cases hmedium
  | some threat =>
    rw [ht, Option.map_some, Option.some.injEq] at hmedium
    obtain ⟨top, -, hall, hsev⟩ := h outrankedRun outrankedRun_monotone 2 threat ht
    have hnodes : (outrankedRun.threatAt 2).map CorrelatedThreat.confirmedByNodes =
        some [text "A", text "B"] := by decide +kernel
    rw [ht, Option.map_some, Option.some.injEq] at hnodes
    have hquiet : ∀ m < 2, outrankedRun.threatAt m = none := by decide +kernel
    have hrecent : Recent outrankedRun 2 1 := by
      refine ⟨by decide, by decide +kernel, ?_, .inr (by decide)⟩
      rintro m - hm ⟨earlier, he, -⟩
      rw [hquiet m hm] at he
      cases he
    have hcritical := hall 1 ⟨hrecent, by rw [hnodes]; decide⟩
    rw [hmedium] at hsev
    cases top with
    | low => exact absurd hcritical (by decide)
    | _ => cases hsev

/-- The alert that completes the threat stands at it. -/
theorem outrankedRun_stands :
    ∃ threat, outrankedRun.threatAt 2 = some threat ∧ Stands outrankedRun 2 2 := by
  have hmedium := outrankedRun_medium
  cases ht : outrankedRun.threatAt 2 with
  | none =>
    rw [ht] at hmedium
    cases hmedium
  | some threat =>
    exact ⟨threat, rfl, (threat_escalates outrankedRun outrankedRun_monotone ht).2.2.1⟩

end Dlads.ThreatSeverity
