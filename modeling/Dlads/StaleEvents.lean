import Dlads.RuleTallies

/-!
# Events that only the plain scan sees

The index leaves out what is older than a day, whatever window is configured.
For one event and one snapshot this goes unnoticed in two ways: the plain scan,
which has the old events too, does not count enough for an alert either, or the
old events add nothing to what the last day gives the rule.
-/

namespace Dlads.StaleEvents

open ByteText StringMaps Records YamlConfig IndexedHistory DetectionRules NaiveScan RaisedAlerts
open RuleTallies

/-- A failed login from an address in the window. -/
def LoginCounts (event : LogEvent) (cfg : RuleConfig) (srcIp : Bytes) (ev : LogEvent) : Prop :=
  extractSrcIp ev = srcIp ∧
    SshBruteForceRule.counts (SshBruteForceRule.cutoff event cfg) ev = true

/-- A packet from an address in the window, to a port. -/
def PacketCounts (event : LogEvent) (cfg : RuleConfig) (srcIp : Bytes) (ev : LogEvent) : Prop :=
  extractSrcIp ev = srcIp ∧ PortScanRule.counts (PortScanRule.cutoff event cfg) ev = true ∧
    0 < parseDpt ev.message

/-- A failure from an address in the window, on a service. -/
def FailureCounts (event : LogEvent) (cfg : RuleConfig) (srcIp : Bytes) (ev : LogEvent) : Prop :=
  extractSrcIp ev = srcIp ∧
    MultiServiceAuthRule.counts (MultiServiceAuthRule.cutoff event cfg) ev = true ∧
    ev.logSource ≠ []

/-- A rule is not misled by the events older than a day. -/
def Spared (event : LogEvent) (snapshot : List LogEvent) (cfg : RuleConfig) (subject : Bytes) :
    Rule → Prop
  | .sshBruteForce => naiveCount event snapshot cfg subject < cfg.sshThreshold ∨
      ∀ ev ∈ snapshot, LoginCounts event cfg subject ev → ofLastDay event.timestamp ev = true
  | .portScan => ((naivePorts event snapshot cfg subject).card : ℤ) < cfg.scanThreshold ∨
      ∀ ev ∈ snapshot, PacketCounts event cfg subject ev →
        parseDpt ev.message = parseDpt event.message ∨
          ∃ recent ∈ snapshot, ofLastDay event.timestamp recent = true ∧
            PacketCounts event cfg subject recent ∧ parseDpt recent.message = parseDpt ev.message
  | .privEsc => ∀ ev ∈ snapshot, isPriorSession event cfg subject ev = true →
      ∃ recent ∈ snapshot, ofLastDay event.timestamp recent = true ∧
        isPriorSession event cfg subject recent = true
  | .multiServiceAuth =>
      ((naiveServices event snapshot cfg subject).card : ℤ) < cfg.multiMinServices ∨
      ∀ ev ∈ snapshot, FailureCounts event cfg subject ev → ev.logSource = event.logSource ∨
        ∃ recent ∈ snapshot, ofLastDay event.timestamp recent = true ∧
          FailureCounts event cfg subject recent ∧ recent.logSource = ev.logSource

variable {event : LogEvent} {snapshot : List LogEvent} {cfg : RuleConfig} {subject : Bytes}

/-- The last day is a part of the snapshot. -/
theorem lastDay_subperm (event : LogEvent) (snapshot : List LogEvent) :
    (lastDay event snapshot).Subperm snapshot := List.filter_sublist.subperm

theorem mem_lastDay {ev : LogEvent} :
    ev ∈ lastDay event snapshot ↔ ev ∈ snapshot ∧ ofLastDay event.timestamp ev = true :=
  List.mem_filter

/-- Every rule's plain scan is decided by its number. -/
theorem naiveEvaluate_eq (id : Bytes) (rule : Rule) : naiveEvaluate event snapshot cfg id rule =
    (ruleSubject rule event).bind fun subject =>
      scanned event snapshot cfg subject id rule := by
  cases rule with
  | privEsc =>
    simp only [naiveEvaluate, naiveSeenBefore_eq]
    rfl
  | sshBruteForce | portScan | multiServiceAuth =>
    simp only [scanned, quiet, decide_eq_true_eq]
    rfl

section values

/-- A port that has been hit is the trigger's or that of a packet. -/
theorem mem_naivePorts {history : List LogEvent} {port : ℤ} (hpos : 0 < port) :
    port ∈ naivePorts event history cfg subject ↔ port = parseDpt event.message ∨
      ∃ ev ∈ history, PacketCounts event cfg subject ev ∧ parseDpt ev.message = port := by
  have hown : port ∈ PortScanRule.insertPort ∅ event.message ↔ port = parseDpt event.message := by
    rw [PortScanRule.insertPort]
    split
    · simp
    · next hnone =>
      refine iff_of_false (Finset.notMem_empty port) ?_
      rintro rfl
      exact hnone hpos
  rw [naivePorts, mem_collected, hown]
  refine or_congr_right ?_
  constructor
  · rintro ⟨⟨ev, hev, ⟨hip, hcounts⟩, rfl⟩, -⟩
    exact ⟨ev, hev, ⟨hip, hcounts, hpos⟩, rfl⟩
  · rintro ⟨ev, hev, ⟨hip, hcounts, -⟩, rfl⟩
    exact ⟨⟨ev, hev, ⟨hip, hcounts⟩, rfl⟩, hpos⟩

/-- A service that has been failed on is the trigger's or that of a failure. -/
theorem mem_naiveServices {history : List LogEvent} {service : Bytes} (hne : service ≠ []) :
    service ∈ naiveServices event history cfg subject ↔ service = event.logSource ∨
      ∃ ev ∈ history, FailureCounts event cfg subject ev ∧ ev.logSource = service := by
  have hown : service ∈ MultiServiceAuthRule.insertService ∅ event.logSource ↔
      service = event.logSource := by
    rw [MultiServiceAuthRule.insertService]
    split
    · simp
    · next hnone =>
      refine iff_of_false (Finset.notMem_empty service) ?_
      rintro rfl
      exact hne (by simpa using hnone)
  rw [naiveServices, mem_collected, hown]
  refine or_congr_right ?_
  constructor
  · rintro ⟨⟨ev, hev, ⟨hip, hcounts⟩, rfl⟩, -⟩
    exact ⟨ev, hev, ⟨hip, hcounts, hne⟩, rfl⟩
  · rintro ⟨ev, hev, ⟨hip, hcounts, -⟩, rfl⟩
    exact ⟨⟨ev, hev, ⟨hip, hcounts⟩, rfl⟩, hne⟩

end values

/-- The last day has a rule's whole number exactly if the older events add
nothing to it. -/
theorem tally_lastDay_ssh_iff :
    tally event (lastDay event snapshot) cfg subject .sshBruteForce =
        tally event snapshot cfg subject .sshBruteForce ↔
      ∀ ev ∈ snapshot, LoginCounts event cfg subject ev →
        ofLastDay event.timestamp ev = true := by
  have hcount := countP_filter_eq_iff snapshot
    (fun ev => decide (extractSrcIp ev = subject ∧
      SshBruteForceRule.counts (SshBruteForceRule.cutoff event cfg) ev = true))
    (ofLastDay event.timestamp)
  simp only [decide_eq_true_eq] at hcount
  refine Iff.trans ?_ hcount
  rw [tally, tally, naiveCount, naiveCount, lastDay]
  omega

theorem tally_lastDay_portScan_iff :
    tally event (lastDay event snapshot) cfg subject .portScan =
        tally event snapshot cfg subject .portScan ↔
      ∀ ev ∈ snapshot, PacketCounts event cfg subject ev →
        parseDpt ev.message = parseDpt event.message ∨
          ∃ recent ∈ snapshot, ofLastDay event.timestamp recent = true ∧
            PacketCounts event cfg subject recent ∧
            parseDpt recent.message = parseDpt ev.message := by
  rw [tally, tally,
    card_eq_iff_subset (naivePorts_mono (lastDay_subperm event snapshot).subset)]
  refine (naivePorts_subset_iff Finset.subset_union_left).trans ?_
  refine forall₂_congr fun ev hev => ?_
  rw [PacketCounts, and_imp, and_imp]
  refine forall₃_congr fun hip hcounts hpos => ?_
  refine (mem_naivePorts hpos).trans ?_
  simp only [mem_lastDay, and_assoc]

theorem tally_lastDay_multiServiceAuth_iff :
    tally event (lastDay event snapshot) cfg subject .multiServiceAuth =
        tally event snapshot cfg subject .multiServiceAuth ↔
      ∀ ev ∈ snapshot, FailureCounts event cfg subject ev → ev.logSource = event.logSource ∨
        ∃ recent ∈ snapshot, ofLastDay event.timestamp recent = true ∧
          FailureCounts event cfg subject recent ∧ recent.logSource = ev.logSource := by
  rw [tally, tally,
    card_eq_iff_subset (naiveServices_mono (lastDay_subperm event snapshot).subset)]
  refine (naiveServices_subset_iff Finset.subset_union_left).trans ?_
  refine forall₂_congr fun ev hev => ?_
  rw [FailureCounts, and_imp, and_imp]
  refine forall₃_congr fun hip hcounts hne => ?_
  refine (mem_naiveServices hne).trans ?_
  simp only [mem_lastDay, and_assoc]

/-- A user is known from a history exactly if it has a session of theirs. -/
theorem quiet_privEsc_iff (event : LogEvent) (history : List LogEvent) (cfg : RuleConfig)
    (subject : Bytes) :
    quiet cfg (tally event history cfg subject .privEsc) .privEsc = true ↔
      ∃ ev ∈ history, isPriorSession event cfg subject ev = true := by
  rw [quiet, tally, decide_eq_true_iff, Int.natCast_pos, List.countP_pos_iff]

/-- What the index and the plain scan return about a subject agrees exactly if
the rule is not misled. -/
theorem spared_iff (rule : Rule) (id id' : Bytes) :
    (scanned event (lastDay event snapshot) cfg subject id rule).map contents =
        (scanned event snapshot cfg subject id' rule).map contents ↔
      Spared event snapshot cfg subject rule := by
  have hpart := lastDay_subperm event snapshot
  cases rule with
  | sshBruteForce =>
    rw [scanned_eq_iff_of_count hpart (by decide), tally_lastDay_ssh_iff, quiet,
      decide_eq_true_iff]
    rfl
  | portScan =>
    rw [scanned_eq_iff_of_count hpart (by decide), tally_lastDay_portScan_iff, quiet,
      decide_eq_true_iff]
    rfl
  | privEsc =>
    have hday := quiet_privEsc_iff event (lastDay event snapshot) cfg subject
    have hall := quiet_privEsc_iff event snapshot cfg subject
    simp only [mem_lastDay, and_assoc] at hday
    rw [scanned_eq_iff hpart, Spared]
    constructor
    · rintro ⟨hsame, -⟩ ev hev hprior
      exact hday.mp (hsame.trans (hall.mpr ⟨ev, hev, hprior⟩))
    · intro h
      have hsame : quiet cfg (tally event (lastDay event snapshot) cfg subject .privEsc) .privEsc =
          quiet cfg (tally event snapshot cfg subject .privEsc) .privEsc := by
        rw [Bool.eq_iff_iff, hday, hall]
        constructor
        · rintro ⟨ev, hev, -, hprior⟩
          exact ⟨ev, hev, hprior⟩
        · rintro ⟨ev, hev, hprior⟩
          exact h ev hev hprior
      refine ⟨hsame, fun hnew => ?_⟩
      -- no session at all, in the one and the other
      have hnew' := hsame.trans hnew
      rw [quiet, decide_eq_false_iff_not, tally] at hnew hnew'
      rw [tally, tally]
      omega
  | multiServiceAuth =>
    rw [scanned_eq_iff_of_count hpart (by decide), tally_lastDay_multiServiceAuth_iff, quiet,
      decide_eq_true_iff]
    rfl

/-- A rule that agrees with its plain scan is not misled. -/
theorem spared_of_agrees (h : Agrees event snapshot cfg) {rule : Rule}
    (hsubject : ruleSubject rule event = some subject) :
    Spared event snapshot cfg subject rule := by
  have hsame := h rule 0 []
  rw [indexedEvaluate_eq, naiveEvaluate_eq, hsubject, Option.bind_some, Option.bind_some] at hsame
  exact (spared_iff rule _ _).mp hsame

/-- Rules that are not misled agree with their plain scans. -/
theorem agrees_of_spared (h : ∀ rule subject, ruleSubject rule event = some subject →
    Spared event snapshot cfg subject rule) : Agrees event snapshot cfg := by
  intro rule counter id
  rw [indexedEvaluate_eq, naiveEvaluate_eq]
  cases hsubject : ruleSubject rule event with
  | none => rfl
  | some subject => exact (spared_iff rule _ _).mpr (h rule subject hsubject)

/-- On an event and a snapshot the index serves the rules like the plain scan
exactly if it misleads none that looks at the event. -/
theorem agrees_iff_spared (event : LogEvent) (snapshot : List LogEvent) (cfg : RuleConfig) :
    Agrees event snapshot cfg ↔ ∀ rule subject, ruleSubject rule event = some subject →
      Spared event snapshot cfg subject rule :=
  ⟨fun h _ _ hsubject => spared_of_agrees h hsubject, agrees_of_spared⟩

end Dlads.StaleEvents
