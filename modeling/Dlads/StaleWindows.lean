import Dlads.StaleEvents

/-!
# Windows longer than a day

Within a day's window nothing that a rule counts is older than a day, so that
every event and every snapshot spares the rule. For each window that reaches
back further, an event and a snapshot of stale events do not; this settles
which configuration files the index serves faithfully on all of them.
-/

namespace Dlads.StaleWindows

open ByteText StringMaps Records YamlConfig IndexedHistory DetectionRules NaiveScan RaisedAlerts
open RuleTallies StaleEvents

/-- Just too old for the index of an event at time 0. -/
def staleTime : ℤ := -hours 24 - 1

theorem not_ofLastDay_staleTime {event ev : LogEvent} (hnow : event.timestamp = 0)
    (ht : ev.timestamp = staleTime) : ¬ofLastDay event.timestamp ev = true := by
  rw [ofLastDay, decide_eq_true_iff, hnow, ht, staleTime]
  unfold hours
  omega

/-- A window of more than a day's seconds reaches a stale event. -/
theorem not_staleTime_lt_seconds {window : ℤ} (hw : 86400 < window) :
    ¬staleTime < 0 - seconds window := by
  unfold staleTime hours seconds
  omega

/-- Inside a day every rule agrees with its plain scan: what it counts is of the
last day. -/
theorem agrees_of_withinDay (event : LogEvent) (snapshot : List LogEvent) {cfg : RuleConfig}
    (hw : WithinDay cfg) : Agrees event snapshot cfg := by
  refine agrees_of_spared fun rule subject _ => ?_
  cases rule with
  | sshBruteForce =>
    refine .inr fun ev hev hcounts => ofLastDay_of_seconds hw.ssh ?_
    have hc := hcounts.2
    simp only [SshBruteForceRule.counts, Bool.and_eq_true, Bool.not_eq_true',
      decide_eq_false_iff_not] at hc
    exact hc.1.2
  | portScan =>
    refine .inr fun ev hev hcounts => .inr ⟨ev, hev, ofLastDay_of_seconds hw.scan ?_, hcounts, rfl⟩
    have hc := hcounts.2.1
    simp only [PortScanRule.counts, Bool.and_eq_true, Bool.not_eq_true',
      decide_eq_false_iff_not] at hc
    exact hc.1.1
  | privEsc =>
    refine fun ev hev hprior => ⟨ev, hev, decide_eq_true ?_, hprior⟩
    have hlong := hw.priv
    simp only [isPriorSession, PrivEscRule.matchesUser, decide_eq_true_eq, Bool.and_eq_true,
      Bool.not_eq_true', decide_eq_false_iff_not] at hprior
    have hcut := hprior.2.1.1.1
    unfold PrivEscRule.cutoff hours at hcut
    unfold hours
    omega
  | multiServiceAuth =>
    refine .inr fun ev hev hcounts => .inr ⟨ev, hev, ofLastDay_of_seconds hw.multi ?_, hcounts, rfl⟩
    have hc := hcounts.2.1
    simp only [MultiServiceAuthRule.counts, Bool.and_eq_true, Bool.not_eq_true',
      decide_eq_false_iff_not] at hc
    exact hc.1

/-- The fields of an event from the address `1`. -/
def fromOne : StringMap Bytes := assign ∅ (text "src_ip") (text "1")

theorem extractSrcIp_fromOne {ev : LogEvent} (hf : ev.fields = fromOne) :
    extractSrcIp ev = text "1" := by
  have hl : ev.fields.lookup (text "src_ip") = some (text "1") := by
    rw [hf]
    rfl
  rw [extractSrcIp, hl]

section ssh

/-- A failed login from the address `1`. -/
def failedLogin (time : ℤ) : LogEvent where
  timestamp := time
  logSource := text "sshd"
  message := text "Failed password"
  fields := fromOne

theorem failedLogin_counts {cfg : RuleConfig} (hw : 86400 < cfg.sshWindowSeconds) :
    LoginCounts (failedLogin 0) cfg (text "1") (failedLogin staleTime) := by
  have hlt : ¬(failedLogin staleTime).timestamp < SshBruteForceRule.cutoff (failedLogin 0) cfg :=
    not_staleTime_lt_seconds hw
  refine ⟨extractSrcIp_fromOne rfl, ?_⟩
  rw [SshBruteForceRule.counts, decide_eq_false hlt]
  decide

theorem naiveCount_stale {cfg : RuleConfig} (hw : 86400 < cfg.sshWindowSeconds) (m : ℕ) :
    naiveCount (failedLogin 0) (List.replicate m (failedLogin staleTime)) cfg (text "1") =
      (1 + m : ℕ) := by
  have hc : extractSrcIp (failedLogin staleTime) = text "1" ∧ SshBruteForceRule.counts
      (SshBruteForceRule.cutoff (failedLogin 0) cfg) (failedLogin staleTime) = true :=
    failedLogin_counts hw
  rw [naiveCount, List.countP_replicate, if_pos (decide_eq_true hc)]
  push_cast
  rfl

/-- An SSH window longer than a day separates index and scan. -/
theorem sshWindow_le_of_agrees {cfg : RuleConfig}
    (h : ∀ event snapshot, Agrees event snapshot cfg) : cfg.sshWindowSeconds ≤ 86400 := by
  by_contra hw
  have hw : 86400 < cfg.sshWindowSeconds := not_le.mp hw
  -- one stale failure at least, and enough of them to reach the threshold
  have hm : ∃ m : ℕ, 1 ≤ m ∧ cfg.sshThreshold ≤ (1 + m : ℕ) :=
    ⟨max 1 cfg.sshThreshold.toNat, le_max_left _ _, by omega⟩
  rcases hm with ⟨m, hpos, hthr⟩
  have hsub : ruleSubject .sshBruteForce (failedLogin 0) = some (text "1") := by decide
  rcases spared_of_agrees (h _ (List.replicate m (failedLogin staleTime))) hsub with
    hfew | hrecent
  · rw [naiveCount_stale hw] at hfew
    omega
  · have hday := hrecent (failedLogin staleTime) (List.mem_replicate.mpr ⟨by omega, rfl⟩)
      (failedLogin_counts hw)
    exact not_ofLastDay_staleTime rfl rfl hday

end ssh

section scan

/-- A rejected packet from the address `1`, to a port when one is named. -/
def packet (time : ℤ) (message : Bytes) : LogEvent where
  timestamp := time
  logSource := text "kernel"
  message := message
  fields := fromOne

/-- The line of a packet to a port. -/
def portMessage (port : ℕ) : Bytes := text "DPT=" ++ decNat port

theorem parseDpt_portMessage {port : ℕ} (hp : port ≤ 2147483647) :
    parseDpt (portMessage port) = port := by
  have hval : parseKvField (portMessage port) (text "DPT=") = decNat port := by
    have htake : (decNat port).takeWhile (!(text " \t\x0d\n").contains ·) = decNat port := by
      rw [List.takeWhile_eq_self_iff]
      intro c hc
      have hd := isDigit_of_mem_decNat hc
      by_contra hin
      simp only [Bool.not_eq_true, Bool.not_eq_false', List.contains_iff_mem] at hin
      have hnone : (text " \t\x0d\n").all (!isDigit ·) = true := by decide
      have hnot := List.all_eq_true.mp hnone c hin
      rw [hd] at hnot
      exact absurd hnot (by decide)
    have hfind : find (text "DPT=") (portMessage port) = some 0 := rfl
    rw [parseKvField, hfind]
    exact htake
  have hne : (decNat port).isEmpty = false := by simpa using decNat_ne_nil port
  rw [parseDpt, hval]
  simp only [hne, fromChars_decNat hp, Bool.false_eq_true, if_false, Option.getD_some]

/-- Stale packets to the ports from 1 on. -/
def staleScan (m : ℕ) : List LogEvent :=
  (List.range m).map fun i => packet staleTime (portMessage (i + 1))

theorem mem_staleScan {m : ℕ} {ev : LogEvent} (hev : ev ∈ staleScan m) :
    ∃ i < m, ev = packet staleTime (portMessage (i + 1)) := by
  obtain ⟨i, hi, rfl⟩ := List.mem_map.mp hev
  exact ⟨i, List.mem_range.mp hi, rfl⟩

theorem packet_counts {cfg : RuleConfig} (hw : 86400 < cfg.scanWindowSeconds) (i : ℕ) :
    PortScanRule.counts (PortScanRule.cutoff (packet 0 (text "REJECT")) cfg)
      (packet staleTime (portMessage (i + 1))) = true := by
  have hlt : ¬(packet staleTime (portMessage (i + 1))).timestamp <
      PortScanRule.cutoff (packet 0 (text "REJECT")) cfg := not_staleTime_lt_seconds hw
  have hdpt : icontains (portMessage (i + 1)) (text "DPT=") = true := rfl
  rw [PortScanRule.counts, decide_eq_false hlt]
  exact hdpt

theorem card_naivePorts_stale {cfg : RuleConfig} (hw : 86400 < cfg.scanWindowSeconds) {m : ℕ}
    (hm : m ≤ 2147483647) :
    (naivePorts (packet 0 (text "REJECT")) (staleScan m) cfg (text "1")).card = m := by
  have hall : ∀ ev ∈ staleScan m, (extractSrcIp ev = text "1" ∧ PortScanRule.counts
      (PortScanRule.cutoff (packet 0 (text "REJECT")) cfg) ev) := by
    intro ev hev
    obtain ⟨i, -, rfl⟩ := mem_staleScan hev
    exact ⟨extractSrcIp_fromOne rfl, packet_counts hw i⟩
  have hports : (staleScan m).map (fun ev => parseDpt ev.message) =
      (List.range m).map fun i => ((i + 1 : ℕ) : ℤ) := by
    rw [staleScan, List.map_map]
    refine List.map_congr_left fun i hi => ?_
    have hi := List.mem_range.mp hi
    exact parseDpt_portMessage (by omega)
  have hpos : ∀ p ∈ ((List.range m).map fun i => ((i + 1 : ℕ) : ℤ)).toFinset, 0 < p := by
    intro p hp
    rcases List.mem_map.mp (List.mem_toFinset.mp hp) with ⟨i, -, rfl⟩
    omega
  have hown : PortScanRule.insertPort ∅ (packet 0 (text "REJECT")).message = ∅ := by decide
  rw [naivePorts, hown, Finset.empty_union, List.filter_eq_self.mpr (by simpa using hall), hports,
    Finset.filter_true_of_mem hpos, List.toFinset_card_of_nodup, List.length_map,
    List.length_range]
  exact List.nodup_range.map fun a b hab => by simpa using hab

/-- A port-scan window longer than a day separates index and scan. -/
theorem scanWindow_le_of_agrees {cfg : RuleConfig} (hthr : cfg.scanThreshold ≤ 2147483647)
    (h : ∀ event snapshot, Agrees event snapshot cfg) : cfg.scanWindowSeconds ≤ 86400 := by
  by_contra hw
  have hw : 86400 < cfg.scanWindowSeconds := not_le.mp hw
  -- one stale port at least, and enough of them to reach the threshold
  have hm : ∃ m : ℕ, 1 ≤ m ∧ m ≤ 2147483647 ∧ cfg.scanThreshold ≤ m :=
    ⟨max 1 cfg.scanThreshold.toNat, le_max_left _ _, by omega, by omega⟩
  rcases hm with ⟨m, hpos, hle, hreach⟩
  have hsub : ruleSubject .portScan (packet 0 (text "REJECT")) = some (text "1") := by decide
  rcases spared_of_agrees (h _ (staleScan m)) hsub with hfew | hrecent
  · rw [card_naivePorts_stale hw hle] at hfew
    omega
  · have hport : parseDpt (packet staleTime (portMessage 1)).message = 1 :=
      parseDpt_portMessage (by decide)
    have hown : parseDpt (packet 0 (text "REJECT")).message ≠ 1 := by decide
    rcases hrecent (packet staleTime (portMessage 1))
        (List.mem_map.mpr ⟨0, List.mem_range.mpr hpos, rfl⟩)
        ⟨extractSrcIp_fromOne rfl, packet_counts hw 0, by rw [hport]; decide⟩ with
      hsame | ⟨recent, hmem, hday, -⟩
    · exact hown (hsame.symm.trans hport)
    · obtain ⟨i, -, rfl⟩ := mem_staleScan hmem
      exact not_ofLastDay_staleTime rfl rfl hday

end scan

section priv

/-- A sudo session opened by `x`. -/
def sudoSession (time : ℤ) : LogEvent where
  timestamp := time
  logSource := text "sudo"
  message := text "session opened for root by x"

/-- A sudo history longer than a day separates index and scan. -/
theorem privHistory_le_of_agrees {cfg : RuleConfig}
    (h : ∀ event snapshot, Agrees event snapshot cfg) : cfg.privHistoryHours ≤ 24 := by
  by_contra hw
  have hsub : ruleSubject .privEsc (sudoSession 0) = some (text "x") := by decide
  have hprior : isPriorSession (sudoSession 0) cfg (text "x") (sudoSession staleTime) = true := by
    have hlt : ¬(sudoSession staleTime).timestamp < PrivEscRule.cutoff (sudoSession 0) cfg := by
      have ht : (sudoSession staleTime).timestamp = staleTime := rfl
      have h0 : (sudoSession 0).timestamp = 0 := rfl
      rw [ht, PrivEscRule.cutoff, h0, staleTime]
      unfold hours
      omega
    rw [isPriorSession, PrivEscRule.matchesUser, decide_eq_false hlt]
    decide
  obtain ⟨recent, hmem, hday, -⟩ := spared_of_agrees (h _ [sudoSession staleTime]) hsub _
    (List.mem_singleton_self _) hprior
  rw [List.mem_singleton.mp hmem] at hday
  exact not_ofLastDay_staleTime rfl rfl hday

end priv

section multi

/-- A failed login on a service from the address `1`. -/
def serviceFailure (time : ℤ) (service : Bytes) : LogEvent where
  timestamp := time
  logSource := service
  message := text "Invalid user"
  fields := fromOne

/-- Stale failures on services with distinct names. -/
def staleServices (m : ℕ) : List LogEvent :=
  (List.range m).map fun i => serviceFailure staleTime (decNat i)

theorem mem_staleServices {m : ℕ} {ev : LogEvent} (hev : ev ∈ staleServices m) :
    ∃ i < m, ev = serviceFailure staleTime (decNat i) := by
  obtain ⟨i, hi, rfl⟩ := List.mem_map.mp hev
  exact ⟨i, List.mem_range.mp hi, rfl⟩

theorem serviceFailure_counts {cfg : RuleConfig} (hw : 86400 < cfg.multiWindowSeconds) (i : ℕ) :
    MultiServiceAuthRule.counts (MultiServiceAuthRule.cutoff (serviceFailure 0 []) cfg)
      (serviceFailure staleTime (decNat i)) = true := by
  have hlt : ¬(serviceFailure staleTime (decNat i)).timestamp <
      MultiServiceAuthRule.cutoff (serviceFailure 0 []) cfg := not_staleTime_lt_seconds hw
  have hfail : MultiServiceAuthRule.isFailure (text "Invalid user") = true := by decide
  rw [MultiServiceAuthRule.counts, decide_eq_false hlt]
  exact hfail

theorem card_naiveServices_stale {cfg : RuleConfig} (hw : 86400 < cfg.multiWindowSeconds) (m : ℕ) :
    (naiveServices (serviceFailure 0 []) (staleServices m) cfg (text "1")).card = m := by
  have hall : ∀ ev ∈ staleServices m, (extractSrcIp ev = text "1" ∧ MultiServiceAuthRule.counts
      (MultiServiceAuthRule.cutoff (serviceFailure 0 []) cfg) ev) := by
    intro ev hev
    obtain ⟨i, -, rfl⟩ := mem_staleServices hev
    exact ⟨extractSrcIp_fromOne rfl, serviceFailure_counts hw i⟩
  have hnames : (staleServices m).map LogEvent.logSource = (List.range m).map decNat := by
    rw [staleServices, List.map_map]
    rfl
  have hne : ∀ s ∈ ((List.range m).map decNat).toFinset, s ≠ [] := by
    intro s hs
    rcases List.mem_map.mp (List.mem_toFinset.mp hs) with ⟨i, -, rfl⟩
    exact decNat_ne_nil i
  have hown : MultiServiceAuthRule.insertService ∅ (serviceFailure 0 []).logSource = ∅ := rfl
  rw [naiveServices, hown, Finset.empty_union, List.filter_eq_self.mpr (by simpa using hall),
    hnames, Finset.filter_true_of_mem hne,
    List.toFinset_card_of_nodup (List.nodup_range.map decNat_injective), List.length_map,
    List.length_range]

/-- A multi-service window longer than a day separates index and scan. -/
theorem multiWindow_le_of_agrees {cfg : RuleConfig}
    (h : ∀ event snapshot, Agrees event snapshot cfg) : cfg.multiWindowSeconds ≤ 86400 := by
  by_contra hw
  have hw : 86400 < cfg.multiWindowSeconds := not_le.mp hw
  -- one stale service at least, and enough of them to reach the minimum
  have hm : ∃ m : ℕ, 1 ≤ m ∧ cfg.multiMinServices ≤ m :=
    ⟨max 1 cfg.multiMinServices.toNat, le_max_left _ _, by omega⟩
  rcases hm with ⟨m, hpos, hreach⟩
  have hsub : ruleSubject .multiServiceAuth (serviceFailure 0 []) = some (text "1") := by decide
  rcases spared_of_agrees (h _ (staleServices m)) hsub with hfew | hrecent
  · rw [card_naiveServices_stale hw] at hfew
    omega
  · rcases hrecent (serviceFailure staleTime (decNat 0))
        (List.mem_map.mpr ⟨0, List.mem_range.mpr hpos, rfl⟩)
        ⟨extractSrcIp_fromOne rfl, serviceFailure_counts hw 0, decNat_ne_nil 0⟩ with
      hsame | ⟨recent, hmem, hday, -⟩
    · exact decNat_ne_nil 0 hsame
    · obtain ⟨i, -, rfl⟩ := mem_staleServices hmem
      exact not_ofLastDay_staleTime rfl rfl hday

end multi

/-- No window of a configuration is negative. -/
structure NonnegWindows (cfg : RuleConfig) : Prop where
  /-- The SSH window. -/
  ssh : 0 ≤ cfg.sshWindowSeconds
  /-- The port-scan window. -/
  scan : 0 ≤ cfg.scanWindowSeconds
  /-- The sudo history. -/
  priv : 0 ≤ cfg.privHistoryHours
  /-- The multi-service window. -/
  multi : 0 ≤ cfg.multiWindowSeconds

/-- The index serves a configuration file like the plain scan, on every event
and snapshot, exactly when no window of it is longer than a day. -/
theorem agrees_iff_withinDay (file : Option Bytes) :
    (∀ event snapshot, Agrees event snapshot (RuleConfig.fromYaml file)) ↔
      WithinDay (RuleConfig.fromYaml file) := by
  constructor
  · intro h
    have hthr : inInt32 (RuleConfig.fromYaml file).scanThreshold = true :=
      toInt_inInt32 _ _ (by decide)
    simp only [inInt32, Bool.and_eq_true, decide_eq_true_eq] at hthr
    exact ⟨sshWindow_le_of_agrees h, scanWindow_le_of_agrees hthr.2 h, privHistory_le_of_agrees h,
      multiWindow_le_of_agrees h⟩
  · intro hw event snapshot
    exact agrees_of_withinDay event snapshot hw

/-- A history of two days misses the session of the day before: the index
raises a first-time alert for a user whom the scan has seen. -/
theorem not_agrees_two_days :
    NonnegWindows (RuleConfig.fromYaml (some (text "priv_history_hours: 48\n"))) ∧
      ¬Agrees (sudoSession 0) [sudoSession staleTime]
        (RuleConfig.fromYaml (some (text "priv_history_hours: 48\n"))) := by
  constructor
  · exact ⟨by decide, by decide, by decide, by decide⟩
  · intro h
    exact absurd (h .privEsc 1 []) (by decide)

end Dlads.StaleWindows
