import Dlads.DetectionRules

/-!
# Index-accelerated rules against a plain scan

The naive rules select events from the whole snapshot by address or source and
apply nothing but their own window. The index admits events of the last day
only, so a rule run through it is the naive rule on the last day of the
snapshot.
-/

namespace Dlads.NaiveScan

open ByteText StringMaps Records YamlConfig IndexedHistory DetectionRules

/-- Failed logins from an address in the window, the current one included. -/
def naiveCount (event : LogEvent) (snapshot : List LogEvent) (cfg : RuleConfig) (srcIp : Bytes) :
    ℤ :=
  1 + snapshot.countP fun ev =>
    extractSrcIp ev = srcIp ∧ SshBruteForceRule.counts (SshBruteForceRule.cutoff event cfg) ev

/-- Ports hit from an address in the window, the current one included. -/
def naivePorts (event : LogEvent) (snapshot : List LogEvent) (cfg : RuleConfig) (srcIp : Bytes) :
    Finset ℤ :=
  PortScanRule.insertPort ∅ event.message ∪
    ((snapshot.filter fun ev => extractSrcIp ev = srcIp ∧
      PortScanRule.counts (PortScanRule.cutoff event cfg) ev).map
        fun ev => parseDpt ev.message).toFinset.filter (0 < ·)

/-- A sudo session of the user in the history looked back at. -/
def naiveSeenBefore (event : LogEvent) (snapshot : List LogEvent) (cfg : RuleConfig)
    (username : Bytes) : Bool :=
  snapshot.any fun ev => ev.logSource = text "sudo" ∧ PrivEscRule.matchesUser event cfg username ev

/-- Services failed on from an address in the window, the current one included. -/
def naiveServices (event : LogEvent) (snapshot : List LogEvent) (cfg : RuleConfig)
    (srcIp : Bytes) : Finset Bytes :=
  MultiServiceAuthRule.insertService ∅ event.logSource ∪
    ((snapshot.filter fun ev => extractSrcIp ev = srcIp ∧
      MultiServiceAuthRule.counts (MultiServiceAuthRule.cutoff event cfg) ev).map
        LogEvent.logSource).toFinset.filter (· ≠ [])

/-- A rule evaluated by scanning the whole snapshot. -/
def naiveEvaluate (event : LogEvent) (snapshot : List LogEvent) (cfg : RuleConfig) (id : Bytes) :
    Rule → Option AlertEvent
  | .sshBruteForce =>
    (SshBruteForceRule.subject event).bind fun srcIp =>
      let count := naiveCount event snapshot cfg srcIp
      if count < cfg.sshThreshold then none
      else some (SshBruteForceRule.alert event cfg srcIp count id)
  | .portScan =>
    (PortScanRule.subject event).bind fun srcIp =>
      let distinct : ℤ := (naivePorts event snapshot cfg srcIp).card
      if distinct < cfg.scanThreshold then none
      else some (PortScanRule.alert event cfg srcIp distinct id)
  | .privEsc =>
    (PrivEscRule.subject event).bind fun username =>
      if naiveSeenBefore event snapshot cfg username then none
      else some (PrivEscRule.alert event username id)
  | .multiServiceAuth =>
    (MultiServiceAuthRule.subject event).bind fun srcIp =>
      let services := naiveServices event snapshot cfg srcIp
      if (services.card : ℤ) < cfg.multiMinServices then none
      else some (MultiServiceAuthRule.alert event srcIp services id)

/-- An alert without its identifier. -/
def contents (alert : AlertEvent) : AlertEvent := { alert with alertId := [] }

/-- A rule run through the index that `process` builds for the event. -/
def indexedEvaluate (event : LogEvent) (snapshot : List LogEvent) (cfg : RuleConfig)
    (counter : UInt64) (rule : Rule) : Option AlertEvent :=
  (rule.evaluate event snapshot (buildIndex snapshot event.timestamp) cfg counter).1

/-- Same decision and same contents of every rule, whatever the identifiers. -/
def Agrees (event : LogEvent) (snapshot : List LogEvent) (cfg : RuleConfig) : Prop :=
  ∀ rule counter id, (indexedEvaluate event snapshot cfg counter rule).map contents =
    (naiveEvaluate event snapshot cfg id rule).map contents

/-- No window reaches back further than the day the index keeps. -/
structure WithinDay (cfg : RuleConfig) : Prop where
  /-- The SSH window. -/
  ssh : cfg.sshWindowSeconds ≤ 86400
  /-- The port-scan window. -/
  scan : cfg.scanWindowSeconds ≤ 86400
  /-- The sudo history. -/
  priv : cfg.privHistoryHours ≤ 24
  /-- The multi-service window. -/
  multi : cfg.multiWindowSeconds ≤ 86400

/-- The snapshot without the events older than a day. -/
def lastDay (event : LogEvent) (snapshot : List LogEvent) : List LogEvent :=
  snapshot.filter (ofLastDay event.timestamp)

/-- A window of at most a day's seconds takes no event older than a day. -/
theorem ofLastDay_of_seconds {now window : ℤ} {ev : LogEvent} (hw : window ≤ 86400)
    (hc : ¬ev.timestamp < now - seconds window) : ofLastDay now ev = true := by
  unfold seconds at hc
  refine decide_eq_true ?_
  unfold hours
  omega

/-- A counting loop counts. -/
theorem foldl_count (p : LogEvent → Bool) (xs : List LogEvent) (n : ℤ) :
    xs.foldl (fun count ev => if p ev then count + 1 else count) n = n + (xs.filter p).length := by
  induction xs generalizing n with
  | nil => simp
  | cons ev rest ih =>
    rw [List.foldl_cons, ih]
    cases hp : p ev with
    | false => rw [if_neg (by simp), List.filter_cons_of_neg (by simp [hp])]
    | true =>
      rw [if_pos rfl, List.filter_cons_of_pos hp, List.length_cons]
      push_cast
      ring

/-- A loop inserting ports collects the positive ones. -/
theorem foldl_insertPort (xs : List LogEvent) (ports : Finset ℤ) :
    xs.foldl (fun ports ev => PortScanRule.insertPort ports ev.message) ports =
      ports ∪ (xs.map fun ev => parseDpt ev.message).toFinset.filter (0 < ·) := by
  induction xs generalizing ports with
  | nil => simp
  | cons ev rest ih =>
    rw [List.foldl_cons, ih, PortScanRule.insertPort, List.map_cons, List.toFinset_cons,
      Finset.filter_insert]
    split
    · rw [Finset.insert_union, Finset.union_insert]
    · rfl

/-- A loop inserting services collects the non-empty ones. -/
theorem foldl_insertService (xs : List LogEvent) (services : Finset Bytes) :
    xs.foldl (fun services ev => MultiServiceAuthRule.insertService services ev.logSource)
        services =
      services ∪ (xs.map LogEvent.logSource).toFinset.filter (· ≠ []) := by
  induction xs generalizing services with
  | nil => simp
  | cons ev rest ih =>
    rw [List.foldl_cons, ih, MultiServiceAuthRule.insertService, List.map_cons,
      List.toFinset_cons, Finset.filter_insert]
    cases hs : ev.logSource with
    | nil => rfl
    | cons c cs => simp [Finset.insert_union, Finset.union_insert]

section lastDay

variable (event : LogEvent) (snapshot : List LogEvent) (cfg : RuleConfig) (srcIp : Bytes)

/-- Selecting from an address bucket is selecting from the last day. -/
theorem filter_bucket_lastDay (p : LogEvent → Bool) :
    (bucket (buildIndex snapshot event.timestamp).byIp srcIp).filter p =
      (lastDay event snapshot).filter fun ev => extractSrcIp ev = srcIp ∧ p ev := by
  rw [bucket_byIp_buildIndex, List.filter_filter, lastDay]
  congr 1
  funext ev
  rw [Bool.and_comm, Bool.decide_and, Bool.decide_eq_true]

/-- A selection that takes no event older than a day does not miss the others. -/
theorem filter_lastDay {p : LogEvent → Bool}
    (hp : ∀ ev, p ev = true → ofLastDay event.timestamp ev = true) :
    (lastDay event snapshot).filter p = snapshot.filter p := by
  rw [lastDay, List.filter_filter]
  congr 1
  funext ev
  cases hc : p ev with
  | false => rfl
  | true => rw [hp ev hc, Bool.true_and]

/-- The index counts the failed logins of the last day, whatever the window. -/
theorem count_lastDay :
    SshBruteForceRule.count event (buildIndex snapshot event.timestamp) cfg srcIp =
      naiveCount event (lastDay event snapshot) cfg srcIp := by
  rw [SshBruteForceRule.count, foldl_count, filter_bucket_lastDay, naiveCount,
    List.countP_eq_length_filter]

/-- The index has the ports of the last day. -/
theorem portsSeen_lastDay :
    PortScanRule.portsSeen event (buildIndex snapshot event.timestamp) cfg srcIp =
      naivePorts event (lastDay event snapshot) cfg srcIp := by
  rw [PortScanRule.portsSeen, ← List.foldl_filter, filter_bucket_lastDay, foldl_insertPort,
    naivePorts]

/-- The index has the sudo history of the last day. -/
theorem seenBefore_lastDay (username : Bytes) :
    PrivEscRule.seenBefore event (buildIndex snapshot event.timestamp) cfg username =
      naiveSeenBefore event (lastDay event snapshot) cfg username := by
  rw [PrivEscRule.seenBefore, bucket_bySource_buildIndex, List.any_filter, naiveSeenBefore, lastDay]
  congr 1
  funext ev
  rw [Bool.decide_and, Bool.decide_eq_true]

/-- The index has the services of the last day. -/
theorem servicesHit_lastDay :
    MultiServiceAuthRule.servicesHit event (buildIndex snapshot event.timestamp) cfg srcIp =
      naiveServices event (lastDay event snapshot) cfg srcIp := by
  rw [MultiServiceAuthRule.servicesHit, ← List.foldl_filter, filter_bucket_lastDay,
    foldl_insertService, naiveServices]

end lastDay

section agreement

variable {event : LogEvent} {cfg : RuleConfig} (snapshot : List LogEvent)

/-- The indexed count is the naive one when the window stays within a day. -/
theorem count_eq_naive (hw : cfg.sshWindowSeconds ≤ 86400) (srcIp : Bytes) :
    SshBruteForceRule.count event (buildIndex snapshot event.timestamp) cfg srcIp =
      naiveCount event snapshot cfg srcIp := by
  have hday : ∀ ev, decide (extractSrcIp ev = srcIp ∧
      SshBruteForceRule.counts (SshBruteForceRule.cutoff event cfg) ev = true) = true →
      ofLastDay event.timestamp ev = true := by
    intro ev hc
    simp only [SshBruteForceRule.counts, decide_eq_true_eq, Bool.and_eq_true, Bool.not_eq_true',
      decide_eq_false_iff_not] at hc
    exact ofLastDay_of_seconds hw hc.2.1.2
  rw [count_lastDay, naiveCount, naiveCount, List.countP_eq_length_filter,
    List.countP_eq_length_filter, filter_lastDay event snapshot hday]

/-- The indexed history check is the naive one when it stays within a day. -/
theorem seenBefore_eq_naive (hw : cfg.privHistoryHours ≤ 24) (username : Bytes) :
    PrivEscRule.seenBefore event (buildIndex snapshot event.timestamp) cfg username =
      naiveSeenBefore event snapshot cfg username := by
  have hday : ∀ ev, decide (ev.logSource = text "sudo" ∧
      PrivEscRule.matchesUser event cfg username ev = true) = true →
      ofLastDay event.timestamp ev = true := by
    intro ev hc
    simp only [PrivEscRule.matchesUser, decide_eq_true_eq, Bool.and_eq_true, Bool.not_eq_true',
      decide_eq_false_iff_not] at hc
    have hcut := hc.2.1.1.1
    unfold PrivEscRule.cutoff hours at hcut
    refine decide_eq_true ?_
    unfold hours
    omega
  rw [seenBefore_lastDay, naiveSeenBefore, naiveSeenBefore, Bool.eq_iff_iff, List.any_eq_true,
    List.any_eq_true]
  refine exists_congr fun ev => and_congr_left fun hprior => ?_
  rw [lastDay, List.mem_filter, hday ev hprior, eq_self, and_true]

end agreement

end Dlads.NaiveScan
