import Dlads.RuleTallies

/-!
# Rules and events later than the trigger

A snapshot may hold events stamped later than the arriving one. The sudo
history stops before the arriving event. The windows of the other rules have a
start and no end, so such events are counted: a rule is unaffected by them
exactly if it stays silent even with their help, or if they add nothing to
what it counts.
-/

namespace Dlads.BackwardsScan

open ByteText StringMaps Records YamlConfig IndexedHistory DetectionRules NaiveScan RaisedAlerts
open RuleTallies

/-- The events not later than the trigger. -/
def upTo (event : LogEvent) (history : List LogEvent) : List LogEvent :=
  history.filter (·.timestamp ≤ event.timestamp)

/-- Failed logins from an address in a window that ends with the trigger, which
counts as one of them. -/
def oracleCount (event : LogEvent) (snapshot : List LogEvent) (cfg : RuleConfig) (srcIp : Bytes) :
    ℤ :=
  1 + snapshot.countP fun ev => extractSrcIp ev = srcIp ∧
    SshBruteForceRule.isSource ev.logSource ∧ SshBruteForceRule.isFailure ev.message ∧
    event.timestamp - seconds cfg.sshWindowSeconds ≤ ev.timestamp ∧
    ev.timestamp ≤ event.timestamp

/-- What the rules return does not depend on events later than the trigger. -/
structure LooksBackwards (event : LogEvent) (snapshot : List LogEvent) (cfg : RuleConfig) :
    Prop where
  /-- Without those events every rule returns the same alert, or none again. -/
  unchanged : ∀ rule counter counter', (indexedEvaluate event snapshot cfg counter rule).map
    contents = (indexedEvaluate event (upTo event snapshot) cfg counter' rule).map contents
  /-- Within a day the SSH rule counts the window that ends with the trigger. -/
  oracle : cfg.sshWindowSeconds ≤ 86400 → ∀ srcIp,
    SshBruteForceRule.subject event = some srcIp → ∀ counter,
      (indexedEvaluate event snapshot cfg counter .sshBruteForce).isSome = true ↔
        cfg.sshThreshold ≤ oracleCount event snapshot cfg srcIp

/-- Later events add nothing to what a rule counts: no failed login at all, no
port and no service that was not hit by then. -/
def AddsNothing (event : LogEvent) (history : List LogEvent) (cfg : RuleConfig)
    (subject : Bytes) : Rule → Prop
  | .sshBruteForce => ∀ ev ∈ history, extractSrcIp ev = subject →
      SshBruteForceRule.counts (SshBruteForceRule.cutoff event cfg) ev = true →
      ev.timestamp ≤ event.timestamp
  | .portScan => ∀ ev ∈ history, extractSrcIp ev = subject →
      PortScanRule.counts (PortScanRule.cutoff event cfg) ev = true → 0 < parseDpt ev.message →
      parseDpt ev.message ∈ naivePorts event (upTo event history) cfg subject
  | .privEsc => True
  | .multiServiceAuth => ∀ ev ∈ history, extractSrcIp ev = subject →
      MultiServiceAuthRule.counts (MultiServiceAuthRule.cutoff event cfg) ev = true →
      ev.logSource ≠ [] →
      ev.logSource ∈ naiveServices event (upTo event history) cfg subject

variable {event : LogEvent} {cfg : RuleConfig} {subject : Bytes}

/-- Leaving out later events leaves out events. -/
theorem upTo_subperm (event : LogEvent) (history : List LogEvent) :
    (upTo event history).Subperm history := List.filter_sublist.subperm

/-- Leaving out later and old events, in either order. -/
theorem lastDay_upTo (event : LogEvent) (snapshot : List LogEvent) :
    lastDay event (upTo event snapshot) = upTo event (lastDay event snapshot) := by
  unfold lastDay upTo
  rw [List.filter_filter, List.filter_filter]
  congr 1
  funext ev
  rw [Bool.and_comm]

/-- A rule's number stays the same without the later events exactly if they
add nothing to it. -/
theorem tally_upTo_iff (history : List LogEvent) (rule : Rule) :
    tally event (upTo event history) cfg subject rule = tally event history cfg subject rule ↔
      AddsNothing event history cfg subject rule := by
  cases rule with
  | sshBruteForce =>
    have hcount := countP_filter_eq_iff history
      (fun ev => decide (extractSrcIp ev = subject ∧
        SshBruteForceRule.counts (SshBruteForceRule.cutoff event cfg) ev = true))
      (fun ev => decide (ev.timestamp ≤ event.timestamp))
    simp only [decide_eq_true_eq, and_imp] at hcount
    rw [AddsNothing, ← hcount, tally, tally, naiveCount, naiveCount, upTo]
    omega
  | portScan =>
    rw [tally, tally, card_eq_iff_subset (naivePorts_mono (upTo_subperm event history).subset)]
    exact naivePorts_subset_iff Finset.subset_union_left
  | privEsc =>
    rw [AddsNothing, iff_true, tally, tally, Int.natCast_inj, upTo, countP_filter_eq_iff]
    intro ev _ hprior
    simp only [isPriorSession, PrivEscRule.matchesUser, decide_eq_true_eq, Bool.and_eq_true,
      Bool.not_eq_true', decide_eq_false_iff_not] at hprior
    exact decide_eq_true (by omega)
  | multiServiceAuth =>
    rw [tally, tally, card_eq_iff_subset (naiveServices_mono (upTo_subperm event history).subset)]
    exact naiveServices_subset_iff Finset.subset_union_left

/-- What a rule returns about a subject stays the same without the later events
exactly if it is silent or they add nothing. -/
theorem unchanged_iff {snapshot : List LogEvent} {rule : Rule}
    (hsubject : ruleSubject rule event = some subject) (counter counter' : UInt64) :
    (indexedEvaluate event snapshot cfg counter rule).map contents =
        (indexedEvaluate event (upTo event snapshot) cfg counter' rule).map contents ↔
      (quiet cfg (tally event (lastDay event snapshot) cfg subject rule) rule = false →
        AddsNothing event (lastDay event snapshot) cfg subject rule) := by
  rw [indexedEvaluate_eq, indexedEvaluate_eq, hsubject, Option.bind_some, Option.bind_some,
    lastDay_upTo, ← tally_upTo_iff, eq_comm]
  refine (scanned_eq_iff (upTo_subperm event _) rule _ _).trans ?_
  refine and_iff_right_of_imp fun hsame => ?_
  cases hq : quiet cfg (tally event (lastDay event snapshot) cfg subject rule) rule with
  | false => rw [hsame hq, hq]
  | true =>
    by_cases hrule : rule = .privEsc
    -- every session is earlier than the trigger
    · rw [(tally_upTo_iff _ _).mpr (hrule ▸ trivial), hq]
    · exact quiet_of_le hrule (tally_mono (upTo_subperm event _) rule) hq

/-- Within a day the plain count up to the trigger is the oracle's. -/
theorem oracleCount_eq (event : LogEvent) (snapshot : List LogEvent) {cfg : RuleConfig}
    (hw : cfg.sshWindowSeconds ≤ 86400) (srcIp : Bytes) :
    naiveCount event (upTo event (lastDay event snapshot)) cfg srcIp =
      oracleCount event snapshot cfg srcIp := by
  rw [naiveCount, oracleCount, upTo, lastDay, List.filter_filter, List.countP_filter]
  congr 3
  funext ev
  rw [Bool.eq_iff_iff]
  simp only [SshBruteForceRule.counts, ofLastDay, Bool.and_eq_true, Bool.not_eq_true',
    decide_eq_true_eq, decide_eq_false_iff_not]
  unfold SshBruteForceRule.cutoff hours seconds
  constructor
  · rintro ⟨⟨hip, ⟨hsource, hcut⟩, hfailure⟩, hupTo, -⟩
    exact ⟨hip, hsource, hfailure, by omega, hupTo⟩
  · rintro ⟨hip, hsource, hfailure, hcut, hupTo⟩
    exact ⟨⟨hip, ⟨hsource, by omega⟩, hfailure⟩, hupTo, by omega⟩

/-- The rules look only backwards exactly if the later events add nothing to
any rule that is not silent. -/
theorem looksBackwards_iff (event : LogEvent) (snapshot : List LogEvent) (cfg : RuleConfig) :
    LooksBackwards event snapshot cfg ↔ ∀ rule subject, ruleSubject rule event = some subject →
      quiet cfg (tally event (lastDay event snapshot) cfg subject rule) rule = false →
        AddsNothing event (lastDay event snapshot) cfg subject rule := by
  constructor
  · intro h rule subject hsubject
    exact (unchanged_iff hsubject 0 0).mp (h.unchanged rule 0 0)
  · intro h
    have hunchanged : ∀ rule counter counter', (indexedEvaluate event snapshot cfg counter rule).map
        contents = (indexedEvaluate event (upTo event snapshot) cfg counter' rule).map
          contents := by
      intro rule counter counter'
      cases hsubject : ruleSubject rule event with
      | none => rw [indexedEvaluate_eq, indexedEvaluate_eq, hsubject, Option.bind_none,
          Option.bind_none]
      | some subject => exact (unchanged_iff hsubject counter counter').mpr (h rule subject hsubject)
    refine ⟨hunchanged, fun hw srcIp hsubject counter => ?_⟩
    have htally : tally event (lastDay event (upTo event snapshot)) cfg srcIp .sshBruteForce =
        oracleCount event snapshot cfg srcIp := by
      rw [lastDay_upTo, tally, oracleCount_eq event snapshot hw]
    rw [← Option.isSome_map (f := contents), hunchanged _ counter counter, Option.isSome_map,
      indexedEvaluate_eq, ruleSubject, hsubject, Option.bind_some, htally]
    by_cases hlt : oracleCount event snapshot cfg srcIp < cfg.sshThreshold
    · simp [quiet, hlt, not_le.mpr hlt]
    · simp [quiet, hlt, not_lt.mp hlt]

/-- A failed login stamped a second later completes a burst of two. -/
theorem laterLogin_counted :
    ¬LooksBackwards (rootLogin 0) [rootLogin (seconds 1)] { sshThreshold := 2 } := by
  intro h
  have hnothing := (unchanged_iff (rootLogin_subject 0) 0 0).mp (h.unchanged .sshBruteForce 0 0)
    (by decide +kernel) (rootLogin (seconds 1))
    (List.mem_filter.mpr ⟨List.mem_singleton_self _, by decide⟩) (by decide +kernel)
    (by decide +kernel)
  exact absurd hnothing (by decide)

end Dlads.BackwardsScan
