import Dlads.RaisedAlerts
import Dlads.RangedArithmetic

/-!
# The range of the rules' arithmetic

The rules compute their cutoffs in 64-bit nanoseconds, the SSH rule counts and
scales in 32-bit `int`, and a cooldown ends at a 64-bit time point. None of the
numbers of the configuration file is checked beyond fitting into an `int`. Here
each operation has a result only if it is in range, and the calls are compared
with those on unbounded integers: they agree unless the sudo history, a
negative window, a negative threshold or the long cooldown of an alert takes an
operation out of its range.
-/

namespace Dlads.RuleArithmetic

open ByteText StringMaps FloatFormat Records YamlConfig IndexedHistory DetectionRules RuleDriver
open RaisedAlerts RangedArithmetic

/-- `t - std::chrono::seconds(n)`. -/
def minusSeconds (t n : ℤ) : Option ℤ := subScaled 63 1000000000 t n

/-- `t - std::chrono::hours(n)`. -/
def minusHours (t n : ℤ) : Option ℤ := subScaled 63 3600000000000 t n

/-- `t + std::chrono::seconds(n)`. -/
def plusSeconds (t n : ℤ) : Option ℤ := addScaled 63 1000000000 t n

/-- `SshBruteForceRule::evaluate`. -/
def sshEvaluate (event : LogEvent) (index : EventIndex) (cfg : RuleConfig) (counter : UInt64) :
    Option (Option AlertEvent × UInt64) :=
  match SshBruteForceRule.subject event with
  | none => some (none, counter)
  | some srcIp => do
    let cutoff ← minusSeconds event.timestamp cfg.sshWindowSeconds
    let count ← (bucket index.byIp srcIp).foldlM (fun count ev =>
      if SshBruteForceRule.counts cutoff ev then checked 31 (count + 1) else some count) 1
    if count < cfg.sshThreshold then some (none, counter)
    else
      let scale ← checked 31 (cfg.sshThreshold * 2)
      some (raise (fun id =>
        { SshBruteForceRule.alert event cfg srcIp count id with
          anomalyScore := cappedScore count scale }) counter)

/-- `PortScanRule::evaluate`. -/
def scanEvaluate (event : LogEvent) (index : EventIndex) (cfg : RuleConfig) (counter : UInt64) :
    Option (Option AlertEvent × UInt64) :=
  match PortScanRule.subject event with
  | none => some (none, counter)
  | some srcIp => do
    let cutoff ← minusSeconds event.timestamp cfg.scanWindowSeconds
    let portsSeen := (bucket index.byIp srcIp).foldl (fun ports ev =>
      if PortScanRule.counts cutoff ev then PortScanRule.insertPort ports ev.message else ports)
      (PortScanRule.insertPort ∅ event.message)
    let distinct ← checked 31 portsSeen.card
    if distinct < cfg.scanThreshold then some (none, counter)
    else some (raise (PortScanRule.alert event cfg srcIp distinct) counter)

/-- `PrivEscRule::evaluate`. -/
def privEvaluate (event : LogEvent) (index : EventIndex) (cfg : RuleConfig) (counter : UInt64) :
    Option (Option AlertEvent × UInt64) :=
  match PrivEscRule.subject event with
  | none => some (none, counter)
  | some username => do
    let cutoff ← minusHours event.timestamp cfg.privHistoryHours
    let seenBefore := (bucket index.bySource (text "sudo")).any fun ev =>
      !(ev.timestamp < cutoff) && !(event.timestamp ≤ ev.timestamp) &&
        icontains ev.message (text "session opened") && icontains ev.message username
    if seenBefore then some (none, counter)
    else some (raise (PrivEscRule.alert event username) counter)

/-- `MultiServiceAuthRule::evaluate`. -/
def multiEvaluate (event : LogEvent) (index : EventIndex) (cfg : RuleConfig) (counter : UInt64) :
    Option (Option AlertEvent × UInt64) :=
  match MultiServiceAuthRule.subject event with
  | none => some (none, counter)
  | some srcIp => do
    let cutoff ← minusSeconds event.timestamp cfg.multiWindowSeconds
    let servicesHit := (bucket index.byIp srcIp).foldl (fun services ev =>
      if MultiServiceAuthRule.counts cutoff ev then
        MultiServiceAuthRule.insertService services ev.logSource
      else services)
      (MultiServiceAuthRule.insertService ∅ event.logSource)
    let distinct ← checked 31 servicesHit.card
    if distinct < cfg.multiMinServices then some (none, counter)
    else some (raise (MultiServiceAuthRule.alert event srcIp servicesHit) counter)

/-- `evaluate`, dispatched on the rule. -/
def evaluate : Rule → LogEvent → EventIndex → RuleConfig → UInt64 →
    Option (Option AlertEvent × UInt64)
  | .sshBruteForce => sshEvaluate
  | .portScan => scanEvaluate
  | .privEsc => privEvaluate
  | .multiServiceAuth => multiEvaluate

/-- One iteration of the loop in `build_index`. -/
def indexFrom (cutoff60s cutoff300s cutoffMax : ℤ) (idx : EventIndex) (ev : LogEvent) :
    EventIndex :=
  if ev.timestamp < cutoffMax then idx
  else
    let idx := { idx with
      byIp := pushBack idx.byIp (extractSrcIp ev) ev
      bySource := pushBack idx.bySource ev.logSource ev }
    if cutoff300s ≤ ev.timestamp then
      let idx := { idx with last300s := idx.last300s ++ [ev] }
      if cutoff60s ≤ ev.timestamp then { idx with last60s := idx.last60s ++ [ev] } else idx
    else idx

/-- `RuleEngine::build_index`. -/
def buildIndex (snapshot : List LogEvent) (now : ℤ) : Option EventIndex := do
  let cutoff60s ← minusSeconds now 60
  let cutoff300s ← minusSeconds now 300
  let cutoffMax ← minusHours now 24
  return snapshot.foldl (indexFrom cutoff60s cutoff300s cutoffMax) {}

/-- `set_cooldown(key, std::chrono::seconds(duration))` at a clock reading. -/
def setCooldown (engine : RuleEngine) (key : Bytes) (duration now : ℤ) : Option RuleEngine := do
  let expiry ← plusSeconds now duration
  return { engine with cooldownMap := assign engine.cooldownMap key expiry }

/-- The configured cooldown of a rule, in seconds. -/
def cooldownSeconds (cfg : RuleConfig) : Rule → ℤ
  | .sshBruteForce => cfg.sshCooldownSeconds
  | .portScan => cfg.scanCooldownSeconds
  | .privEsc => cfg.privCooldownSeconds
  | .multiServiceAuth => cfg.multiCooldownSeconds

/-- The configured window of a rule, in its unit. -/
def window (cfg : RuleConfig) : Rule → ℤ
  | .sshBruteForce => cfg.sshWindowSeconds
  | .portScan => cfg.scanWindowSeconds
  | .privEsc => cfg.privHistoryHours
  | .multiServiceAuth => cfg.multiWindowSeconds

/-- The unit of a rule's window, in nanoseconds. -/
def windowUnit : Rule → ℤ
  | .privEsc => 3600000000000
  | _ => 1000000000

/-- The arithmetic of a call of `process` stays in range, and no window that is
not negative has its cutoff behind the event, not even by wrapping around. -/
structure InRange (engine : RuleEngine) (event : LogEvent) (snapshot : List LogEvent)
    (readings : Rule → Reading) : Prop where
  /-- The index is built as without bounds. -/
  index : buildIndex snapshot event.timestamp =
    some (IndexedHistory.buildIndex snapshot event.timestamp)
  /-- Each rule evaluates as without bounds. -/
  evaluate : ∀ rule counter, evaluate rule event
      (IndexedHistory.buildIndex snapshot event.timestamp) engine.cfg counter =
    some (rule.evaluate event snapshot (IndexedHistory.buildIndex snapshot event.timestamp)
      engine.cfg counter)
  /-- Each cooldown that is started, behind an alert, starts as without bounds. -/
  cooldown : ∀ rule subject, raised engine event snapshot readings rule = some subject →
    ∀ running key, setCooldown ⟨engine.cfg, running⟩ key (cooldownSeconds engine.cfg rule)
        (readings rule).set =
      some (RuleEngine.setCooldown ⟨engine.cfg, running⟩ key (rule.cooldown engine.cfg)
        (readings rule).set)
  /-- Cutoffs that are computed lie before the event. -/
  cutoff : ∀ rule, (ruleSubject rule event).isSome → 0 ≤ window engine.cfg rule →
    wrapSubScaled 63 (windowUnit rule) event.timestamp (window engine.cfg rule) ≤ event.timestamp

/-- The numbers that keep the arithmetic in range. -/
structure Moderate (engine : RuleEngine) (event : LogEvent) (snapshot : List LogEvent)
    (readings : Rule → Reading) : Prop where
  /-- A sudo history, when it is computed, is below 2562048 hours either way. -/
  history : (PrivEscRule.subject event).isSome →
    -2562047 ≤ engine.cfg.privHistoryHours ∧ engine.cfg.privHistoryHours ≤ 2562047
  /-- No window, when it is computed, is so negative that its cutoff is beyond
  the last time point. -/
  window : ∀ rule, (ruleSubject rule event).isSome →
    event.timestamp ≤ 9223372036854775807 + window engine.cfg rule * windowUnit rule
  /-- The threshold, when it is reached, can be doubled. -/
  threshold : (SshBruteForceRule.subject event).isSome → -1073741824 ≤ engine.cfg.sshThreshold
  /-- The cooldown of a rule that raises an alert ends before the last time point. -/
  cooldown : ∀ rule, (raised engine event snapshot readings rule).isSome →
    (readings rule).set + cooldownSeconds engine.cfg rule * 1000000000 ≤ 9223372036854775807

section spans

/-- The range of 64-bit nanoseconds. -/
theorem fits_nanoseconds {n : ℤ} :
    Fits 63 n ↔ -9223372036854775808 ≤ n ∧ n ≤ 9223372036854775807 := by
  have hsize : (2 : ℤ) ^ 63 = 9223372036854775808 := by norm_num
  rw [Fits, hsize]
  omega

/-- The range of `int`. -/
theorem fits_int {n : ℤ} : Fits 31 n ↔ -2147483648 ≤ n ∧ n ≤ 2147483647 := by
  have hsize : (2 : ℤ) ^ 31 = 2147483648 := by norm_num
  rw [Fits, hsize]
  omega

/-- Every configured number is an `int`. -/
theorem fits_toInt (m : StringMap Bytes) (key : Bytes) {default : ℤ}
    (hd : inInt32 default = true) :
    -2147483648 ≤ toInt m key default ∧ toInt m key default ≤ 2147483647 := by
  have hint := toInt_inInt32 m key hd
  simpa only [inInt32, Bool.and_eq_true, decide_eq_true_eq] using hint

theorem fits_window (file : Option Bytes) (rule : Rule) :
    -2147483648 ≤ window (RuleConfig.fromYaml file) rule ∧
      window (RuleConfig.fromYaml file) rule ≤ 2147483647 := by
  cases rule with
  | sshBruteForce | portScan | privEsc | multiServiceAuth => exact fits_toInt _ _ (by decide)

theorem fits_cooldownSeconds (file : Option Bytes) (rule : Rule) :
    -2147483648 ≤ cooldownSeconds (RuleConfig.fromYaml file) rule ∧
      cooldownSeconds (RuleConfig.fromYaml file) rule ≤ 2147483647 := by
  cases rule with
  | sshBruteForce | portScan | privEsc | multiServiceAuth => exact fits_toInt _ _ (by decide)

theorem fits_sshThreshold (file : Option Bytes) :
    -2147483648 ≤ (RuleConfig.fromYaml file).sshThreshold ∧
      (RuleConfig.fromYaml file).sshThreshold ≤ 2147483647 :=
  fits_toInt _ _ (by decide)

/-- The cutoff of a rule is computed in range. -/
def SpanFits (cfg : RuleConfig) (t : ℤ) (rule : Rule) : Prop :=
  Fits 63 (window cfg rule * windowUnit rule) ∧ Fits 63 (t - window cfg rule * windowUnit rule)

/-- The end of the year 2200. -/
def endOf2200 : ℤ := 7289654400000000000

/-- A window of seconds fits unless it is very negative; a history of hours
has to be moderate besides. -/
theorem spanFits_iff {cfg : RuleConfig} {t : ℤ} {rule : Rule} (ht : 0 ≤ t ∧ t ≤ endOf2200)
    (hw : -2147483648 ≤ window cfg rule ∧ window cfg rule ≤ 2147483647) :
    SpanFits cfg t rule ↔
      (rule = .privEsc → -2562047 ≤ cfg.privHistoryHours ∧ cfg.privHistoryHours ≤ 2562047) ∧
        t ≤ 9223372036854775807 + window cfg rule * windowUnit rule := by
  rw [SpanFits, fits_nanoseconds, fits_nanoseconds]
  unfold endOf2200 at ht
  cases rule with
  | privEsc =>
    dsimp only [window, windowUnit] at hw ⊢
    constructor
    · rintro ⟨hscaled, hshifted⟩
      exact ⟨fun _ => by omega, by omega⟩
    · rintro ⟨hhours, hshifted⟩
      have hhours := hhours rfl
      exact ⟨by omega, by omega⟩
  | sshBruteForce | portScan | multiServiceAuth =>
    dsimp only [window, windowUnit] at hw ⊢
    constructor
    · rintro ⟨hscaled, hshifted⟩
      exact ⟨(nomatch ·), by omega⟩
    · rintro ⟨-, hshifted⟩
      exact ⟨by omega, by omega⟩

end spans

section evaluation

variable {cfg : RuleConfig} {event : LogEvent} {snapshot : List LogEvent} {index : EventIndex}
  {counter : UInt64} {subject : Bytes}

/-- Nothing is computed for an event that a rule does not look at. -/
theorem evaluate_of_subject_eq_none {rule : Rule} (hsub : ruleSubject rule event = none) :
    evaluate rule event index cfg counter =
      some (rule.evaluate event snapshot index cfg counter) := by
  cases rule with
  | sshBruteForce =>
    have hsub : SshBruteForceRule.subject event = none := hsub
    simp only [evaluate, sshEvaluate, Rule.evaluate, SshBruteForceRule.evaluate, hsub]
  | portScan =>
    have hsub : PortScanRule.subject event = none := hsub
    simp only [evaluate, scanEvaluate, Rule.evaluate, PortScanRule.evaluate, hsub]
  | privEsc =>
    have hsub : PrivEscRule.subject event = none := hsub
    simp only [evaluate, privEvaluate, Rule.evaluate, PrivEscRule.evaluate, hsub]
  | multiServiceAuth =>
    have hsub : MultiServiceAuthRule.subject event = none := hsub
    simp only [evaluate, multiEvaluate, Rule.evaluate, MultiServiceAuthRule.evaluate, hsub]

/-- Every rule computes its cutoff first. -/
theorem evaluate_eq_bind (cfg : RuleConfig) (index : EventIndex) (counter : UInt64) {rule : Rule}
    (hsub : ruleSubject rule event = some subject) :
    ∃ rest : ℤ → Option (Option AlertEvent × UInt64), evaluate rule event index cfg counter =
      (subScaled 63 (windowUnit rule) event.timestamp (window cfg rule)).bind rest := by
  cases rule with
  | sshBruteForce =>
    have hsub : SshBruteForceRule.subject event = some subject := hsub
    simp only [evaluate, sshEvaluate, hsub]
    exact ⟨_, rfl⟩
  | portScan =>
    have hsub : PortScanRule.subject event = some subject := hsub
    simp only [evaluate, scanEvaluate, hsub]
    exact ⟨_, rfl⟩
  | privEsc =>
    have hsub : PrivEscRule.subject event = some subject := hsub
    simp only [evaluate, privEvaluate, hsub]
    exact ⟨_, rfl⟩
  | multiServiceAuth =>
    have hsub : MultiServiceAuthRule.subject event = some subject := hsub
    simp only [evaluate, multiEvaluate, hsub]
    exact ⟨_, rfl⟩

/-- So a rule whose cutoff leaves the range has no result. -/
theorem evaluate_eq_none {rule : Rule} (hsub : ruleSubject rule event = some subject)
    (hspan : ¬SpanFits cfg event.timestamp rule) :
    evaluate rule event index cfg counter = none := by
  obtain ⟨rest, hrest⟩ := evaluate_eq_bind cfg index counter hsub
  rw [hrest, subScaled_eq_none hspan, Option.bind_none]

/-- A bucket of the index holds no more events than the snapshot. -/
theorem length_bucket_byIp_le (snapshot : List LogEvent) (now : ℤ) (ip : Bytes) :
    (bucket (IndexedHistory.buildIndex snapshot now).byIp ip).length ≤ snapshot.length := by
  rw [bucket_byIp_buildIndex]
  exact le_trans (List.length_filter_le _ _) (List.length_filter_le _ _)

/-- The size of a set that a snapshot fills fits into an `int`. -/
theorem checked_card {n : ℕ} (hn : n ≤ 1 + 4096) : checked 31 (n : ℤ) = some (n : ℤ) :=
  checked_of_fits (fits_int.mpr (by omega))

/-- The cutoff of a rule in range is the one without bounds. -/
theorem subScaled_of_spanFits {rule : Rule} {t : ℤ} (hspan : SpanFits cfg t rule) :
    subScaled 63 (windowUnit rule) t (window cfg rule) =
      some (t - window cfg rule * windowUnit rule) :=
  subScaled_eq_some_iff.mpr ⟨hspan, rfl⟩

/-- The SSH rule counts in range; it scales its threshold only when the count
has reached it. -/
theorem sshEvaluate_eq (hsub : SshBruteForceRule.subject event = some subject)
    (hspan : SpanFits cfg event.timestamp .sshBruteForce)
    (hlen : (bucket index.byIp subject).length ≤ 4096) :
    sshEvaluate event index cfg counter =
      if SshBruteForceRule.count event index cfg subject < cfg.sshThreshold then
        some (none, counter)
      else (checked 31 (cfg.sshThreshold * 2)).map fun _ =>
        raise (SshBruteForceRule.alert event cfg subject
          (SshBruteForceRule.count event index cfg subject)) counter := by
  have hcutoff : minusSeconds event.timestamp cfg.sshWindowSeconds =
      some (SshBruteForceRule.cutoff event cfg) := subScaled_of_spanFits hspan
  have hroom : (1 : ℤ) + (bucket index.byIp subject).length < 2 ^ 31 := by
    norm_num
    omega
  have hcount := foldlM_count (SshBruteForceRule.counts (SshBruteForceRule.cutoff event cfg))
    (bucket index.byIp subject) one_pos.le hroom
  simp only [sshEvaluate, hsub, hcutoff, Option.bind_eq_bind, Option.bind_some, hcount]
  rw [← SshBruteForceRule.count]
  split
  · rfl
  · cases hscale : checked 31 (cfg.sshThreshold * 2) with
    | none => rfl
    | some scale =>
      obtain ⟨-, rfl⟩ := checked_eq_some_iff.mp hscale
      rfl

/-- A count of the SSH rule. -/
theorem sshCount_bounds (event : LogEvent) (index : EventIndex) (cfg : RuleConfig)
    (subject : Bytes) : 1 ≤ SshBruteForceRule.count event index cfg subject ∧
      SshBruteForceRule.count event index cfg subject ≤
        1 + (bucket index.byIp subject).length :=
  foldl_count_bounds _ _ _

/-- A line adds one port at most. -/
theorem card_insertPort_le (ports : Finset ℤ) (message : Bytes) :
    (PortScanRule.insertPort ports message).card ≤ ports.card + 1 := by
  unfold PortScanRule.insertPort
  split
  · exact Finset.card_insert_le _ _
  · exact Nat.le_succ _

/-- A failure adds one service at most. -/
theorem card_insertService_le (services : Finset Bytes) (logSource : Bytes) :
    (MultiServiceAuthRule.insertService services logSource).card ≤ services.card + 1 := by
  unfold MultiServiceAuthRule.insertService
  split
  · exact Finset.card_insert_le _ _
  · exact Nat.le_succ _

theorem card_portsSeen_le (event : LogEvent) (index : EventIndex) (cfg : RuleConfig)
    (subject : Bytes) : (PortScanRule.portsSeen event index cfg subject).card ≤
      1 + (bucket index.byIp subject).length := by
  have hstart := card_insertPort_le ∅ event.message
  rw [Finset.card_empty] at hstart
  refine le_trans (card_foldl_le ?_ _ _) (Nat.add_le_add_right hstart _)
  intro ports ev
  split
  · exact card_insertPort_le _ _
  · exact Nat.le_succ _

theorem card_servicesHit_le (event : LogEvent) (index : EventIndex) (cfg : RuleConfig)
    (subject : Bytes) : (MultiServiceAuthRule.servicesHit event index cfg subject).card ≤
      1 + (bucket index.byIp subject).length := by
  have hstart := card_insertService_le ∅ event.logSource
  rw [Finset.card_empty] at hstart
  refine le_trans (card_foldl_le ?_ _ _) (Nat.add_le_add_right hstart _)
  intro services ev
  split
  · exact card_insertService_le _ _
  · exact Nat.le_succ _

theorem scanEvaluate_eq (snapshot : List LogEvent)
    (hsub : PortScanRule.subject event = some subject)
    (hspan : SpanFits cfg event.timestamp .portScan)
    (hlen : (bucket index.byIp subject).length ≤ 4096) :
    scanEvaluate event index cfg counter =
      some (PortScanRule.evaluate event snapshot index cfg counter) := by
  have hcutoff : minusSeconds event.timestamp cfg.scanWindowSeconds =
      some (PortScanRule.cutoff event cfg) := subScaled_of_spanFits hspan
  have hdistinct := checked_card (le_trans (card_portsSeen_le event index cfg subject)
    (Nat.add_le_add_left hlen 1))
  rw [scanEvaluate, PortScanRule.evaluate, hsub]
  dsimp only
  rw [hcutoff, Option.bind_eq_bind, Option.bind_some, ← PortScanRule.portsSeen, hdistinct,
    Option.bind_some]
  exact (apply_ite some _ _ _).symm

theorem privEvaluate_eq (snapshot : List LogEvent)
    (hsub : PrivEscRule.subject event = some subject)
    (hspan : SpanFits cfg event.timestamp .privEsc) :
    privEvaluate event index cfg counter =
      some (PrivEscRule.evaluate event snapshot index cfg counter) := by
  have hcutoff : minusHours event.timestamp cfg.privHistoryHours =
      some (PrivEscRule.cutoff event cfg) := subScaled_of_spanFits hspan
  simp only [privEvaluate, PrivEscRule.evaluate, hsub, hcutoff, Option.bind_eq_bind,
    Option.bind_some]
  exact (apply_ite some (PrivEscRule.seenBefore event index cfg subject = true) _ _).symm

theorem multiEvaluate_eq (snapshot : List LogEvent)
    (hsub : MultiServiceAuthRule.subject event = some subject)
    (hspan : SpanFits cfg event.timestamp .multiServiceAuth)
    (hlen : (bucket index.byIp subject).length ≤ 4096) :
    multiEvaluate event index cfg counter =
      some (MultiServiceAuthRule.evaluate event snapshot index cfg counter) := by
  have hcutoff : minusSeconds event.timestamp cfg.multiWindowSeconds =
      some (MultiServiceAuthRule.cutoff event cfg) := subScaled_of_spanFits hspan
  have hdistinct := checked_card (le_trans (card_servicesHit_le event index cfg subject)
    (Nat.add_le_add_left hlen 1))
  rw [multiEvaluate, MultiServiceAuthRule.evaluate, hsub]
  dsimp only
  rw [hcutoff, Option.bind_eq_bind, Option.bind_some, ← MultiServiceAuthRule.servicesHit,
    hdistinct, Option.bind_some]
  exact (apply_ite some _ _ _).symm

/-- The SSH rule is in range exactly if its threshold can be doubled: a count
cannot be below a threshold that is negative. -/
theorem sshEvaluate_eq_iff (snapshot : List LogEvent)
    (hsub : SshBruteForceRule.subject event = some subject)
    (hspan : SpanFits cfg event.timestamp .sshBruteForce)
    (hlen : (bucket index.byIp subject).length ≤ 4096)
    (hthreshold : -2147483648 ≤ cfg.sshThreshold ∧ cfg.sshThreshold ≤ 2147483647) :
    sshEvaluate event index cfg counter =
        some (SshBruteForceRule.evaluate event snapshot index cfg counter) ↔
      -1073741824 ≤ cfg.sshThreshold := by
  have hcount := sshCount_bounds event index cfg subject
  rw [sshEvaluate_eq hsub hspan hlen, SshBruteForceRule.evaluate, hsub]
  dsimp only
  by_cases hbelow : SshBruteForceRule.count event index cfg subject < cfg.sshThreshold
  · rw [if_pos hbelow, if_pos hbelow]
    exact iff_of_true rfl (by omega)
  · rw [if_neg hbelow, if_neg hbelow]
    constructor
    · intro h
      cases hscale : checked 31 (cfg.sshThreshold * 2) with
      | none =>
        rw [hscale, Option.map_none] at h
        cases h
      | some scale =>
        have hfits := fits_int.mp (checked_eq_some_iff.mp hscale).1
        omega
    · intro hlow
      rw [checked_of_fits (fits_int.mpr (by omega)), Option.map_some]

/-- An evaluation is in range exactly if the cutoff is and, for the SSH rule,
the threshold can be doubled. -/
theorem evaluate_eq_iff (snapshot : List LogEvent) (counter : UInt64) {rule : Rule}
    (hsub : ruleSubject rule event = some subject)
    (hlen : (bucket index.byIp subject).length ≤ 4096)
    (hthreshold : -2147483648 ≤ cfg.sshThreshold ∧ cfg.sshThreshold ≤ 2147483647) :
    evaluate rule event index cfg counter =
        some (rule.evaluate event snapshot index cfg counter) ↔
      SpanFits cfg event.timestamp rule ∧
        (rule = .sshBruteForce → -1073741824 ≤ cfg.sshThreshold) := by
  by_cases hspan : SpanFits cfg event.timestamp rule
  · cases rule with
    | sshBruteForce =>
      refine (sshEvaluate_eq_iff snapshot hsub hspan hlen hthreshold).trans ?_
      exact ⟨fun hlow => ⟨hspan, fun _ => hlow⟩, fun h => h.2 rfl⟩
    | portScan =>
      refine iff_of_true ?_ ⟨hspan, (nomatch ·)⟩
      exact scanEvaluate_eq snapshot hsub hspan hlen
    | privEsc =>
      refine iff_of_true ?_ ⟨hspan, (nomatch ·)⟩
      exact privEvaluate_eq snapshot hsub hspan
    | multiServiceAuth =>
      refine iff_of_true ?_ ⟨hspan, (nomatch ·)⟩
      exact multiEvaluate_eq snapshot hsub hspan hlen
  · rw [evaluate_eq_none hsub hspan]
    exact iff_of_false (Option.some_ne_none _).symm fun h => hspan h.1

end evaluation

section moderate

variable {event : LogEvent} {clock : ℤ}

/-- A span that is not negative and fits by itself can be subtracted. -/
theorem subScaled_of_nonneg {unit t n : ℤ} (ht : 0 ≤ t ∧ t ≤ endOf2200) (hn : 0 ≤ n * unit)
    (hfits : n * unit ≤ 9223372036854775807) : subScaled 63 unit t n = some (t - n * unit) := by
  unfold endOf2200 at ht
  refine subScaled_eq_some_iff.mpr ⟨⟨?_, ?_⟩, rfl⟩
  · exact fits_nanoseconds.mpr (by omega)
  · exact fits_nanoseconds.mpr (by omega)

/-- The fixed cutoffs of the index are always in range. -/
theorem buildIndex_eq (snapshot : List LogEvent) {now : ℤ} (hnow : 0 ≤ now ∧ now ≤ endOf2200) :
    buildIndex snapshot now = some (IndexedHistory.buildIndex snapshot now) := by
  have h60 : minusSeconds now 60 = some (now - seconds 60) :=
    subScaled_of_nonneg hnow (by decide) (by decide)
  have h300 : minusSeconds now 300 = some (now - seconds 300) :=
    subScaled_of_nonneg hnow (by decide) (by decide)
  have hmax : minusHours now 24 = some (now - hours 24) :=
    subScaled_of_nonneg hnow (by decide) (by decide)
  rw [buildIndex, h60, h300, hmax]
  rfl

/-- The cooldowns of a rule, in nanoseconds. -/
theorem cooldown_eq (cfg : RuleConfig) (rule : Rule) :
    rule.cooldown cfg = cooldownSeconds cfg rule * 1000000000 := by
  cases rule with
  | sshBruteForce | portScan | privEsc | multiServiceAuth => rfl

/-- A cooldown is in range exactly if it ends before the last time point. -/
theorem setCooldown_eq_iff {cfg : RuleConfig} {rule : Rule} (engine : RuleEngine) (key : Bytes)
    (hclock : 0 ≤ clock ∧ clock ≤ endOf2200)
    (hd : -2147483648 ≤ cooldownSeconds cfg rule ∧ cooldownSeconds cfg rule ≤ 2147483647) :
    setCooldown engine key (cooldownSeconds cfg rule) clock =
        some (engine.setCooldown key (rule.cooldown cfg) clock) ↔
      clock + cooldownSeconds cfg rule * 1000000000 ≤ 9223372036854775807 := by
  unfold endOf2200 at hclock
  rw [cooldown_eq]
  constructor
  · intro h
    obtain ⟨expiry, hexpiry, -⟩ := Option.bind_eq_some_iff.mp h
    have hfits := fits_nanoseconds.mp (addScaled_eq_some_iff.mp hexpiry).1.2
    exact hfits.2
  · intro h
    have hexpiry : plusSeconds clock (cooldownSeconds cfg rule) =
        some (clock + cooldownSeconds cfg rule * 1000000000) :=
      addScaled_eq_some_iff.mpr
        ⟨⟨fits_nanoseconds.mpr (by omega), fits_nanoseconds.mpr (by omega)⟩, rfl⟩
    rw [setCooldown, hexpiry]
    rfl

/-- A cutoff in range lies before the event if the window is not negative. -/
theorem wrapSubScaled_le {cfg : RuleConfig} {t : ℤ} {rule : Rule} (hspan : SpanFits cfg t rule)
    (hw : 0 ≤ window cfg rule) :
    wrapSubScaled 63 (windowUnit rule) t (window cfg rule) ≤ t := by
  have hunit : 0 ≤ windowUnit rule := by
    cases rule with
    | sshBruteForce | portScan | privEsc | multiServiceAuth => decide
  rw [wrapSubScaled_of_fits hspan.1 hspan.2]
  exact sub_le_self t (mul_nonneg hw hunit)

section ranges

variable {file : Option Bytes} {running : StringMap ℤ} {snapshot : List LogEvent}
  {readings : Rule → Reading}
  (htime : 0 ≤ event.timestamp ∧ event.timestamp ≤ endOf2200)
  (hclock : ∀ rule, 0 ≤ (readings rule).set ∧ (readings rule).set ≤ endOf2200)
  (hlen : snapshot.length ≤ 4096)

include hlen in
/-- A rule that looks at the event is in range exactly if its cutoff is and, for
the SSH rule, the threshold can be doubled. -/
theorem evaluate_fromYaml_iff {rule : Rule} {subject : Bytes} (counter : UInt64)
    (hsub : ruleSubject rule event = some subject) :
    evaluate rule event (IndexedHistory.buildIndex snapshot event.timestamp)
        (RuleConfig.fromYaml file) counter =
      some (rule.evaluate event snapshot (IndexedHistory.buildIndex snapshot event.timestamp)
        (RuleConfig.fromYaml file) counter) ↔
    SpanFits (RuleConfig.fromYaml file) event.timestamp rule ∧
      (rule = .sshBruteForce → -1073741824 ≤ (RuleConfig.fromYaml file).sshThreshold) :=
  evaluate_eq_iff snapshot counter hsub
    (le_trans (length_bucket_byIp_le snapshot event.timestamp subject) hlen)
    (fits_sshThreshold file)

include htime hclock hlen

/-- Arithmetic in range takes moderate numbers. -/
theorem InRange.moderate
    (h : InRange ⟨RuleConfig.fromYaml file, running⟩ event snapshot readings) :
    Moderate ⟨RuleConfig.fromYaml file, running⟩ event snapshot readings := by
  have hspan := fun rule => spanFits_iff htime (fits_window file rule)
  have hranges : ∀ rule, (ruleSubject rule event).isSome →
      SpanFits (RuleConfig.fromYaml file) event.timestamp rule ∧
        (rule = .sshBruteForce → -1073741824 ≤ (RuleConfig.fromYaml file).sshThreshold) := by
    intro rule hsome
    obtain ⟨subject, hsub⟩ := Option.isSome_iff_exists.mp hsome
    exact (evaluate_fromYaml_iff hlen 0 hsub).mp (h.evaluate rule 0)
  refine ⟨?_, ?_, ?_, ?_⟩
  · intro hsome
    exact ((hspan .privEsc).mp (hranges .privEsc hsome).1).1 rfl
  · intro rule hsome
    exact ((hspan rule).mp (hranges rule hsome).1).2
  · intro hsome
    exact (hranges .sshBruteForce hsome).2 rfl
  · intro rule hraised
    obtain ⟨subject, hsubject⟩ := Option.isSome_iff_exists.mp hraised
    exact (setCooldown_eq_iff _ [] (hclock rule) (fits_cooldownSeconds file rule)).mp
      (h.cooldown rule subject hsubject running [])

/-- Moderate numbers keep the arithmetic in range. -/
theorem Moderate.inRange
    (h : Moderate ⟨RuleConfig.fromYaml file, running⟩ event snapshot readings) :
    InRange ⟨RuleConfig.fromYaml file, running⟩ event snapshot readings := by
  have hfits : ∀ rule, (ruleSubject rule event).isSome →
      SpanFits (RuleConfig.fromYaml file) event.timestamp rule := by
    intro rule hsome
    refine (spanFits_iff htime (fits_window file rule)).mpr ⟨?_, h.window rule hsome⟩
    rintro rfl
    exact h.history hsome
  refine ⟨buildIndex_eq snapshot htime, ?_, ?_, ?_⟩
  · intro rule counter
    cases hsub : ruleSubject rule event with
    | none => exact evaluate_of_subject_eq_none hsub
    | some subject =>
      have hsome : (ruleSubject rule event).isSome := by rw [hsub]; rfl
      refine (evaluate_fromYaml_iff hlen counter hsub).mpr ⟨hfits rule hsome, ?_⟩
      rintro rfl
      exact h.threshold hsome
  · intro rule subject hraised now key
    refine (setCooldown_eq_iff _ key (hclock rule) (fits_cooldownSeconds file rule)).mpr ?_
    exact h.cooldown rule (Option.isSome_iff_exists.mpr ⟨subject, hraised⟩)
  · intro rule hsome hw
    exact wrapSubScaled_le (hfits rule hsome) hw

end ranges

/-- For every configuration file, and whatever cooldowns are running, the
arithmetic of a call is in range exactly if the numbers that it comes to are
moderate. -/
theorem inRange_iff (file : Option Bytes) (running : StringMap ℤ) {snapshot : List LogEvent}
    {readings : Rule → Reading} (htime : 0 ≤ event.timestamp ∧ event.timestamp ≤ endOf2200)
    (hclock : ∀ rule, 0 ≤ (readings rule).set ∧ (readings rule).set ≤ endOf2200)
    (hlen : snapshot.length ≤ 4096) :
    InRange ⟨RuleConfig.fromYaml file, running⟩ event snapshot readings ↔
      Moderate ⟨RuleConfig.fromYaml file, running⟩ event snapshot readings :=
  ⟨fun h => h.moderate htime hclock hlen, fun h => h.inRange htime hclock hlen⟩

end moderate

/-- A sudo session in January 2024. -/
def januarySession : LogEvent where
  timestamp := 1705312496000000000
  logSource := text "sudo"
  message := text "session opened for root by x"

/-- The clock of a host that reads its log without delay. -/
def januaryClock : Rule → Reading := fun _ =>
  ⟨januarySession.timestamp, januarySession.timestamp⟩

/-- Without a file the arithmetic of that session is in range, that of the
cooldown behind its alert included. -/
theorem inRange_januarySession :
    InRange (RuleEngine.init (RuleConfig.fromYaml none)) januarySession [] januaryClock ∧
      raised (RuleEngine.init (RuleConfig.fromYaml none)) januarySession [] januaryClock .privEsc =
        some (text "x") := by
  refine ⟨(inRange_iff none ∅ ?_ ?_ ?_).mpr ⟨?_, ?_, ?_, ?_⟩, by decide⟩
  · decide
  · intro rule
    change 0 ≤ januarySession.timestamp ∧ januarySession.timestamp ≤ endOf2200
    decide
  · decide
  · intro _
    decide
  · intro rule _
    cases rule with
    | sshBruteForce | portScan | privEsc | multiServiceAuth => decide
  · intro _
    decide
  · intro rule _
    cases rule with
    | sshBruteForce | portScan | privEsc | multiServiceAuth => decide

/-- A history of more than a thousand years leaves the range: the cutoff has no
value, and wrapped around it lies in the future of the event. -/
theorem longHistory_overflows :
    (0 ≤ januarySession.timestamp ∧ januarySession.timestamp ≤ endOf2200) ∧
      evaluate .privEsc januarySession (IndexedHistory.buildIndex [] januarySession.timestamp)
        (RuleConfig.fromYaml (some (text "priv_history_hours: 9999999\n"))) 0 = none ∧
      januarySession.timestamp < wrapSubScaled 63 (windowUnit .privEsc) januarySession.timestamp
        (window (RuleConfig.fromYaml (some (text "priv_history_hours: 9999999\n"))) .privEsc) ∧
      ¬InRange (RuleEngine.init
          (RuleConfig.fromYaml (some (text "priv_history_hours: 9999999\n"))))
        januarySession [] januaryClock := by
  have hsub : ruleSubject .privEsc januarySession = some (text "x") := by decide
  have hnone : evaluate .privEsc januarySession
      (IndexedHistory.buildIndex [] januarySession.timestamp)
      (RuleConfig.fromYaml (some (text "priv_history_hours: 9999999\n"))) 0 = none :=
    evaluate_eq_none hsub (by unfold SpanFits; decide)
  refine ⟨by decide, hnone, by decide, ?_⟩
  intro h
  have hsome := h.evaluate .privEsc 0
  rw [RuleEngine.init, hnone] at hsome
  cases hsome

end Dlads.RuleArithmetic
