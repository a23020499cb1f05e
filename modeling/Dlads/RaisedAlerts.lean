import Dlads.RuleDriver

/-!
# What a call of the engine raises

Each rule finds a subject in the arriving event, decides on the history of
that subject and drafts an alert from the event, the history and the subject.
A call raises the alert of a rule exactly if the decision is positive and the
key of the subject is not in cooldown when the call starts; it then starts
that cooldown and no other of the rule.
-/

namespace Dlads.RaisedAlerts

open ByteText StringMaps Records YamlConfig IndexedHistory DetectionRules RuleDriver

/-- What a rule looks for in the arriving event: an address, or a user. -/
def ruleSubject : Rule → LogEvent → Option Bytes
  | .sshBruteForce => SshBruteForceRule.subject
  | .portScan => PortScanRule.subject
  | .privEsc => PrivEscRule.subject
  | .multiServiceAuth => MultiServiceAuthRule.subject

/-- The decision of a rule about its subject. -/
def reached (event : LogEvent) (index : EventIndex) (cfg : RuleConfig) (subject : Bytes) :
    Rule → Bool
  | .sshBruteForce => cfg.sshThreshold ≤ SshBruteForceRule.count event index cfg subject
  | .portScan => cfg.scanThreshold ≤ (PortScanRule.portsSeen event index cfg subject).card
  | .privEsc => !PrivEscRule.seenBefore event index cfg subject
  | .multiServiceAuth =>
    cfg.multiMinServices ≤ (MultiServiceAuthRule.servicesHit event index cfg subject).card

/-- The alert of a rule about its subject. -/
def draft (event : LogEvent) (index : EventIndex) (cfg : RuleConfig) (subject id : Bytes) :
    Rule → AlertEvent
  | .sshBruteForce =>
    SshBruteForceRule.alert event cfg subject (SshBruteForceRule.count event index cfg subject) id
  | .portScan =>
    PortScanRule.alert event cfg subject (PortScanRule.portsSeen event index cfg subject).card id
  | .privEsc => PrivEscRule.alert event subject id
  | .multiServiceAuth =>
    MultiServiceAuthRule.alert event subject
      (MultiServiceAuthRule.servicesHit event index cfg subject) id

/-- The subject of a rule's deduplication key. -/
def dedupOf (event : LogEvent) (subject : Bytes) : Rule → Bytes
  | .privEsc => event.sourceHost
  | _ => subject

/-- The subject that a rule raises an alert about in a call. -/
def raised (engine : RuleEngine) (event : LogEvent) (snapshot : List LogEvent)
    (readings : Rule → Reading) (rule : Rule) : Option Bytes :=
  (ruleSubject rule event).filter fun subject =>
    reached event (buildIndex snapshot event.timestamp) engine.cfg subject rule &&
      !engine.inCooldown (ruleKey rule (dedupOf event subject rule)) (readings rule).check

section evaluation

variable (event : LogEvent) (snapshot : List LogEvent) (index : EventIndex) (cfg : RuleConfig)
  (counter : UInt64)

/-- Every rule drafts its alert exactly on a positive decision. -/
theorem evaluate_eq (rule : Rule) : (rule.evaluate event snapshot index cfg counter).1 =
    (ruleSubject rule event).bind fun subject =>
      if reached event index cfg subject rule then
        some (draft event index cfg subject (nextId counter).1 rule)
      else none := by
  have hflip : ∀ (a b : ℤ) (alert : AlertEvent),
      (if a < b then none else some alert) =
        if decide (b ≤ a) = true then some alert else none := by
    intro a b alert
    by_cases h : a < b
    · rw [if_pos h, if_neg (by simpa using h)]
    · rw [if_neg h, if_pos (by simpa using h)]
  cases rule with
  | sshBruteForce =>
    rw [Rule.evaluate, SshBruteForceRule.evaluate_fst]
    simp only [hflip]
    rfl
  | portScan =>
    rw [Rule.evaluate, PortScanRule.evaluate_fst]
    simp only [hflip]
    rfl
  | privEsc =>
    rw [Rule.evaluate, PrivEscRule.evaluate_fst]
    change (PrivEscRule.subject event).bind _ = (PrivEscRule.subject event).bind _
    congr 1
    funext user
    by_cases hseen : PrivEscRule.seenBefore event index cfg user = true
    · simp [reached, hseen]
    · simp [reached, draft, hseen]
  | multiServiceAuth =>
    rw [Rule.evaluate, MultiServiceAuthRule.evaluate_fst]
    simp only [hflip]
    rfl

/-- The rules that look at an address report it. -/
theorem lookup_draft (subject id : Bytes) {rule : Rule} (hrule : rule ≠ .privEsc) :
    (draft event index cfg subject id rule).metadata.lookup (text "src_ip") = some subject := by
  cases rule with
  | sshBruteForce => simp [draft, SshBruteForceRule.alert, text]
  | portScan => simp [draft, PortScanRule.alert, text]
  | privEsc => exact absurd rfl hrule
  | multiServiceAuth => simp [draft, MultiServiceAuthRule.alert, text]

/-- The rules that look at an address key their alerts by it. -/
theorem dedupOf_address {rule : Rule} (hrule : rule ≠ .privEsc) (subject : Bytes) :
    dedupOf event subject rule = subject := by
  cases rule with
  | privEsc => exact absurd rfl hrule
  | sshBruteForce | portScan | multiServiceAuth => rfl

/-- The key of a drafted alert. -/
theorem dedupSubject_draft (subject id : Bytes) (rule : Rule) :
    dedupSubject (draft event index cfg subject id rule) = dedupOf event subject rule := by
  by_cases hrule : rule = .privEsc
  · rw [hrule]
    rfl
  · rw [dedupSubject, lookup_draft event index cfg subject id hrule, dedupOf_address event hrule]

/-- The subject of an address rule is the non-empty address of the event. -/
theorem subject_eq_extractSrcIp {rule : Rule} (hrule : rule ≠ .privEsc) {subject : Bytes}
    (h : ruleSubject rule event = some subject) :
    subject = extractSrcIp event ∧ extractSrcIp event ≠ [] := by
  have haddress : (if (extractSrcIp event).isEmpty then none else some (extractSrcIp event)) =
      some subject → subject = extractSrcIp event ∧ extractSrcIp event ≠ [] := by
    intro h
    rw [Option.ite_none_left_eq_some, Option.some.injEq] at h
    exact ⟨h.2.symm, by simpa using h.1⟩
  cases rule with
  | sshBruteForce =>
    rw [ruleSubject, SshBruteForceRule.subject] at h
    simp only [Option.ite_none_left_eq_some] at h
    exact haddress (by rw [Option.ite_none_left_eq_some]; exact h.2.2)
  | portScan =>
    rw [ruleSubject, PortScanRule.subject] at h
    simp only [Option.ite_none_left_eq_some] at h
    exact haddress (by rw [Option.ite_none_left_eq_some]; exact h.2.2)
  | privEsc => exact absurd rfl hrule
  | multiServiceAuth =>
    rw [ruleSubject, MultiServiceAuthRule.subject] at h
    simp only [Option.ite_none_left_eq_some] at h
    exact haddress (by rw [Option.ite_none_left_eq_some]; exact h.2)

end evaluation

section calls

variable (engine : RuleEngine) (counter : UInt64) (event : LogEvent) (snapshot : List LogEvent)
  (readings : Rule → Reading)

/-- What a call returns for a rule: the draft about the raised subject, under
some drawn id. -/
theorem process_result (rule : Rule) : ∃ drawn,
    ((process engine counter event snapshot readings).verdict rule).result =
      (raised engine event snapshot readings rule).map fun subject =>
        draft event (buildIndex snapshot event.timestamp) engine.cfg subject (nextId drawn).1
          rule := by
  obtain ⟨⟨drawn, hev⟩, hverdict, -⟩ := process_turn engine counter event snapshot readings rule
  refine ⟨drawn, ?_⟩
  rw [evaluate_eq] at hev
  unfold raised
  cases hsub : ruleSubject rule event with
  | none =>
    rw [hsub, Option.bind_none] at hev
    cases hv : (process engine counter event snapshot readings).verdict rule with
    | quiet => rfl
    | withheld alert => simp [hv, Verdict.returned] at hev
    | emitted alert => simp [hv, Verdict.returned] at hev
  | some subject =>
    rw [hsub, Option.bind_some] at hev
    by_cases hr : reached event (buildIndex snapshot event.timestamp) engine.cfg subject rule = true
    · rw [if_pos hr] at hev
      have hturn := hverdict _ hev.symm
      rw [dedupKey, dedupSubject_draft] at hturn
      rw [hturn]
      cases hc : engine.inCooldown (ruleKey rule (dedupOf event subject rule))
          (readings rule).check with
      | true => simp [Option.filter, hc, Verdict.result]
      | false => simp [Option.filter, hr, hc, Verdict.result]
    · rw [if_neg hr] at hev
      cases hv : (process engine counter event snapshot readings).verdict rule with
      | quiet => simp [Option.filter, hr, Verdict.result]
      | withheld alert => simp [hv, Verdict.returned] at hev
      | emitted alert => simp [hv, Verdict.returned] at hev

/-- What a call does to the cooldowns of a rule. -/
theorem process_cooldown (rule : Rule) (subject : Bytes) :
    (process engine counter event snapshot readings).engine.cooldownMap.lookup
        (ruleKey rule subject) =
      if (raised engine event snapshot readings rule).map (dedupOf event · rule) = some subject then
        some ((readings rule).set + rule.cooldown engine.cfg)
      else engine.cooldownMap.lookup (ruleKey rule subject) := by
  obtain ⟨-, -, hcool⟩ := process_turn engine counter event snapshot readings rule
  obtain ⟨drawn, hres⟩ := process_result engine counter event snapshot readings rule
  rw [hcool, hres, Option.map_map]
  have hkey : (dedupSubject ∘ fun subject =>
      draft event (buildIndex snapshot event.timestamp) engine.cfg subject (nextId drawn).1 rule) =
      fun subject => dedupOf event subject rule :=
    funext fun subject => dedupSubject_draft event _ _ subject _ rule
  rw [hkey]

end calls

end Dlads.RaisedAlerts
