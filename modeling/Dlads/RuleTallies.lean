import Dlads.NaiveScan
import Dlads.RaisedAlerts

/-!
# What the rules count

Whatever the windows, a rule run through the index is the plain scan of the
snapshot's last day. Each scan reduces the history to one number about the
rule's subject, the failed logins, the distinct ports or services, or the
user's earlier sessions, and is decided by that number alone.
-/

namespace Dlads.RuleTallies

open ByteText StringMaps Records YamlConfig IndexedHistory DetectionRules NaiveScan RaisedAlerts

/-- An earlier session of the user. -/
def isPriorSession (event : LogEvent) (cfg : RuleConfig) (username : Bytes) (ev : LogEvent) :
    Bool :=
  ev.logSource = text "sudo" ∧ PrivEscRule.matchesUser event cfg username ev

/-- The number that a rule reduces the history to. -/
def tally (event : LogEvent) (history : List LogEvent) (cfg : RuleConfig) (subject : Bytes) :
    Rule → ℤ
  | .sshBruteForce => naiveCount event history cfg subject
  | .portScan => (naivePorts event history cfg subject).card
  | .privEsc => history.countP (isPriorSession event cfg subject)
  | .multiServiceAuth => (naiveServices event history cfg subject).card

/-- The numbers on which a rule stays silent. -/
def quiet (cfg : RuleConfig) (n : ℤ) : Rule → Bool
  | .sshBruteForce => n < cfg.sshThreshold
  | .portScan => n < cfg.scanThreshold
  | .privEsc => 0 < n
  | .multiServiceAuth => n < cfg.multiMinServices

/-- The alert of a plain scan about its subject. -/
def naiveAlert (event : LogEvent) (history : List LogEvent) (cfg : RuleConfig)
    (subject id : Bytes) : Rule → AlertEvent
  | .sshBruteForce =>
    SshBruteForceRule.alert event cfg subject (naiveCount event history cfg subject) id
  | .portScan => PortScanRule.alert event cfg subject (naivePorts event history cfg subject).card id
  | .privEsc => PrivEscRule.alert event subject id
  | .multiServiceAuth =>
    MultiServiceAuthRule.alert event subject (naiveServices event history cfg subject) id

/-- The metadata entry in which a rule reports its number. -/
def countEntry : Rule → Option Bytes
  | .sshBruteForce => some (text "attempt_count")
  | .portScan => some (text "port_count")
  | .privEsc => none
  | .multiServiceAuth => some (text "service_count")

/-- The history check looks for one earlier session. -/
theorem naiveSeenBefore_eq (event : LogEvent) (history : List LogEvent) (cfg : RuleConfig)
    (username : Bytes) :
    naiveSeenBefore event history cfg username =
      quiet cfg (tally event history cfg username .privEsc) .privEsc := by
  rw [Bool.eq_iff_iff, naiveSeenBefore, List.any_eq_true, quiet, tally, decide_eq_true_iff,
    Int.natCast_pos, List.countP_pos_iff]
  rfl

/-- Every rule is decided by its number. -/
theorem indexedEvaluate_eq (event : LogEvent) (snapshot : List LogEvent) (cfg : RuleConfig)
    (counter : UInt64) (rule : Rule) : indexedEvaluate event snapshot cfg counter rule =
      (ruleSubject rule event).bind fun subject =>
        if quiet cfg (tally event (lastDay event snapshot) cfg subject rule) rule then none
        else some (naiveAlert event (lastDay event snapshot) cfg subject (nextId counter).1
          rule) := by
  cases rule with
  | sshBruteForce =>
    rw [indexedEvaluate, Rule.evaluate, SshBruteForceRule.evaluate_fst]
    simp only [count_lastDay, quiet, decide_eq_true_eq]
    rfl
  | portScan =>
    rw [indexedEvaluate, Rule.evaluate, PortScanRule.evaluate_fst]
    simp only [portsSeen_lastDay, quiet, decide_eq_true_eq]
    rfl
  | privEsc =>
    rw [indexedEvaluate, Rule.evaluate, PrivEscRule.evaluate_fst]
    simp only [seenBefore_lastDay, naiveSeenBefore_eq]
    rfl
  | multiServiceAuth =>
    rw [indexedEvaluate, Rule.evaluate, MultiServiceAuthRule.evaluate_fst]
    simp only [servicesHit_lastDay, quiet, decide_eq_true_eq]
    rfl

section reports

variable (event : LogEvent) (history : List LogEvent) (cfg : RuleConfig) (subject : Bytes)

/-- An alert with a count reports the number it was decided by. -/
theorem lookup_countEntry (id : Bytes) {rule : Rule} {key : Bytes}
    (hkey : countEntry rule = some key) :
    (naiveAlert event history cfg subject id rule).metadata.lookup key =
      some (dec (tally event history cfg subject rule)) := by
  cases rule with
  | sshBruteForce =>
    rw [← Option.some.inj hkey]
    simp [naiveAlert, SshBruteForceRule.alert, tally]
  | portScan =>
    rw [← Option.some.inj hkey]
    simp [naiveAlert, PortScanRule.alert, tally]
  | privEsc => exact absurd hkey (Option.some_ne_none key).symm
  | multiServiceAuth =>
    rw [← Option.some.inj hkey]
    simp [naiveAlert, MultiServiceAuthRule.alert, tally]

end reports

section collecting

variable {α β : Type*} [DecidableEq β] {own : Finset β} {p : α → Prop} [DecidablePred p]
  {f : α → β} {q : β → Prop} [DecidablePred q] {xs ys : List α}

/-- A value that is collected is an item's or was there before. -/
theorem mem_collected {y : β} : y ∈ own ∪ ((xs.filter fun x => p x).map f).toFinset.filter q ↔
    y ∈ own ∨ (∃ x ∈ xs, p x ∧ f x = y) ∧ q y := by
  rw [Finset.mem_union, Finset.mem_filter, List.mem_toFinset, List.mem_map]
  simp only [List.mem_filter, decide_eq_true_eq, and_assoc]

/-- More items give more values. -/
theorem collected_mono (h : xs ⊆ ys) :
    own ∪ ((xs.filter fun x => p x).map f).toFinset.filter q ⊆
      own ∪ ((ys.filter fun x => p x).map f).toFinset.filter q := by
  refine Finset.union_subset_union_right (Finset.filter_subset_filter q ?_)
  intro y hy
  obtain ⟨x, hx, rfl⟩ := List.mem_map.mp (List.mem_toFinset.mp hy)
  obtain ⟨hmem, hp⟩ := List.mem_filter.mp hx
  exact List.mem_toFinset.mpr (List.mem_map_of_mem (List.mem_filter.mpr ⟨h hmem, hp⟩))

/-- The values lie in a set exactly if that of every item does. -/
theorem collected_subset_iff {s : Finset β} (hown : own ⊆ s) :
    own ∪ ((xs.filter fun x => p x).map f).toFinset.filter q ⊆ s ↔
      ∀ x ∈ xs, p x → q (f x) → f x ∈ s := by
  constructor
  · intro h x hx hp hq
    refine h (Finset.mem_union_right _ (Finset.mem_filter.mpr ⟨?_, hq⟩))
    exact List.mem_toFinset.mpr
      (List.mem_map_of_mem (List.mem_filter.mpr ⟨hx, decide_eq_true hp⟩))
  · intro h y hy
    rcases Finset.mem_union.mp hy with hy | hy
    · exact hown hy
    · obtain ⟨hmem, hq⟩ := Finset.mem_filter.mp hy
      obtain ⟨x, hx, rfl⟩ := List.mem_map.mp (List.mem_toFinset.mp hmem)
      obtain ⟨hx, hp⟩ := List.mem_filter.mp hx
      exact h x hx (of_decide_eq_true hp) hq

end collecting

section growth

variable {event : LogEvent} {history history' : List LogEvent} {cfg : RuleConfig} {subject : Bytes}

/-- A history of more events has every port. -/
theorem naivePorts_mono (h : history ⊆ history') :
    naivePorts event history cfg subject ⊆ naivePorts event history' cfg subject :=
  collected_mono h

/-- A history of more events has every service. -/
theorem naiveServices_mono (h : history ⊆ history') :
    naiveServices event history cfg subject ⊆ naiveServices event history' cfg subject :=
  collected_mono h

/-- All ports lie in a set exactly if every one that is counted does. -/
theorem naivePorts_subset_iff {s : Finset ℤ} (hown : PortScanRule.insertPort ∅ event.message ⊆ s) :
    naivePorts event history cfg subject ⊆ s ↔ ∀ ev ∈ history, extractSrcIp ev = subject →
      PortScanRule.counts (PortScanRule.cutoff event cfg) ev = true → 0 < parseDpt ev.message →
      parseDpt ev.message ∈ s := by
  refine (collected_subset_iff hown).trans ?_
  simp only [and_imp]

/-- All services lie in a set exactly if every one that is counted does. -/
theorem naiveServices_subset_iff {s : Finset Bytes}
    (hown : MultiServiceAuthRule.insertService ∅ event.logSource ⊆ s) :
    naiveServices event history cfg subject ⊆ s ↔ ∀ ev ∈ history, extractSrcIp ev = subject →
      MultiServiceAuthRule.counts (MultiServiceAuthRule.cutoff event cfg) ev = true →
      ev.logSource ≠ [] → ev.logSource ∈ s := by
  refine (collected_subset_iff hown).trans ?_
  simp only [and_imp]

/-- Every number grows with the history. -/
theorem tally_mono (h : history.Subperm history') (rule : Rule) :
    tally event history cfg subject rule ≤ tally event history' cfg subject rule := by
  cases rule with
  | sshBruteForce =>
    have hcount := h.countP_le fun ev =>
      decide (extractSrcIp ev = subject ∧
        SshBruteForceRule.counts (SshBruteForceRule.cutoff event cfg) ev = true)
    simp only [tally, naiveCount]
    omega
  | portScan => exact Int.ofNat_le.mpr (Finset.card_le_card (naivePorts_mono h.subset))
  | privEsc => exact Int.ofNat_le.mpr (h.countP_le _)
  | multiServiceAuth => exact Int.ofNat_le.mpr (Finset.card_le_card (naiveServices_mono h.subset))

/-- A larger history that gives a rule the same number gives it the same alert. -/
theorem contents_of_tally_eq (h : history.Subperm history') {rule : Rule}
    (htally : tally event history cfg subject rule = tally event history' cfg subject rule)
    (id id' : Bytes) : contents (naiveAlert event history cfg subject id rule) =
      contents (naiveAlert event history' cfg subject id' rule) := by
  cases rule with
  | sshBruteForce =>
    rw [tally, tally] at htally
    rw [naiveAlert, naiveAlert, htally]
    rfl
  | portScan =>
    rw [tally, tally] at htally
    rw [naiveAlert, naiveAlert, htally]
    rfl
  | privEsc => rfl
  | multiServiceAuth =>
    -- the services are listed, so their number alone is not enough
    rw [tally, tally, Int.natCast_inj] at htally
    have hset : naiveServices event history cfg subject =
        naiveServices event history' cfg subject :=
      Finset.eq_of_subset_of_card_le (naiveServices_mono h.subset) htally.ge
    rw [naiveAlert, naiveAlert, hset]
    rfl

/-- A rule that counts is silent on every smaller number too. -/
theorem quiet_of_le {n n' : ℤ} {rule : Rule} (hrule : rule ≠ .privEsc) (hle : n ≤ n')
    (h : quiet cfg n' rule = true) : quiet cfg n rule = true := by
  cases rule with
  | privEsc => exact absurd rfl hrule
  | sshBruteForce | portScan | multiServiceAuth =>
    rw [quiet, decide_eq_true_iff] at h ⊢
    omega

/-- Two histories, the one within the other, give a rule that raises an alert on
both the same alert exactly if they give it the same number. -/
theorem contents_naiveAlert_iff (h : history.Subperm history') {rule : Rule}
    (hloud : quiet cfg (tally event history cfg subject rule) rule = false)
    (hloud' : quiet cfg (tally event history' cfg subject rule) rule = false) (id id' : Bytes) :
    contents (naiveAlert event history cfg subject id rule) =
        contents (naiveAlert event history' cfg subject id' rule) ↔
      tally event history cfg subject rule = tally event history' cfg subject rule := by
  refine ⟨fun hcontents => ?_, fun htally => contents_of_tally_eq h htally id id'⟩
  cases hkey : countEntry rule with
  | some key =>
    have hsame := congrArg (fun alert => alert.metadata.lookup key) hcontents
    simp only [contents, lookup_countEntry event _ cfg subject _ hkey, Option.some.injEq] at hsame
    exact dec_injective hsame
  | none =>
    cases rule with
    | privEsc =>
      -- neither history has a session
      rw [quiet, decide_eq_false_iff_not, tally] at hloud hloud'
      rw [tally, tally]
      omega
    | sshBruteForce | portScan | multiServiceAuth => cases hkey

/-- What the scan of a history returns about a subject. -/
def scanned (event : LogEvent) (history : List LogEvent) (cfg : RuleConfig) (subject id : Bytes)
    (rule : Rule) : Option AlertEvent :=
  if quiet cfg (tally event history cfg subject rule) rule then none
  else some (naiveAlert event history cfg subject id rule)

/-- Two histories, the one within the other, are scanned alike exactly if both
silence the rule or neither does, and then by the same number. -/
theorem scanned_eq_iff (h : history.Subperm history') (rule : Rule) (id id' : Bytes) :
    (scanned event history cfg subject id rule).map contents =
        (scanned event history' cfg subject id' rule).map contents ↔
      quiet cfg (tally event history cfg subject rule) rule =
          quiet cfg (tally event history' cfg subject rule) rule ∧
        (quiet cfg (tally event history' cfg subject rule) rule = false →
          tally event history cfg subject rule = tally event history' cfg subject rule) := by
  rw [scanned, scanned]
  cases hq : quiet cfg (tally event history cfg subject rule) rule with
  | true => cases hq' : quiet cfg (tally event history' cfg subject rule) rule with
    | true => simp
    | false => simp
  | false => cases hq' : quiet cfg (tally event history' cfg subject rule) rule with
    | true => simp
    | false => simp [contents_naiveAlert_iff h hq hq' id id']

/-- A rule that reports a count is told the same by both exactly if it is silent
on the larger one or they give it the same number. -/
theorem scanned_eq_iff_of_count (h : history.Subperm history') {rule : Rule}
    (hrule : rule ≠ .privEsc) (id id' : Bytes) :
    (scanned event history cfg subject id rule).map contents =
        (scanned event history' cfg subject id' rule).map contents ↔
      quiet cfg (tally event history' cfg subject rule) rule = true ∨
        tally event history cfg subject rule = tally event history' cfg subject rule := by
  have hle : tally event history cfg subject rule ≤ tally event history' cfg subject rule :=
    tally_mono h rule
  rw [scanned_eq_iff h]
  cases hq' : quiet cfg (tally event history' cfg subject rule) rule with
  | true => simp [quiet_of_le hrule hle hq']
  | false =>
    constructor
    · rintro ⟨-, htally⟩
      exact .inr (htally rfl)
    · rintro (hquiet | htally)
      · exact absurd hquiet Bool.false_ne_true
      · exact ⟨htally ▸ hq', fun _ => htally⟩

end growth

section parts

/-- A part of a list that is chosen by a condition has all items with a property
exactly if each of them meets the condition. -/
theorem countP_filter_eq_iff {α : Type*} (xs : List α) (p kept : α → Bool) :
    (xs.filter kept).countP p = xs.countP p ↔ ∀ x ∈ xs, p x = true → kept x = true := by
  have hsplit := List.countP_eq_countP_filter_add xs p kept
  have hrest : List.countP p (xs.filter fun x => !kept x) = 0 ↔
      ∀ x ∈ xs, p x = true → kept x = true := by
    rw [List.countP_eq_zero]
    constructor
    · intro h x hx hp
      by_contra hout
      exact h x (List.mem_filter.mpr ⟨hx, by simpa using hout⟩) hp
    · intro h x hx hp
      obtain ⟨hmem, hout⟩ := List.mem_filter.mp hx
      rw [h x hmem hp] at hout
      cases hout
  rw [← hrest]
  omega

/-- Sets of one size, the one within the other, are equal. -/
theorem card_eq_iff_subset {α : Type*} {s t : Finset α} (h : s ⊆ t) :
    (s.card : ℤ) = t.card ↔ t ⊆ s := by
  constructor
  · intro hcard
    exact (Finset.eq_of_subset_of_card_le h (by omega)).symm.subset
  · intro hback
    rw [Finset.Subset.antisymm h hback]

end parts

/-- A failed login from a fixed address. -/
def rootLogin (timestamp : ℤ) : LogEvent where
  timestamp := timestamp
  logSource := text "sshd"
  message := text "Failed password for root from 10.0.0.5 port 22 ssh2"

/-- The address of the failed login. -/
theorem rootLogin_subject (timestamp : ℤ) :
    ruleSubject .sshBruteForce (rootLogin timestamp) = some (text "10.0.0.5") := by
  change ruleSubject .sshBruteForce (rootLogin 0) = some (text "10.0.0.5")
  decide +kernel

end Dlads.RuleTallies
