import Dlads.RuleTallies

/-!
# Rules on larger and on reordered histories

The numbers that the rules reduce a snapshot to depend on the events it holds
and how often, not on their order, and grow with them. The address rules fire
on large numbers and the sudo rule on none, so a larger history keeps the
alerts of the former and can only take away the latter's.
-/

namespace Dlads.HistoryOrder

open ByteText StringMaps Records YamlConfig IndexedHistory DetectionRules NaiveScan RaisedAlerts
open RuleTallies

/-- Every event of the one snapshot occurs in the other at least as often. -/
def OccursWithin (snapshot larger : List LogEvent) : Prop :=
  ∀ ev, snapshot.count ev ≤ larger.count ev

/-- The rules that report a count still fire on a larger snapshot, with a count
at least as large. -/
def CountsGrow (event : LogEvent) (snapshot larger : List LogEvent) (cfg : RuleConfig) : Prop :=
  ∀ rule key, countEntry rule = some key → ∀ counter counter' alert,
    indexedEvaluate event snapshot cfg counter rule = some alert →
      ∃ (alert' : AlertEvent) (n n' : ℤ),
        indexedEvaluate event larger cfg counter' rule = some alert' ∧
        alert.metadata.lookup key = some (dec n) ∧ alert'.metadata.lookup key = some (dec n') ∧
        n ≤ n'

/-- The sudo rule fires on a smaller snapshot when it fires on the larger one. -/
def FirstTimeFades (event : LogEvent) (snapshot larger : List LogEvent) (cfg : RuleConfig) :
    Prop :=
  ∀ counter counter' alert', indexedEvaluate event larger cfg counter' .privEsc = some alert' →
    ∃ alert, indexedEvaluate event snapshot cfg counter .privEsc = some alert

/-- Every rule returns the same alert, or none, on both snapshots. -/
def SameAlerts (event : LogEvent) (snapshot reordered : List LogEvent) (cfg : RuleConfig) : Prop :=
  ∀ rule counter counter', (indexedEvaluate event snapshot cfg counter rule).map contents =
    (indexedEvaluate event reordered cfg counter' rule).map contents

variable {event : LogEvent} {snapshot larger : List LogEvent} {cfg : RuleConfig}

/-- An alert is raised about a subject whose number is large enough, or, for
the sudo rule, zero. -/
theorem indexedEvaluate_eq_some_iff {counter : UInt64} {rule : Rule} {alert : AlertEvent} :
    indexedEvaluate event snapshot cfg counter rule = some alert ↔
      ∃ subject, ruleSubject rule event = some subject ∧
        quiet cfg (tally event (lastDay event snapshot) cfg subject rule) rule = false ∧
        naiveAlert event (lastDay event snapshot) cfg subject (nextId counter).1 rule = alert := by
  rw [indexedEvaluate_eq, Option.bind_eq_some_iff]
  refine exists_congr fun subject => and_congr_right fun _ => ?_
  rw [Option.ite_none_left_eq_some, Bool.not_eq_true, Option.some.injEq]

/-- The last day of a larger snapshot is larger. -/
theorem lastDay_subperm (h : snapshot.Subperm larger) :
    (lastDay event snapshot).Subperm (lastDay event larger) := h.filter _

/-- A larger snapshot keeps the alerts that report a count. -/
theorem countsGrow_of_subperm (h : snapshot.Subperm larger) :
    CountsGrow event snapshot larger cfg := by
  intro rule key hkey counter counter' alert halert
  obtain ⟨subject, hsubject, hloud, rfl⟩ := indexedEvaluate_eq_some_iff.mp halert
  have hle : tally event (lastDay event snapshot) cfg subject rule ≤
      tally event (lastDay event larger) cfg subject rule := tally_mono (lastDay_subperm h) rule
  refine ⟨naiveAlert event (lastDay event larger) cfg subject (nextId counter').1 rule, _, _,
    indexedEvaluate_eq_some_iff.mpr ⟨subject, hsubject, ?_, rfl⟩,
    lookup_countEntry event _ cfg subject _ hkey, lookup_countEntry event _ cfg subject _ hkey, hle⟩
  cases rule with
  | privEsc => cases hkey
  | sshBruteForce | portScan | multiServiceAuth =>
    rw [quiet, decide_eq_false_iff_not] at hloud ⊢
    omega

/-- A larger snapshot only takes away alerts of the sudo rule. -/
theorem firstTimeFades_of_subperm (h : snapshot.Subperm larger) :
    FirstTimeFades event snapshot larger cfg := by
  intro counter counter' alert' halert'
  obtain ⟨user, huser, hloud, -⟩ := indexedEvaluate_eq_some_iff.mp halert'
  have hle : tally event (lastDay event snapshot) cfg user .privEsc ≤
      tally event (lastDay event larger) cfg user .privEsc :=
    tally_mono (lastDay_subperm h) .privEsc
  refine ⟨_, indexedEvaluate_eq_some_iff.mpr ⟨user, huser, ?_, rfl⟩⟩
  rw [quiet, decide_eq_false_iff_not] at hloud ⊢
  omega

/-- A reordered snapshot changes no alert but for its identifier. -/
theorem sameAlerts_of_perm {reordered : List LogEvent} (h : snapshot.Perm reordered) :
    SameAlerts event snapshot reordered cfg := by
  intro rule counter counter'
  rw [indexedEvaluate_eq, indexedEvaluate_eq]
  cases ruleSubject rule event with
  | none => rfl
  | some subject =>
    have hday : (lastDay event snapshot).Perm (lastDay event reordered) := h.filter _
    have htally : tally event (lastDay event snapshot) cfg subject rule =
        tally event (lastDay event reordered) cfg subject rule :=
      le_antisymm (tally_mono hday.subperm rule) (tally_mono hday.symm.subperm rule)
    rw [Option.bind_some, Option.bind_some, htally]
    split
    · rfl
    · exact congrArg some (contents_of_tally_eq hday.subperm htally _ _)

/-- The decisions are monotone in the history and independent of its order. -/
theorem decisions_monotone (event : LogEvent) (cfg : RuleConfig) {snapshot larger : List LogEvent}
    (h : OccursWithin snapshot larger) :
    CountsGrow event snapshot larger cfg ∧ FirstTimeFades event snapshot larger cfg ∧
      ∀ reordered, snapshot.Perm reordered → SameAlerts event snapshot reordered cfg := by
  have hsub : snapshot.Subperm larger := List.subperm_iff_count.mpr h
  exact ⟨countsGrow_of_subperm hsub, firstTimeFades_of_subperm hsub,
    fun _ hperm => sameAlerts_of_perm hperm⟩

/-- A failed login more, before or after the first, keeps the alert. -/
theorem earlierLogin_grows :
    (indexedEvaluate (rootLogin 2) [rootLogin 1] { sshThreshold := 2 } 0 .sshBruteForce).isSome =
        true ∧
      CountsGrow (rootLogin 2) [rootLogin 1] [rootLogin 0, rootLogin 1] { sshThreshold := 2 } ∧
      FirstTimeFades (rootLogin 2) [rootLogin 1] [rootLogin 0, rootLogin 1]
        { sshThreshold := 2 } ∧
      ∀ reordered, List.Perm [rootLogin 1] reordered →
        SameAlerts (rootLogin 2) [rootLogin 1] reordered { sshThreshold := 2 } := by
  refine ⟨?_, decisions_monotone _ _ fun ev => (List.sublist_cons_self _ _).count_le ev⟩
  rw [Option.isSome_iff_exists]
  exact ⟨_, indexedEvaluate_eq_some_iff.mpr
    ⟨_, rootLogin_subject 2, by decide +kernel, rfl⟩⟩

end Dlads.HistoryOrder
