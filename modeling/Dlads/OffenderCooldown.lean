import Dlads.CooldownHistory

/-!
# Cooldowns and offenders

The deduplication key of an address rule names the address its alert is
about. A sudo alert carries no address, so its key falls back to the host:
while a cooldown that one user's alert started is running, a first session of
another user on that host is dropped. Outside such foreign holds a dropped
alert always has an emission about its own subject to account for it.
-/

namespace Dlads.OffenderCooldown

open ByteText StringMaps Records YamlConfig IndexedHistory DetectionRules RuleDriver CooldownGate
open CooldownHistory

/-- Whom an alert is about: the user for the sudo rule, the address for the
others. -/
def alertSubject (rule : Rule) (alert : AlertEvent) : Option Bytes :=
  match rule with
  | .privEsc => alert.metadata.lookup (text "username")
  | _ => alert.metadata.lookup (text "src_ip")

/-- An alert of the same rule about the same subject was emitted before and its
cooldown has not expired. -/
def Justified (run : Run) (n : ℕ) (rule : Rule) (alert : AlertEvent) : Prop :=
  ∃ m alert', m < n ∧ run.Emitted m rule alert' ∧
    alertSubject rule alert' = alertSubject rule alert ∧
    (run.attemptAt n rule).check < (run.attemptAt m rule).set + (run.attemptAt m rule).hold

/-- The user whose sudo alert started the cooldown of a host last. -/
def starter (run : Run) (host : Bytes) : ℕ → Option Bytes
  | 0 => none
  | n + 1 =>
    match run.verdictAt n .privEsc with
    | .emitted alert =>
      if dedupSubject alert = host then alert.metadata.lookup (text "username")
      else starter run host n
    | _ => starter run host n

/-- A first session of a user arrives while a cooldown of its host that
another user's alert started is running. -/
def ForeignHold (run : Run) (n : ℕ) : Prop :=
  ∃ event snapshot readings user, run.calls n = .process event snapshot readings ∧
    PrivEscRule.subject event = some user ∧
    PrivEscRule.seenBefore event (buildIndex snapshot event.timestamp) (run.engineAt n).cfg user =
      false ∧
    (run.engineAt n).inCooldown (ruleKey .privEsc event.sourceHost) (readings .privEsc).check =
      true ∧
    starter run event.sourceHost n ≠ some user

section alerts

variable {event : LogEvent} {snapshot : List LogEvent} {index : EventIndex} {cfg : RuleConfig}
  {counter : UInt64} {alert : AlertEvent}

/-- A raised alert is built for a subject that is not let pass. -/
theorem exists_of_raised {X : Type*} {subject : Option X} {quiet : X → Prop}
    [DecidablePred quiet] {build : X → AlertEvent}
    (h : (subject.bind fun x => if quiet x then none else some (build x)) = some alert) :
    ∃ x, subject = some x ∧ ¬quiet x ∧ build x = alert := by
  cases subject with
  | none => cases h
  | some x =>
    rw [Option.bind_some, Option.ite_none_left_eq_some, Option.some.injEq] at h
    exact ⟨x, rfl, h.1, h.2⟩

/-- What an address rule returns is keyed by the address it is about. -/
theorem evaluate_subject {rule : Rule} (hrule : rule ≠ .privEsc)
    (h : (rule.evaluate event snapshot index cfg counter).1 = some alert) :
    alertSubject rule alert = some (dedupSubject alert) := by
  have hkeyed : ∀ ip, alert.metadata.lookup (text "src_ip") = some ip →
      alert.metadata.lookup (text "src_ip") = some (dedupSubject alert) := by
    intro ip hip
    rw [dedupSubject, hip]
  cases rule with
  | sshBruteForce =>
    rw [Rule.evaluate, SshBruteForceRule.evaluate_fst] at h
    rcases exists_of_raised h with ⟨ip, -, -, rfl⟩
    exact hkeyed ip (by simp [SshBruteForceRule.alert, text])
  | portScan =>
    rw [Rule.evaluate, PortScanRule.evaluate_fst] at h
    rcases exists_of_raised h with ⟨ip, -, -, rfl⟩
    exact hkeyed ip (by simp [PortScanRule.alert, text])
  | privEsc => exact absurd rfl hrule
  | multiServiceAuth =>
    rw [Rule.evaluate, MultiServiceAuthRule.evaluate_fst] at h
    rcases exists_of_raised h with ⟨ip, -, -, rfl⟩
    exact hkeyed ip (by simp [MultiServiceAuthRule.alert, text])

/-- What the sudo rule returns: an alert about a user, keyed by the host. -/
theorem evaluate_privEsc
    (h : (Rule.privEsc.evaluate event snapshot index cfg counter).1 = some alert) :
    ∃ user, PrivEscRule.subject event = some user ∧
      PrivEscRule.seenBefore event index cfg user = false ∧
      alertSubject .privEsc alert = some user ∧ dedupSubject alert = event.sourceHost := by
  rw [Rule.evaluate, PrivEscRule.evaluate_fst] at h
  rcases exists_of_raised h with ⟨user, hsub, hseen, rfl⟩
  exact ⟨user, hsub, eq_false_of_ne_true hseen, rfl, rfl⟩

/-- A first session raises an alert. -/
theorem evaluate_privEsc_isSome {user : Bytes} (hsub : PrivEscRule.subject event = some user)
    (hseen : PrivEscRule.seenBefore event index cfg user = false) :
    (Rule.privEsc.evaluate event snapshot index cfg counter).1 =
      some (PrivEscRule.alert event user (nextId counter).1) := by
  rw [Rule.evaluate, PrivEscRule.evaluate_fst, hsub, Option.bind_some, hseen,
    if_neg Bool.false_ne_true]

end alerts

section runs

variable {run : Run}

/-- What a call returned, its `evaluate` returned. -/
theorem evaluate_of_returned {n : ℕ} {rule : Rule} {alert : AlertEvent}
    (h : run.Returned n rule alert) : ∃ event snapshot readings counter,
      run.calls n = .process event snapshot readings ∧
      (∀ rule, run.readingAt n rule = readings rule) ∧
      (rule.evaluate event snapshot (buildIndex snapshot event.timestamp) (run.engineAt n).cfg
        counter).1 = some alert := by
  rcases calls_of_returned h with ⟨event, snapshot, readings, hc, hr⟩
  rcases (process_turn (run.engineAt n) (run.counterAt n) event snapshot readings rule).1 with
    ⟨counter, hev⟩
  rw [← (at_process run hc).1, h] at hev
  exact ⟨event, snapshot, readings, counter, hc, hr, hev⟩

/-- The starter of a host is the user of the last sudo alert emitted for it. -/
theorem starter_eq {m n : ℕ} {alert : AlertEvent} (hm : run.Emitted m .privEsc alert)
    (hmn : m < n) (hlast : ∀ j other, m < j → j < n → run.Emitted j .privEsc other →
      dedupSubject other ≠ dedupSubject alert) :
    starter run (dedupSubject alert) n = alertSubject .privEsc alert := by
  induction n with
  | zero => omega
  | succ n ih =>
    rcases Nat.lt_succ_iff_lt_or_eq.mp hmn with hlt | rfl
    · have hn := ih hlt fun j other hlo hhi => hlast j other hlo (Nat.lt_succ_of_lt hhi)
      rw [starter]
      cases hv : run.verdictAt n .privEsc with
      | quiet => exact hn
      | withheld other => exact hn
      | emitted other =>
        have hne := hlast n other hlt (Nat.lt_succ_self n) hv
        simp only [if_neg hne]
        exact hn
    · have hv : run.verdictAt m .privEsc = .emitted alert := hm
      rw [starter, hv]
      exact if_pos rfl

/-- A withheld alert came before the end of the cooldown that the last emission
with its key started. -/
theorem exists_last_emission {n : ℕ} {rule : Rule} {alert : AlertEvent}
    (h : run.Withheld n rule alert) : ∃ m alert', m < n ∧ run.Emitted m rule alert' ∧
      dedupSubject alert' = dedupSubject alert ∧
      (run.attemptAt n rule).check < (run.attemptAt m rule).holdEnd ∧
      ∀ j other, m < j → j < n → run.Emitted j rule other →
        dedupSubject other ≠ dedupSubject alert := by
  rcases (CooldownHistory.Withheld.withheld h).exists_grant with ⟨m, a, hm, hg, hlt, hlast⟩
  rcases exists_emitted_of_granted run hg with ⟨alert', he, hs, rfl⟩
  refine ⟨m, alert', hm, he, hs, hlt, ?_⟩
  intro j other hlo hhi hj hsub
  have hgj := CooldownHistory.Emitted.granted hj
  rw [hsub] at hgj
  exact hlast j _ hlo hhi hgj

/-- Outside a foreign hold a dropped alert is accounted for. -/
theorem justified_of_not_foreignHold {n : ℕ} (hn : ¬ForeignHold run n) {rule : Rule}
    {alert : AlertEvent} (h : run.Withheld n rule alert) : Justified run n rule alert := by
  rcases exists_last_emission h with ⟨m, alert', hm, he, hs, hlt, hlast⟩
  refine ⟨m, alert', hm, he, ?_, hlt⟩
  have hret : run.Returned n rule alert := congrArg Verdict.returned h
  have hret' : run.Returned m rule alert' := congrArg Verdict.returned he
  rcases evaluate_of_returned hret with ⟨event, snapshot, readings, counter, hc, hr, hev⟩
  by_cases hrule : rule = .privEsc
  · -- the key names the host: the cooldown has to have been started by the same user
    rw [hrule] at h hev he hlast ⊢
    rcases evaluate_privEsc hev with ⟨user, hsub, hseen, huser, hhost⟩
    have hcool : (run.engineAt n).inCooldown (ruleKey .privEsc event.sourceHost)
        (readings .privEsc).check = true := by
      have hgate := (withheld_iff_of_returned run (congrArg Verdict.returned h)).mp h
      rw [inCooldown_eq_closed, lookup_engineAt, ← hr, ← hhost]
      exact hgate
    by_contra hne
    refine hn ⟨event, snapshot, readings, user, hc, hsub, hseen, hcool, ?_⟩
    rw [← hhost, ← hs]
    have hst := starter_eq he hm (by rw [hs]; exact hlast)
    rw [hst, ← huser]
    exact hne
  · rcases evaluate_of_returned hret' with ⟨event', snapshot', readings', counter', -, -, hev'⟩
    rw [evaluate_subject hrule hev, evaluate_subject hrule hev', hs]

/-- A first session in a foreign hold is dropped. -/
theorem withheld_of_foreignHold {n : ℕ} (h : ForeignHold run n) :
    ∃ alert host user, run.Withheld n .privEsc alert ∧ dedupSubject alert = host ∧
      alertSubject .privEsc alert = some user ∧ starter run host n ≠ some user := by
  rcases h with ⟨event, snapshot, readings, user, hc, hsub, hseen, hcool, hst⟩
  rcases at_process run hc with ⟨hv, -, hr⟩
  rcases (process_turn (run.engineAt n) (run.counterAt n) event snapshot readings .privEsc).1 with
    ⟨counter, hev⟩
  rw [evaluate_privEsc_isSome hsub hseen, ← hv] at hev
  have hret : run.Returned n .privEsc (PrivEscRule.alert event user (nextId counter).1) := hev.symm
  refine ⟨PrivEscRule.alert event user (nextId counter).1, event.sourceHost, user, ?_, rfl, rfl,
    hst⟩
  rw [withheld_iff_of_returned run hret, ← lookup_engineAt, ← inCooldown_eq_closed]
  rw [← hr] at hcool
  exact hcool

/-- All events of the run come from one host, as an agent stamps them. -/
def SingleHost (run : Run) (host : Bytes) : Prop :=
  ∀ n event snapshot readings, run.calls n = .process event snapshot readings →
    event.sourceHost = host

/-- With one host and timely calls nothing accounts for the alert that a
foreign hold drops. -/
theorem not_justified_of_foreignHold (ht : ∀ rule subject, Timely (run.keyed rule subject))
    {host : Bytes} (hh : SingleHost run host) {n : ℕ} (h : ForeignHold run n) :
    ∃ alert, run.Withheld n .privEsc alert ∧ ¬Justified run n .privEsc alert := by
  rcases withheld_of_foreignHold h with ⟨alert, host', user, hw, hhost, huser, hst⟩
  refine ⟨alert, hw, ?_⟩
  rintro ⟨m, cause, hm, hcause, hsub, hlt⟩
  have hone : ∀ k other, run.Returned k .privEsc other → dedupSubject other = host := by
    intro k other hret
    rcases evaluate_of_returned hret with ⟨event, snapshot, readings, counter, hc, -, hev⟩
    rcases evaluate_privEsc hev with ⟨-, -, -, -, hs⟩
    rw [hs, hh k event snapshot readings hc]
  have hn := hone n alert (congrArg Verdict.returned hw)
  rcases exists_last_emission hw with ⟨l, last, hl, hlem, hls, -, hlast⟩
  rcases Nat.lt_trichotomy m l with hml | rfl | hlm
  · -- the cause's hold ended before the last emission, so before this check
    have hkey : dedupKey .privEsc cause = dedupKey .privEsc last := by
      rw [dedupKey, dedupKey, hone m cause (congrArg Verdict.returned hcause), hls, hn]
    have hend := emitted_spacing ht hcause hlem hkey hml
    have hal := (keyed_eq_some run).mpr ⟨last, congrArg Verdict.returned hlem, hls, rfl⟩
    have han := (keyed_eq_some run).mpr ⟨alert, congrArg Verdict.returned hw, rfl, rfl⟩
    have hwithin := (ht .privEsc (dedupSubject alert)).within l _ hal
    have hacross := (ht .privEsc (dedupSubject alert)).across l n _ _ hl hal han
    unfold Attempt.holdEnd at hend
    omega
  · have hsame : last = cause := Verdict.emitted.inj (hlem.symm.trans hcause)
    have hstart := starter_eq hlem hl (by rw [hls]; exact hlast)
    rw [hls, hhost, hsame, hsub, huser] at hstart
    exact hst hstart
  · refine hlast m cause hlm hm hcause ?_
    rw [hone m cause (congrArg Verdict.returned hcause), hn]

/-- A running cooldown of a host has a starter. -/
theorem exists_starter {host : Bytes} {n : ℕ} {now : ℤ}
    (h : (run.engineAt n).inCooldown (ruleKey .privEsc host) now = true) :
    ∃ m alert, run.Emitted m .privEsc alert ∧
      starter run host n = alertSubject .privEsc alert := by
  rw [inCooldown_eq_closed, lookup_engineAt] at h
  unfold closed at h
  cases he : expiryAt (run.keyed .privEsc host) n with
  | none =>
    rw [he] at h
    cases h
  | some time =>
    rcases expiryAt_eq_some he with ⟨m, a, hm, hg, -, hlast⟩
    rcases exists_emitted_of_granted run hg with ⟨alert, hem, hs, -⟩
    refine ⟨m, alert, hem, ?_⟩
    rw [← hs]
    refine starter_eq hem hm fun j other hlo hhi hj hsub => ?_
    have hgj := CooldownHistory.Emitted.granted hj
    rw [hsub, hs] at hgj
    exact hlast j _ hlo hhi hgj

/-- A run whose sudo sessions are all of one user has no foreign hold. -/
theorem not_foreignHold_of_one_user {user : Bytes}
    (hu : ∀ n event snapshot readings, run.calls n = .process event snapshot readings →
      ∀ other, PrivEscRule.subject event = some other → other = user) (n : ℕ) :
    ¬ForeignHold run n := by
  rintro ⟨event, snapshot, readings, owner, hc, hsub, -, hcool, hst⟩
  rcases exists_starter hcool with ⟨m, alert, hem, hstart⟩
  rcases evaluate_of_returned (congrArg Verdict.returned hem) with
    ⟨event', snapshot', readings', counter', hc', -, hev⟩
  rcases evaluate_privEsc hev with ⟨first, hfirst, -, hname, -⟩
  refine hst ?_
  rw [hstart, hname, hu m event' snapshot' readings' hc' first hfirst,
    hu n event snapshot readings hc owner hsub]

/-- In a run without foreign holds every dropped alert is accounted for by an
unexpired emission of its rule about its subject. Where the host and the clock
are as an agent has them, a foreign hold in turn drops an alert that nothing
accounts for. -/
theorem withheld_justified (run : Run) :
    ((∀ n, ¬ForeignHold run n) → ∀ n rule alert, run.Withheld n rule alert →
      Justified run n rule alert) ∧
      (ClockMonotone run.calls → NonnegCooldowns run.cfg →
        (∀ n cfg, run.calls n = .setConfig cfg → NonnegCooldowns cfg) →
        (∃ host, SingleHost run host) → ∀ n, ForeignHold run n →
          ∃ alert, run.Withheld n .privEsc alert ∧ ¬Justified run n .privEsc alert) := by
  constructor
  · intro hrun n rule alert hw
    exact justified_of_not_foreignHold (hrun n) hw
  · rintro hclock h0 hset ⟨host, hh⟩ n hn
    exact not_justified_of_foreignHold (timely_keyed hclock h0 hset) hh hn

end runs

/-- Sessions of alice only, one a second. -/
def aliceRun : Run := { sudoRun with
  calls := fun n => .process (sudoOpened (text "alice") (seconds n)) []
    fun _ => ⟨seconds n, seconds n⟩ }

theorem aliceRun_subject (n : ℕ) (event : LogEvent) (snapshot : List LogEvent)
    (readings : Rule → Reading) (hc : aliceRun.calls n = .process event snapshot readings)
    (other : Bytes) (hsub : PrivEscRule.subject event = some other) : other = text "alice" := by
  cases hc
  have hname : PrivEscRule.subject (sudoOpened (text "alice") (seconds n)) =
      some (text "alice") := by
    change PrivEscRule.subject (sudoOpened (text "alice") 0) = some (text "alice")
    decide
  exact Option.some.inj (hsub.symm.trans hname)

/-- Her second alert is dropped for her first. -/
theorem aliceRun_justified : Justified aliceRun 1 .privEsc
    (PrivEscRule.alert (sudoOpened (text "alice") (seconds 1)) (text "alice") (text "alert-2")) :=
  (withheld_justified aliceRun).1 (not_foreignHold_of_one_user aliceRun_subject) 1 .privEsc _ (by
    unfold Run.Withheld
    decide +kernel)

/-- Bob's first session is dropped for the alert about alice. -/
theorem bobAlert_not_justified : sudoRun.Withheld 1 .privEsc bobAlert ∧
    ¬Justified sudoRun 1 .privEsc bobAlert := by
  refine ⟨sudoRun_withheld, ?_⟩
  rintro ⟨m, cause, hm, hcause, hsub, -⟩
  have hzero : m = 0 := by omega
  rw [hzero] at hcause
  have hfirst : sudoRun.verdictAt 0 .privEsc = .emitted (PrivEscRule.alert
      (sudoOpened (text "alice") (seconds 0)) (text "alice") (text "alert-1")) := by
    decide +kernel
  rw [Run.Emitted, hfirst] at hcause
  rw [← Verdict.emitted.inj hcause] at hsub
  exact absurd hsub (by decide)

end Dlads.OffenderCooldown
