import Dlads.RuleDriver
import Dlads.CooldownGate

/-!
# Cooldowns over whole runs

A run of the rule engine is an unbounded sequence of calls. Each key of the
cooldown map behaves as a cooldown gate that only the alerts of that key
attempt to pass, so the laws of the gate are the rate limit of each key.
-/

namespace Dlads.CooldownHistory

open ByteText StringMaps Records YamlConfig IndexedHistory DetectionRules StepMachine RuleDriver
open CooldownGate

/-- A run of calls on a new engine. -/
structure Run where
  /-- Configuration at construction. -/
  cfg : RuleConfig
  /-- The process-wide id counter at that time. -/
  counter : UInt64
  /-- The calls in order. -/
  calls : ℕ → Call

namespace Run

variable (run : Run)

/-- The engine before a call. -/
def engineAt (n : ℕ) : RuleEngine :=
  (driver.stateAt (RuleEngine.init run.cfg, run.counter) run.calls n).1

/-- The id counter before a call. -/
def counterAt (n : ℕ) : UInt64 :=
  (driver.stateAt (RuleEngine.init run.cfg, run.counter) run.calls n).2

/-- The verdicts of a call. -/
def verdictAt (n : ℕ) : Rule → Verdict :=
  driver.outputAt (RuleEngine.init run.cfg, run.counter) run.calls n

/-- The clock readings of a call; `set_config` reads no clock. -/
def readingAt (n : ℕ) (rule : Rule) : Reading :=
  match run.calls n with
  | .process _ _ readings => readings rule
  | .setConfig _ => ⟨0, 0⟩

/-- The rule's `evaluate` in the call returned the alert. -/
def Returned (n : ℕ) (rule : Rule) (alert : AlertEvent) : Prop :=
  (run.verdictAt n rule).returned = some alert

/-- The call's results hold the rule's alert. -/
def Emitted (n : ℕ) (rule : Rule) (alert : AlertEvent) : Prop :=
  run.verdictAt n rule = .emitted alert

/-- The call dropped the rule's alert. -/
def Withheld (n : ℕ) (rule : Rule) (alert : AlertEvent) : Prop :=
  run.verdictAt n rule = .withheld alert

/-- The readings of a turn and the cooldown in force, as an attempt at a gate. -/
def attemptAt (n : ℕ) (rule : Rule) : Attempt :=
  ⟨(run.readingAt n rule).check, (run.readingAt n rule).set, rule.cooldown (run.engineAt n).cfg⟩

/-- The attempts made with one key. -/
def keyed (rule : Rule) (subject : Bytes) (n : ℕ) : Option Attempt :=
  if (run.verdictAt n rule).returned.map dedupSubject = some subject then
    some (run.attemptAt n rule)
  else none

end Run

section simulation

variable (run : Run)

theorem keyed_eq_some {rule : Rule} {subject : Bytes} {n : ℕ} {a : Attempt} :
    run.keyed rule subject n = some a ↔
      ∃ alert, run.Returned n rule alert ∧ dedupSubject alert = subject ∧
        a = run.attemptAt n rule := by
  rw [Run.keyed, Option.ite_none_right_eq_some, Option.map_eq_some_iff, Option.some.injEq]
  constructor
  · rintro ⟨⟨alert, hr, hs⟩, ha⟩
    exact ⟨alert, hr, hs, ha.symm⟩
  · rintro ⟨alert, hr, hs, ha⟩
    exact ⟨⟨alert, hr, hs⟩, ha.symm⟩

theorem at_process {n : ℕ} {event : LogEvent} {snapshot : List LogEvent}
    {readings : Rule → Reading} (hc : run.calls n = .process event snapshot readings) :
    run.verdictAt n =
        (process (run.engineAt n) (run.counterAt n) event snapshot readings).verdict ∧
      run.engineAt (n + 1) =
        (process (run.engineAt n) (run.counterAt n) event snapshot readings).engine ∧
      ∀ rule, run.readingAt n rule = readings rule := by
  refine ⟨?_, ?_, fun rule => ?_⟩
  · rw [Run.verdictAt, Machine.outputAt, hc]
    rfl
  · rw [Run.engineAt, Machine.stateAt_succ, hc]
    rfl
  · rw [Run.readingAt, hc]

theorem at_setConfig {n : ℕ} {cfg : RuleConfig} (hc : run.calls n = .setConfig cfg) :
    (∀ rule, run.verdictAt n rule = .quiet) ∧
      run.engineAt (n + 1) = (run.engineAt n).setConfig cfg := by
  constructor
  · intro rule
    rw [Run.verdictAt, Machine.outputAt, hc]
    rfl
  · rw [Run.engineAt, Machine.stateAt_succ, hc]
    rfl

theorem inCooldown_eq_closed (engine : RuleEngine) (key : Bytes) (now : ℤ) :
    engine.inCooldown key now = closed (engine.cooldownMap.lookup key) now := by
  unfold RuleEngine.inCooldown closed
  cases engine.cooldownMap.lookup key <;> rfl

/-- A returned alert is dropped in cooldown and emitted otherwise. -/
theorem verdictAt_of_returned {n : ℕ} {rule : Rule} {alert : AlertEvent}
    (h : run.Returned n rule alert) : run.verdictAt n rule =
      if closed ((run.engineAt n).cooldownMap.lookup (dedupKey rule alert))
        (run.attemptAt n rule).check then .withheld alert else .emitted alert := by
  cases hc : run.calls n with
  | process event snapshot readings =>
    rcases at_process run hc with ⟨hv, -, hr⟩
    have hturn := (process_turn (run.engineAt n) (run.counterAt n) event snapshot readings rule).2.1
    rw [Run.Returned, hv] at h
    rw [hv, hturn alert h, inCooldown_eq_closed, Run.attemptAt, hr]
  | setConfig cfg =>
    rw [Run.Returned, (at_setConfig run hc).1] at h
    cases h

/-- One call moves the expiry of a key as one round of the gate. -/
theorem lookup_engineAt_succ (n : ℕ) (rule : Rule) (subject : Bytes) :
    (run.engineAt (n + 1)).cooldownMap.lookup (ruleKey rule subject) =
      roundExpiry ((run.engineAt n).cooldownMap.lookup (ruleKey rule subject))
        (run.keyed rule subject n) := by
  cases hc : run.calls n with
  | process event snapshot readings =>
    rcases at_process run hc with ⟨hv, he, hr⟩
    have hturn := (process_turn (run.engineAt n) (run.counterAt n) event snapshot readings
      rule).2.2 subject
    rw [← he, ← hv] at hturn
    rw [hturn]
    by_cases hs : (run.verdictAt n rule).returned.map dedupSubject = some subject
    · -- an attempt with the key: closed it changes nothing, open it stores its hold
      have hk : run.keyed rule subject n = some (run.attemptAt n rule) := if_pos hs
      rcases Option.map_eq_some_iff.mp hs with ⟨alert, hret, hsub⟩
      have hverdict := verdictAt_of_returned run hret
      rw [dedupKey, hsub] at hverdict
      rw [hk, roundExpiry]
      cases hclosed : closed ((run.engineAt n).cooldownMap.lookup (ruleKey rule subject))
          (run.attemptAt n rule).check with
      | true =>
        rw [hclosed, if_pos rfl] at hverdict
        rw [hverdict, if_pos rfl]
        rfl
      | false =>
        rw [hclosed, if_neg Bool.false_ne_true] at hverdict
        simp only [hverdict, Verdict.result, Option.map_some, hsub, if_true]
        rw [if_neg Bool.false_ne_true, ← hr]
        rfl
    · have hk : run.keyed rule subject n = none := if_neg hs
      have hres : (run.verdictAt n rule).result.map dedupSubject ≠ some subject := by
        intro h
        rcases Option.map_eq_some_iff.mp h with ⟨alert, hret, hsub⟩
        exact hs (Option.map_eq_some_iff.mpr ⟨alert, Verdict.returned_of_result hret, hsub⟩)
      rw [hk, if_neg hres]
      rfl
  | setConfig cfg =>
    rcases at_setConfig run hc with ⟨hv, he⟩
    have hk : run.keyed rule subject n = none := by
      rw [Run.keyed, hv]
      rfl
    rw [he, hk]
    rfl

/-- The expiry stored under a key is that of the key's own gate. -/
theorem lookup_engineAt (rule : Rule) (subject : Bytes) (n : ℕ) :
    (run.engineAt n).cooldownMap.lookup (ruleKey rule subject) =
      expiryAt (run.keyed rule subject) n := by
  induction n with
  | zero => rfl
  | succ n ih => rw [lookup_engineAt_succ, ih, expiryAt]

end simulation

section decisions

variable (run : Run)

theorem Emitted.granted {run : Run} {n : ℕ} {rule : Rule} {alert : AlertEvent}
    (h : run.Emitted n rule alert) :
    Granted (run.keyed rule (dedupSubject alert)) n (run.attemptAt n rule) := by
  have hret : run.Returned n rule alert := congrArg Verdict.returned h
  refine ⟨(keyed_eq_some run).mpr ⟨alert, hret, rfl, rfl⟩, ?_⟩
  rw [← lookup_engineAt]
  by_contra hclosed
  have hv := verdictAt_of_returned run hret
  rw [dedupKey, if_pos (eq_true_of_ne_false hclosed), h] at hv
  cases hv

theorem Withheld.withheld {run : Run} {n : ℕ} {rule : Rule} {alert : AlertEvent}
    (h : run.Withheld n rule alert) :
    CooldownGate.Withheld (run.keyed rule (dedupSubject alert)) n (run.attemptAt n rule) := by
  have hret : run.Returned n rule alert := congrArg Verdict.returned h
  refine ⟨(keyed_eq_some run).mpr ⟨alert, hret, rfl, rfl⟩, ?_⟩
  rw [← lookup_engineAt]
  by_contra hopen
  have hv := verdictAt_of_returned run hret
  rw [dedupKey, if_neg hopen, h] at hv
  cases hv

/-- A grant of a key's gate is an emitted alert with that key. -/
theorem exists_emitted_of_granted {rule : Rule} {subject : Bytes} {n : ℕ} {a : Attempt}
    (h : Granted (run.keyed rule subject) n a) :
    ∃ alert, run.Emitted n rule alert ∧ dedupSubject alert = subject ∧
      a = run.attemptAt n rule := by
  rcases (keyed_eq_some run).mp h.1 with ⟨alert, hret, hs, ha⟩
  refine ⟨alert, ?_, hs, ha⟩
  have hopen := h.2
  rw [← lookup_engineAt, ha] at hopen
  rw [Run.Emitted, verdictAt_of_returned run hret, dedupKey, hs, hopen, if_neg Bool.false_ne_true]

/-- A returned alert attempts its own key's gate, which decides it. -/
theorem withheld_iff_of_returned {n : ℕ} {rule : Rule} {alert : AlertEvent}
    (h : run.Returned n rule alert) : run.Withheld n rule alert ↔
      closed (expiryAt (run.keyed rule (dedupSubject alert)) n) (run.attemptAt n rule).check =
        true := by
  rw [← lookup_engineAt, Run.Withheld, verdictAt_of_returned run h, dedupKey]
  split
  · next hc => exact iff_of_true rfl hc
  · next hc => exact iff_of_false (fun h => by cases h) hc

end decisions

section rateLimit

/-- The clock readings of the calls do not decrease. -/
structure ClockMonotone (calls : ℕ → Call) : Prop where
  /-- Check before set. -/
  within : ∀ n event snapshot readings, calls n = .process event snapshot readings →
    ∀ rule, (readings rule).check ≤ (readings rule).set
  /-- Call after call. -/
  across : ∀ m n event snapshot readings event' snapshot' readings', m < n →
    calls m = .process event snapshot readings → calls n = .process event' snapshot' readings' →
    ∀ rule, (readings rule).set ≤ (readings' rule).check

/-- No rule has a negative cooldown. -/
def NonnegCooldowns (cfg : RuleConfig) : Prop := ∀ rule : Rule, 0 ≤ rule.cooldown cfg

variable {run : Run}

/-- Every configuration in force has been given to the engine. -/
theorem nonnegCooldowns_engineAt (h0 : NonnegCooldowns run.cfg)
    (hset : ∀ n cfg, run.calls n = .setConfig cfg → NonnegCooldowns cfg) (n : ℕ) :
    NonnegCooldowns (run.engineAt n).cfg := by
  induction n with
  | zero => exact h0
  | succ n ih =>
    cases hc : run.calls n with
    | process event snapshot readings =>
      rw [(at_process run hc).2.1, process_cfg]
      exact ih
    | setConfig cfg =>
      rw [(at_setConfig run hc).2]
      exact hset n cfg hc

/-- A call that returns an alert is a call of `process`. -/
theorem calls_of_returned {n : ℕ} {rule : Rule} {alert : AlertEvent}
    (h : run.Returned n rule alert) :
    ∃ event snapshot readings, run.calls n = .process event snapshot readings ∧
      ∀ rule, run.readingAt n rule = readings rule := by
  cases hc : run.calls n with
  | process event snapshot readings =>
    exact ⟨event, snapshot, readings, rfl, (at_process run hc).2.2⟩
  | setConfig cfg =>
    rw [Run.Returned, (at_setConfig run hc).1] at h
    cases h

/-- The attempts of a key are timely when the clock and the cooldowns are. -/
theorem timely_keyed (hclock : ClockMonotone run.calls) (h0 : NonnegCooldowns run.cfg)
    (hset : ∀ n cfg, run.calls n = .setConfig cfg → NonnegCooldowns cfg) (rule : Rule)
    (subject : Bytes) : Timely (run.keyed rule subject) where
  within := by
    intro n a ha
    rcases (keyed_eq_some run).mp ha with ⟨alert, hret, -, rfl⟩
    rcases calls_of_returned hret with ⟨event, snapshot, readings, hc, hr⟩
    have hw := hclock.within n event snapshot readings hc rule
    rw [← hr] at hw
    exact hw
  across := by
    intro m n a b hmn ha hb
    rcases (keyed_eq_some run).mp ha with ⟨alert, hret, -, rfl⟩
    rcases (keyed_eq_some run).mp hb with ⟨alert', hret', -, rfl⟩
    rcases calls_of_returned hret with ⟨event, snapshot, readings, hc, hr⟩
    rcases calls_of_returned hret' with ⟨event', snapshot', readings', hc', hr'⟩
    have hx := hclock.across m n _ _ _ _ _ _ hmn hc hc' rule
    rw [← hr, ← hr'] at hx
    exact hx
  hold := by
    intro n a ha
    rcases (keyed_eq_some run).mp ha with ⟨alert, -, -, rfl⟩
    exact nonnegCooldowns_engineAt h0 hset n rule

/-- Two emissions with one key are one, or the later one is checked no earlier
than the end of the cooldown that the earlier one started. -/
theorem emitted_spacing (ht : ∀ rule subject, Timely (run.keyed rule subject)) {m n : ℕ}
    {rule rule' : Rule} {alert alert' : AlertEvent} (hm : run.Emitted m rule alert)
    (hn : run.Emitted n rule' alert') (hkey : dedupKey rule alert = dedupKey rule' alert')
    (hmn : m < n) : (run.attemptAt m rule).holdEnd ≤ (run.attemptAt n rule').check := by
  rcases ruleKey_eq_iff.mp hkey with ⟨rfl, hsub⟩
  have hgm := Emitted.granted hm
  have hgn := Emitted.granted hn
  rw [hsub] at hgm
  exact hgm.spacing (ht rule _) hgn hmn

/-- Cooldown is an exact rate limiter for each key. Emissions with one key are
spaced by the cooldown in force at the first; a returned alert is dropped
exactly when an earlier emission with its key was less than its cooldown ago;
and runs that return alerts with a key at the same readings and cooldowns
decide them alike, whatever else they process. -/
theorem cooldown_rateLimit (run : Run) (hclock : ClockMonotone run.calls)
    (h0 : NonnegCooldowns run.cfg)
    (hset : ∀ n cfg, run.calls n = .setConfig cfg → NonnegCooldowns cfg) :
    (∀ m n rule rule' alert alert', run.Emitted m rule alert → run.Emitted n rule' alert' →
      dedupKey rule alert = dedupKey rule' alert' →
      (m = n ∧ rule = rule' ∧ alert = alert') ∨
        (m < n ∧ (run.attemptAt m rule).set + (run.attemptAt m rule).hold ≤
          (run.attemptAt n rule').check) ∨
        (n < m ∧ (run.attemptAt n rule').set + (run.attemptAt n rule').hold ≤
          (run.attemptAt m rule).check)) ∧
      (∀ n rule alert, run.Withheld n rule alert ↔ run.Returned n rule alert ∧
        ∃ m rule' alert', m < n ∧ run.Emitted m rule' alert' ∧
          dedupKey rule' alert' = dedupKey rule alert ∧
          (run.attemptAt n rule).check <
            (run.attemptAt m rule').set + (run.attemptAt m rule').hold) ∧
      ∀ (run' : Run) n rule subject,
        (∀ k ≤ n, run.keyed rule subject k = run'.keyed rule subject k) →
        ∀ alert alert', run.Returned n rule alert → run'.Returned n rule alert' →
          dedupSubject alert = subject → dedupSubject alert' = subject →
          (run.Withheld n rule alert ↔ run'.Withheld n rule alert') := by
  have ht := fun rule subject => timely_keyed hclock h0 hset rule subject
  refine ⟨?_, ?_, ?_⟩
  · intro m n rule rule' alert alert' hm hn hkey
    rcases Nat.lt_trichotomy m n with hlt | rfl | hgt
    · exact .inr (.inl ⟨hlt, emitted_spacing ht hm hn hkey hlt⟩)
    · have hrule : rule = rule' := (ruleKey_eq_iff.mp hkey).1
      rw [← hrule] at hn
      have hv : Verdict.emitted alert = .emitted alert' := hm.symm.trans hn
      exact .inl ⟨rfl, hrule, Verdict.emitted.inj hv⟩
    · exact .inr (.inr ⟨hgt, emitted_spacing ht hn hm hkey.symm hgt⟩)
  · intro n rule alert
    constructor
    · intro hw
      refine ⟨congrArg Verdict.returned hw, ?_⟩
      have hgate := Withheld.withheld hw
      rcases (CooldownGate.withheld_iff (ht rule _) hgate.1).mp hgate with ⟨m, a, hm, hg, hlt⟩
      rcases exists_emitted_of_granted run hg with ⟨alert', he, hs, rfl⟩
      exact ⟨m, rule, alert', hm, he, congrArg (ruleKey rule) hs, hlt⟩
    · rintro ⟨hret, m, rule', alert', hm, he, hkey, hlt⟩
      rcases ruleKey_eq_iff.mp hkey with ⟨rfl, hsub⟩
      have hattempt := (keyed_eq_some run).mpr ⟨alert, hret, rfl, rfl⟩
      have hg := Emitted.granted he
      rw [hsub] at hg
      rw [withheld_iff_of_returned run hret]
      exact ((CooldownGate.withheld_iff (ht rule' _) hattempt).mpr ⟨m, _, hm, hg, hlt⟩).2
  · intro run' n rule subject hsame alert alert' hret hret' hs hs'
    have hexp := expiryAt_congr fun k hk => hsame k (Nat.le_of_lt hk)
    have hattempt : run.attemptAt n rule = run'.attemptAt n rule := by
      have ha := (keyed_eq_some run).mpr ⟨alert, hret, hs, rfl⟩
      have ha' := (keyed_eq_some run').mpr ⟨alert', hret', hs', rfl⟩
      exact Option.some.inj (ha.symm.trans ((hsame n le_rfl).trans ha'))
    rw [withheld_iff_of_returned run hret, withheld_iff_of_returned run' hret', hs, hs', hexp,
      hattempt]

end rateLimit

/-- A sudo session a user opens on the node. -/
def sudoOpened (user : Bytes) (time : ℤ) : LogEvent where
  timestamp := time
  sourceHost := text "node"
  logSource := text "sudo"
  message := text "session opened for user root by " ++ user

/-- Sessions without history, one a second: the first by alice, the others by
bob. -/
def sudoRun : Run where
  cfg := {}
  counter := firstId
  calls := fun n =>
    .process (sudoOpened (if n = 0 then text "alice" else text "bob") (seconds n)) []
      fun _ => ⟨seconds n, seconds n⟩

/-- The alert about the second session. -/
def bobAlert : AlertEvent :=
  PrivEscRule.alert (sudoOpened (text "bob") (seconds 1)) (text "bob") (text "alert-2")

theorem sudoRun_withheld : sudoRun.Withheld 1 .privEsc bobAlert := by
  unfold Run.Withheld
  decide +kernel

theorem sudoRun_clockMonotone : ClockMonotone sudoRun.calls where
  within := by
    intro n event snapshot readings hc rule
    cases hc
    exact le_rfl
  across := by
    intro m n event snapshot readings event' snapshot' readings' hmn hc hc' rule
    cases hc
    cases hc'
    change seconds m ≤ seconds n
    unfold seconds
    omega

theorem nonnegCooldowns_default : NonnegCooldowns {} := by
  intro rule
  cases rule <;> decide

/-- The session of the second user is dropped for an emission with its key. -/
theorem cooldown_rateLimit_sudoRun : ∃ m rule' alert', m < 1 ∧ sudoRun.Emitted m rule' alert' ∧
    dedupKey rule' alert' = dedupKey .privEsc bobAlert ∧
    (sudoRun.attemptAt 1 .privEsc).check <
      (sudoRun.attemptAt m rule').set + (sudoRun.attemptAt m rule').hold :=
  (((cooldown_rateLimit sudoRun sudoRun_clockMonotone nonnegCooldowns_default
    (fun _ _ hc => by cases hc)).2.1 1 .privEsc bobAlert).mp sudoRun_withheld).2

end Dlads.CooldownHistory
