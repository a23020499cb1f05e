import Dlads.DetectionRules
import Dlads.StepMachine

/-!
# The rule engine

`RuleEngine::process` builds the index of an event and gives each rule its
turn: evaluate, form the deduplication key, drop the alert while the key is in
cooldown, else start its cooldown and keep the alert. The clock is read once
for each check and once for each start of a cooldown. A turn also reports its
verdict, which tells a dropped alert from none at all.
-/

namespace Dlads.RuleDriver

open ByteText StringMaps Records YamlConfig IndexedHistory DetectionRules StepMachine

/-- The data members of `RuleEngine`; the rules themselves have no state. -/
structure RuleEngine where
  /-- `cfg_`. -/
  cfg : RuleConfig
  /-- `cooldown_map_`: expiry by key. -/
  cooldownMap : StringMap ℤ
  deriving DecidableEq

/-- An engine after construction. -/
def RuleEngine.init (cfg : RuleConfig) : RuleEngine := ⟨cfg, ∅⟩

/-- `set_config`; running cooldowns stay. -/
def RuleEngine.setConfig (engine : RuleEngine) (cfg : RuleConfig) : RuleEngine :=
  { engine with cfg := cfg }

/-- `in_cooldown(key)` at a clock reading. -/
def RuleEngine.inCooldown (engine : RuleEngine) (key : Bytes) (now : ℤ) : Bool :=
  match engine.cooldownMap.lookup key with
  | none => false
  | some expiry => now < expiry

/-- `set_cooldown(key, duration)` at a clock reading. -/
def RuleEngine.setCooldown (engine : RuleEngine) (key : Bytes) (duration now : ℤ) : RuleEngine :=
  { engine with cooldownMap := assign engine.cooldownMap key (now + duration) }

/-- What a deduplication key names besides its rule: the `src_ip` metadata, or
the host when there is none. -/
def dedupSubject (alert : AlertEvent) : Bytes :=
  match alert.metadata.lookup (text "src_ip") with
  | some ip => ip
  | none => alert.sourceHost

/-- The key of a rule and a subject. -/
def ruleKey (rule : Rule) (subject : Bytes) : Bytes := rule.ruleId ++ text ":" ++ subject

/-- `dedup_key`. -/
def dedupKey (rule : Rule) (alert : AlertEvent) : Bytes := ruleKey rule (dedupSubject alert)

/-- The clock readings of a rule's turn. -/
structure Reading where
  /-- Read by `in_cooldown`. -/
  check : ℤ
  /-- Read by `set_cooldown`. -/
  set : ℤ

/-- What became of a rule's turn. -/
inductive Verdict
  /-- `evaluate` returned nothing. -/
  | quiet
  /-- The alert was dropped. -/
  | withheld (alert : AlertEvent)
  /-- The alert is among the results. -/
  | emitted (alert : AlertEvent)
  deriving DecidableEq

/-- What `evaluate` returned. -/
def Verdict.returned : Verdict → Option AlertEvent
  | .quiet => none
  | .withheld alert => some alert
  | .emitted alert => some alert

/-- What is pushed into the results. -/
def Verdict.result : Verdict → Option AlertEvent
  | .emitted alert => some alert
  | _ => none

/-- What is pushed into the results was returned. -/
theorem Verdict.returned_of_result {v : Verdict} {alert : AlertEvent}
    (h : v.result = some alert) : v.returned = some alert := by
  cases v with
  | quiet => cases h
  | withheld => cases h
  | emitted => exact h

/-- The loop variables of `process`: the engine, the process-wide id counter
and the verdicts so far. -/
structure Progress where
  /-- The engine. -/
  engine : RuleEngine
  /-- The counter of `AlertEvent::next_id`. -/
  counter : UInt64
  /-- Verdict of each rule, quiet before its turn. -/
  verdict : Rule → Verdict

/-- One iteration of the loop over the rules. -/
def consider (event : LogEvent) (snapshot : List LogEvent) (index : EventIndex)
    (readings : Rule → Reading) (p : Progress) (rule : Rule) : Progress :=
  match rule.evaluate event snapshot index p.engine.cfg p.counter with
  | (none, counter) => { p with counter := counter }
  | (some alert, counter) =>
    let key := dedupKey rule alert
    if p.engine.inCooldown key (readings rule).check then
      ⟨p.engine, counter, Function.update p.verdict rule (.withheld alert)⟩
    else
      ⟨p.engine.setCooldown key (rule.cooldown p.engine.cfg) (readings rule).set, counter,
        Function.update p.verdict rule (.emitted alert)⟩

/-- `process`, with the verdicts in place of the results. -/
def process (engine : RuleEngine) (counter : UInt64) (event : LogEvent)
    (snapshot : List LogEvent) (readings : Rule → Reading) : Progress :=
  Rule.all.foldl (consider event snapshot (buildIndex snapshot event.timestamp) readings)
    ⟨engine, counter, fun _ => .quiet⟩

/-- The vector `process` returns. -/
def Progress.results (p : Progress) : List AlertEvent :=
  Rule.all.filterMap fun rule => (p.verdict rule).result

/-- A call on the engine. -/
inductive Call
  /-- `process(event, snapshot)`. -/
  | process (event : LogEvent) (snapshot : List LogEvent) (readings : Rule → Reading)
  /-- `set_config(cfg)`. -/
  | setConfig (cfg : RuleConfig)

/-- Engine and id counter under calls; a step returns the verdicts. -/
def driver : Machine (RuleEngine × UInt64) Call (Rule → Verdict) where
  step := fun (engine, counter) call =>
    match call with
    | .process event snapshot readings =>
      let p := process engine counter event snapshot readings
      ((p.engine, p.counter), p.verdict)
    | .setConfig cfg => ((engine.setConfig cfg, counter), fun _ => .quiet)

section keys

theorem colon_not_mem_ruleId (rule : Rule) : 58 ∉ rule.ruleId := by
  cases rule <;> decide

theorem ruleId_injective : Function.Injective Rule.ruleId := by
  intro r r' h
  cases r <;> cases r' <;> first | rfl | exact absurd h (by decide)

/-- A key names its rule and its subject: rule ids contain no colon. -/
theorem ruleKey_eq_iff {rule rule' : Rule} {subject subject' : Bytes} :
    ruleKey rule subject = ruleKey rule' subject' ↔ rule = rule' ∧ subject = subject' := by
  constructor
  · intro h
    have hcut : ∀ (r : Rule) (s : Bytes), (ruleKey r s).takeWhile (· != 58) = r.ruleId := by
      intro r s
      have hall : ∀ c ∈ r.ruleId, (c != 58) = true := by
        intro c hc
        simp only [bne_iff_ne]
        rintro rfl
        exact colon_not_mem_ruleId r hc
      rw [ruleKey, List.append_assoc, List.takeWhile_append_of_pos hall]
      exact List.append_nil _
    have hid : rule.ruleId = rule'.ruleId := by rw [← hcut rule subject, h, hcut]
    have hrule := ruleId_injective hid
    refine ⟨hrule, ?_⟩
    rw [ruleKey, ruleKey, hid] at h
    exact List.append_cancel_left h
  · rintro ⟨rfl, rfl⟩
    rfl

end keys

section turns

variable (event : LogEvent) (snapshot : List LogEvent) (index : EventIndex)
  (readings : Rule → Reading)

/-- What a turn does: nothing but drawing an id when the rule is quiet or in
cooldown, and starting its own key's cooldown when it emits. -/
theorem consider_cases (p : Progress) (rule : Rule) :
    let q := consider event snapshot index readings p rule
    (q.engine = p.engine ∧ q.verdict = p.verdict ∧
        (rule.evaluate event snapshot index p.engine.cfg p.counter).1 = none) ∨
      ∃ alert, (rule.evaluate event snapshot index p.engine.cfg p.counter).1 = some alert ∧
        ((p.engine.inCooldown (dedupKey rule alert) (readings rule).check = true ∧
            q.engine = p.engine ∧
            q.verdict = Function.update p.verdict rule (.withheld alert)) ∨
          (p.engine.inCooldown (dedupKey rule alert) (readings rule).check = false ∧
            q.engine = p.engine.setCooldown (dedupKey rule alert) (rule.cooldown p.engine.cfg)
              (readings rule).set ∧
            q.verdict = Function.update p.verdict rule (.emitted alert))) := by
  unfold consider
  rcases rule.evaluate event snapshot index p.engine.cfg p.counter with ⟨result, counter⟩
  cases result with
  | none => exact .inl ⟨rfl, rfl, rfl⟩
  | some alert =>
    right
    refine ⟨alert, rfl, ?_⟩
    dsimp only
    cases hc : p.engine.inCooldown (dedupKey rule alert) (readings rule).check with
    | true => exact .inl ⟨rfl, rfl, rfl⟩
    | false => exact .inr ⟨rfl, rfl, rfl⟩

/-- A turn leaves the configuration, the verdicts and the cooldowns of the
other rules alone. -/
theorem consider_frame (p : Progress) (rule : Rule) :
    (consider event snapshot index readings p rule).engine.cfg = p.engine.cfg ∧
      ∀ other, other ≠ rule →
        (consider event snapshot index readings p rule).verdict other = p.verdict other ∧
        ∀ subject, (consider event snapshot index readings p rule).engine.cooldownMap.lookup
            (ruleKey other subject) = p.engine.cooldownMap.lookup (ruleKey other subject) := by
  rcases consider_cases event snapshot index readings p rule with
    ⟨he, hv, -⟩ | ⟨alert, -, ⟨-, he, hv⟩ | ⟨-, he, hv⟩⟩
  · rw [he, hv]
    exact ⟨rfl, fun other _ => ⟨rfl, fun _ => rfl⟩⟩
  · rw [he, hv]
    exact ⟨rfl, fun other ho => ⟨Function.update_of_ne ho _ _, fun _ => rfl⟩⟩
  · rw [he, hv]
    refine ⟨rfl, fun other ho => ⟨Function.update_of_ne ho _ _, fun subject => ?_⟩⟩
    have hk : ruleKey other subject ≠ dedupKey rule alert := fun h => ho (ruleKey_eq_iff.mp h).1
    simp only [RuleEngine.setCooldown, lookup_assign, if_neg hk]

/-- Turns of other rules leave a rule's verdict and cooldowns alone. -/
theorem foldl_consider_frame (rules : List Rule) (p : Progress) :
    (rules.foldl (consider event snapshot index readings) p).engine.cfg = p.engine.cfg ∧
      ∀ other, other ∉ rules →
        (rules.foldl (consider event snapshot index readings) p).verdict other =
            p.verdict other ∧
        ∀ subject,
          (rules.foldl (consider event snapshot index readings) p).engine.cooldownMap.lookup
            (ruleKey other subject) = p.engine.cooldownMap.lookup (ruleKey other subject) := by
  induction rules generalizing p with
  | nil => exact ⟨rfl, fun other _ => ⟨rfl, fun _ => rfl⟩⟩
  | cons rule rest ih =>
    have hstep := consider_frame event snapshot index readings p rule
    have hrest := ih (consider event snapshot index readings p rule)
    constructor
    · rw [List.foldl_cons, hrest.1, hstep.1]
    · intro other ho
      have hne : other ≠ rule := fun h => ho (h ▸ List.mem_cons_self)
      have hnot : other ∉ rest := fun h => ho (List.mem_cons_of_mem _ h)
      constructor
      · rw [List.foldl_cons, (hrest.2 other hnot).1, (hstep.2 other hne).1]
      · intro subject
        rw [List.foldl_cons, (hrest.2 other hnot).2, (hstep.2 other hne).2]

/-- Each rule has one turn, and the other rules stand on either side of it. -/
theorem all_split (rule : Rule) :
    ∃ before behind, Rule.all = before ++ rule :: behind ∧ rule ∉ before ∧ rule ∉ behind := by
  cases rule with
  | sshBruteForce => exact ⟨[], [.portScan, .privEsc, .multiServiceAuth], rfl, by decide, by decide⟩
  | portScan => exact ⟨[.sshBruteForce], [.privEsc, .multiServiceAuth], rfl, by decide, by decide⟩
  | privEsc => exact ⟨[.sshBruteForce, .portScan], [.multiServiceAuth], rfl, by decide, by decide⟩
  | multiServiceAuth =>
    exact ⟨[.sshBruteForce, .portScan, .privEsc], [], rfl, by decide, by decide⟩

end turns

section calls

variable (engine : RuleEngine) (counter : UInt64) (event : LogEvent) (snapshot : List LogEvent)
  (readings : Rule → Reading)

/-- `process` does not touch the configuration. -/
theorem process_cfg : (process engine counter event snapshot readings).engine.cfg = engine.cfg :=
  (foldl_consider_frame event snapshot _ readings Rule.all _).1

/-- What a call of `process` does for one rule, in terms of the cooldowns the
call started with. -/
theorem process_turn (rule : Rule) :
    let q := process engine counter event snapshot readings
    (∃ drawn, (rule.evaluate event snapshot (buildIndex snapshot event.timestamp) engine.cfg
        drawn).1 = (q.verdict rule).returned) ∧
      (∀ alert, (q.verdict rule).returned = some alert → q.verdict rule =
        if engine.inCooldown (dedupKey rule alert) (readings rule).check then .withheld alert
        else .emitted alert) ∧
      ∀ subject, q.engine.cooldownMap.lookup (ruleKey rule subject) =
        if (q.verdict rule).result.map dedupSubject = some subject then
          some ((readings rule).set + rule.cooldown engine.cfg)
        else engine.cooldownMap.lookup (ruleKey rule subject) := by
  intro q
  rcases all_split rule with ⟨before, behind, hall, hbefore, hbehind⟩
  let index := buildIndex snapshot event.timestamp
  -- the engine at the rule's turn: untouched for the rule's own keys
  let p := before.foldl (consider event snapshot index readings) ⟨engine, counter, fun _ => .quiet⟩
  have hp := foldl_consider_frame event snapshot index readings before
    ⟨engine, counter, fun _ => .quiet⟩
  have hown := hp.2 rule hbefore
  have hcool : ∀ alert, p.engine.inCooldown (dedupKey rule alert) (readings rule).check =
      engine.inCooldown (dedupKey rule alert) (readings rule).check := by
    intro alert
    rw [RuleEngine.inCooldown, dedupKey, hown.2, RuleEngine.inCooldown]
  have hq : q = behind.foldl (consider event snapshot index readings)
      (consider event snapshot index readings p rule) := by
    change Rule.all.foldl _ _ = _
    rw [hall, List.foldl_append, List.foldl_cons]
  have hrest := (foldl_consider_frame event snapshot index readings behind
    (consider event snapshot index readings p rule)).2 rule hbehind
  rw [hq, hrest.1]
  simp only [hrest.2]
  rcases consider_cases event snapshot index readings p rule with
    ⟨he, hv, hnone⟩ | ⟨alert, hsome, ⟨hc, he, hv⟩ | ⟨hc, he, hv⟩⟩
  · rw [he, hv, hown.1]
    refine ⟨⟨p.counter, hp.1 ▸ hnone⟩, fun alert h => ?_, fun subject => ?_⟩
    · cases h
    · exact hown.2 subject
  · rw [he, hv, Function.update_self]
    refine ⟨⟨p.counter, hp.1 ▸ hsome⟩, fun alert' h => ?_, fun subject => ?_⟩
    · cases h
      rw [← hcool, hc, if_pos rfl]
    · exact hown.2 subject
  · rw [he, hv, Function.update_self]
    refine ⟨⟨p.counter, hp.1 ▸ hsome⟩, fun alert' h => ?_, fun subject => ?_⟩
    · cases h
      rw [← hcool, hc, if_neg Bool.false_ne_true]
    · simp only [Verdict.result, Option.map_some, Option.some.injEq]
      by_cases hs : dedupSubject alert = subject
      · rw [if_pos hs, ← hs]
        simp only [RuleEngine.setCooldown, dedupKey, lookup_assign, if_true]
        rw [hp.1]
      · have hk : ruleKey rule subject ≠ dedupKey rule alert :=
          fun h => hs (ruleKey_eq_iff.mp h).2.symm
        rw [if_neg hs]
        simp only [RuleEngine.setCooldown, lookup_assign, if_neg hk]
        exact hown.2 subject

end calls

end Dlads.RuleDriver
