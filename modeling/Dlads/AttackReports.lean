import Dlads.AttackPhases
import Dlads.ProcessCrashes

/-!
# Attacks and what a process raises

An agent's process that takes the lines of a simulator's log raises an alert
about each attacker by the pass in which its rule returns one: this alert, or
one before it whose cooldown is not over. Nothing that the process does in
between matters, as long as its engine is not swapped.
-/

namespace Dlads.AttackReports

open ByteText StringMaps Records YamlConfig LineParsing SyslogLines StepMachine IndexedHistory
open DetectionRules RuleDriver RaisedAlerts AgentPipeline OffenderCooldown SimulatedLogs
open SimulatedAttacks
open AttackPhases AlertWire PrintedAlerts AgentProcesses DistributedRuns ProcessPipeline
open Utf8Text ProcessCrashes

section feeds

variable {feed : Feed} {n : ℕ} {rule : Rule}

/-- The verdicts at an arrival are those of the engine's call. -/
theorem verdictAt_of_engine {engine : RuleEngine} (he : (feed.stateAt n).engine = some engine) :
    feed.verdictAt n rule = (process engine (feed.stateAt n).counter (feed.arrival n)
      (feed.snapshotAt n) (feed.readings n)).verdict rule := by
  rw [Feed.verdictAt, he]

/-- A key with a cooldown was given it by an alert. -/
theorem emitted_of_key {subject : Bytes} {engine : RuleEngine}
    (he : (feed.stateAt n).engine = some engine)
    (h : engine.cooldownMap.lookup (ruleKey rule subject) ≠ none) :
    ∃ m < n, ∃ alert, feed.verdictAt m rule = .emitted alert ∧ dedupSubject alert = subject := by
  induction n generalizing engine with
  | zero =>
    cases he
    exact absurd (Finmap.lookup_empty _) h
  | succ n ih =>
    obtain ⟨previous, hprevious, -⟩ := exists_engine feed n
    have hstep := (onLine_some feed.nodeId (feed.readings n) _ hprevious (feed.events n)).2.1
    have hnext : (process previous (feed.stateAt n).counter (feed.arrival n) (feed.snapshotAt n)
        (feed.readings n)).engine = engine := Option.some.inj (hstep.symm.trans he)
    have hturn := (process_turn previous (feed.stateAt n).counter (feed.arrival n)
      (feed.snapshotAt n) (feed.readings n) rule).2.2 subject
    rw [hnext] at hturn
    rw [hturn, ← verdictAt_of_engine hprevious] at h
    split at h
    · next hresult =>
      obtain ⟨alert, halert, hsubject⟩ := Option.map_eq_some_iff.mp hresult
      refine ⟨n, Nat.lt_succ_self n, alert, ?_, hsubject⟩
      cases hv : feed.verdictAt n rule with
      | emitted made =>
        rw [hv] at halert
        cases halert
        rfl
      | quiet | withheld =>
        rw [hv] at halert
        cases halert
    · obtain ⟨m, hm, hemitted⟩ := ih hprevious h
      exact ⟨m, Nat.lt_succ_of_lt hm, hemitted⟩

/-- Of an alert that a rule returns, or of one before it under the same key,
nothing is withheld. -/
theorem emitted_of_returned {alert : AlertEvent}
    (h : (feed.verdictAt n rule).returned = some alert) :
    ∃ m ≤ n, ∃ made, feed.verdictAt m rule = .emitted made ∧
      dedupSubject made = dedupSubject alert := by
  obtain ⟨engine, he, -⟩ := exists_engine feed n
  have hturn := (process_turn engine (feed.stateAt n).counter (feed.arrival n) (feed.snapshotAt n)
    (feed.readings n) rule).2.1 alert (verdictAt_of_engine he ▸ h)
  rw [← verdictAt_of_engine he] at hturn
  split at hturn
  · next hcool =>
    have hkey : engine.cooldownMap.lookup (ruleKey rule (dedupSubject alert)) ≠ none := by
      intro hnone
      rw [RuleEngine.inCooldown, dedupKey, hnone] at hcool
      cases hcool
    obtain ⟨m, hm, hemitted⟩ := emitted_of_key he hkey
    exact ⟨m, hm.le, hemitted⟩
  · exact ⟨n, Nat.le_refl n, alert, hturn, rfl⟩

/-- The agent goes on publishing. -/
theorem publisher_stateAt (feed : Feed) (n : ℕ) : (feed.stateAt n).publisher = true := by
  induction n with
  | zero => rfl
  | succ n ih =>
    obtain ⟨engine, he, -⟩ := exists_engine feed n
    exact (onLine_some feed.nodeId (feed.readings n) _ he (feed.events n)).2.2.2.1.trans ih

/-- The alerts that the agent publishes at an arrival. -/
def publishedAt (feed : Feed) (n : ℕ) : List AlertEvent :=
  (onLine feed.nodeId (some (feed.events n)) (feed.readings n) (feed.stateAt n)).2

/-- What a rule emits is published. -/
theorem mem_publishedAt {alert : AlertEvent} (h : feed.verdictAt n rule = .emitted alert) :
    stampAlert feed.nodeId alert ∈ publishedAt feed n := by
  obtain ⟨engine, he, -⟩ := exists_engine feed n
  have hout := (onLine_some feed.nodeId (feed.readings n) _ he (feed.events n)).2.2.2.2
  rw [publishedAt, hout, publisher_stateAt, if_pos rfl]
  refine List.mem_map_of_mem (List.mem_filterMap.mpr ⟨rule, ?_, ?_⟩)
  · cases rule <;> decide
  · rw [verdictAt_of_engine he] at h
    exact congrArg Verdict.result h

end feeds

section lines

variable (sim : Simulation) {site : Site}

/-- What the callback is called with on a line of the log. -/
def logged (q : ℕ) : Taken :=
  (sim.clocks q, (sim.lines q).print sim.cfg (sim.stamps q).text, sim.readings q)

/-- The pipeline on the lines of a log is the agent on their events. -/
theorem pipeline_logged (hid : site.nodeId = sim.nodeId) (hcfg : site.cfg = sim.rules) (n : ℕ) :
    pipelineState site ((List.range n).map (logged sim)) = sim.feed.stateAt n ∧
      pipelineAlerts site ((List.range n).map (logged sim)) =
        (List.range n).flatMap (publishedAt sim.feed) := by
  induction n with
  | zero =>
    refine ⟨?_, rfl⟩
    have hinit : pipelineState site [] = .init site.cfg := rfl
    rw [List.range_zero, List.map_nil, hinit, hcfg]
    rfl
  | succ n ih =>
    obtain ⟨hstate, halerts⟩ := ih
    obtain ⟨hnext, hmore⟩ := pipeline_concat site ((List.range n).map (logged sim)) (logged sim n)
    have hparse : parse (sim.clocks n) ((sim.lines n).print sim.cfg (sim.stamps n).text) =
        some (sim.event n) := by
      obtain ⟨ev, hev, -⟩ := parse_readAs sim.cfg (sim.clocks n) (sim.stamps n) (sim.lines n)
      rw [Simulation.event, hev]
      rfl
    rw [hstate] at hnext hmore
    rw [halerts] at hmore
    dsimp only [logged] at hnext hmore
    rw [hparse, hid] at hnext hmore
    rw [List.range_succ, List.map_append, List.map_singleton, List.flatMap_append,
      List.flatMap_singleton]
    exact ⟨hnext, hmore⟩

variable {sim} {n : ℕ} {rule : Rule}

/-- What a rule returns is drafted for what it looks for in the line. -/
theorem exists_draft {alert : AlertEvent}
    (h : (sim.feed.verdictAt n rule).returned = some alert) :
    ∃ subject id, lineSubject sim.cfg rule (sim.lines n) = some subject ∧
      alert = draft (sim.feed.arrival n)
        (buildIndex (sim.feed.snapshotAt n) (sim.feed.arrival n).timestamp) sim.rules subject id
          rule := by
  obtain ⟨id, hreturned⟩ := exists_returned sim n rule
  rw [hreturned] at h
  obtain ⟨subject, hsubject, hdraft⟩ := Option.bind_eq_some_iff.mp h
  split at hdraft
  · cases hdraft
    exact ⟨subject, id, hsubject, rfl⟩
  · cases hdraft

/-- Alerts of one rule under one key are about the same. -/
theorem alertSubject_eq {m : ℕ} {made alert : AlertEvent}
    (hmade : (sim.feed.verdictAt m rule).returned = some made)
    (halert : (sim.feed.verdictAt n rule).returned = some alert)
    (hkey : dedupSubject made = dedupSubject alert) :
    alertSubject rule made = alertSubject rule alert := by
  obtain ⟨subject, id, hsubject, rfl⟩ := exists_draft hmade
  obtain ⟨subject', id', hsubject', rfl⟩ := exists_draft halert
  rw [alertSubject_draft, alertSubject_draft]
  cases rule with
  | privEsc =>
    have huser : ∀ l u, lineSubject sim.cfg .privEsc l = some u → u = text "newuser" := by
      intro l u hu
      cases l <;> cases hu
      rfl
    rw [huser _ _ hsubject, huser _ _ hsubject']
  | sshBruteForce | portScan | multiServiceAuth =>
    rw [dedupSubject, dedupSubject, lookup_draft _ _ _ _ _ (by decide),
      lookup_draft _ _ _ _ _ (by decide)] at hkey
    exact congrArg some hkey

theorem ruleId_returned {alert : AlertEvent}
    (h : (sim.feed.verdictAt n rule).returned = some alert) : alert.ruleId = rule.ruleId := by
  obtain ⟨subject, id, -, rfl⟩ := exists_draft h
  cases rule <;> rfl

end lines

section reports

variable {ι : Type*} [DecidableEq ι] {run : Run ι} {n : ℕ} {i : ι}

/-- A process has raised an alert of a rule about a subject. -/
def Reported (run : Run ι) (n : ℕ) (i : ι) (rule : Rule) (subject : Bytes) : Prop :=
  ∃ alert ∈ run.raisedBefore n i, alert.ruleId = rule.ruleId ∧ alertSubject rule alert = some subject

/-- A process that watches a simulator's log and has taken its first lines. -/
structure Watches (run : Run ι) (n : ℕ) (i : ι) (sim : Simulation) (count : ℕ) : Prop where
  /-- It is started with the node id and the rules. -/
  site : (run.site i).nodeId = sim.nodeId ∧ (run.site i).cfg = sim.rules
  /-- Its engine is not swapped. -/
  unswapped : Unswapped run n i
  /-- It has taken the lines. -/
  taken : (List.range count).map (logged sim) <+: taken run n i

/-- What a rule returns on a line that was taken the process has reported. -/
theorem Watches.reported {sim : Simulation} {count : ℕ} (h : Watches run n i sim count) {q : ℕ}
    (hq : q < count) {rule : Rule} {subject : Bytes}
    (hreturned : (sim.feed.verdictAt q rule).returned.map (alertSubject rule) =
      some (some subject)) : Reported run n i rule subject := by
  obtain ⟨alert, halert, hsubject⟩ := Option.map_eq_some_iff.mp hreturned
  obtain ⟨m, hm, made, hmade, hkey⟩ := emitted_of_returned halert
  have hmade' : (sim.feed.verdictAt m rule).returned = some made := by
    rw [hmade]
    rfl
  obtain ⟨rest, hrest⟩ := h.taken
  have hpipeline := (pipeline_logged sim h.site.1 h.site.2 count).2
  have hraised : run.raisedBefore n i =
      pipelineAlerts (run.site i) (ProcessPipeline.taken run n i) :=
    (histories run n i).1.symm.trans (follows_agentAt h.unswapped).raised
  have hrule : made.ruleId = rule.ruleId := ruleId_returned hmade'
  refine ⟨stampAlert sim.nodeId made, ?_, hrule, ?_⟩
  · rw [hraised, ← hrest, pipelineAlerts, Machine.outputs_append, List.flatten_append]
    refine List.mem_append_left _ ?_
    change _ ∈ pipelineAlerts (run.site i) _
    rw [hpipeline]
    exact List.mem_flatMap.mpr
      ⟨m, List.mem_range.mpr (lt_of_le_of_lt hm hq), mem_publishedAt hmade⟩
  · rw [← hsubject, ← alertSubject_eq hmade' halert hkey]
    cases rule <;> rfl

/-- A process that has taken the lines of the `m`-th pass of an attack phase
whose lines come close together has reported what the phase gives rules to
return: the failed logins, the port scan, the failures of two services, the
first session of the new user. -/
theorem attack_reported (run : Run ι) (s : Session) (k c m : ℕ) (d : ℤ) {n : ℕ} {i : ι}
    (hwatches : Watches run n i s.toSimulation (written s.cfg s.opened (k + 1)).length)
    (hopen : s.opened k = true)
    (hpasses : passes s.opened (k + 1) = quietTicks s.cfg + c * period s.cfg + m)
    (hfirst : 0 < m) (hlast : m ≤ attackTicks s.cfg + 1) (hring : 8 * m ≤ ringCapacity)
    (hday : d ≤ 86400) (htimely : Timely s k m d) :
    (d ≤ s.rules.sshWindowSeconds → s.rules.sshThreshold ≤ 3 * m + 1 →
        Reported run n i .sshBruteForce s.cfg.atkSsh) ∧
      (m ≤ 60 → d ≤ s.rules.scanWindowSeconds → s.rules.scanThreshold ≤ m →
        Reported run n i .portScan s.cfg.atkScan) ∧
      (m % 7 = 1 ∨ m % 5 = 1 ∧ 1 < m → d ≤ s.rules.multiWindowSeconds →
        s.rules.multiMinServices ≤ 2 → Reported run n i .multiServiceAuth s.cfg.atkMulti) ∧
      (m = 3 → .sudoOpen ∉ written s.cfg s.opened k →
        Reported run n i .privEsc (text "newuser")) := by
  obtain ⟨hssh, hscan, hmulti, hpriv⟩ := attack_detected s k c m d hopen hpasses hfirst hlast hring
    hday htimely
  have hreported : ∀ {rule subject}, Raises s k rule subject → Reported run n i rule subject := by
    rintro rule subject ⟨q, -, hq, hreturned⟩
    exact hwatches.reported hq hreturned
  exact ⟨fun hd ht => hreported (hssh hd ht), fun hm hd ht => hreported (hscan hm hd ht),
    fun hm hd ht => hreported (hmulti hm hd ht), fun hm hnone => hreported (hpriv hm hnone)⟩

end reports

section reader

variable (sim : Simulation)

/-- A process that takes the lines of a log, with four turns to publish after
each. -/
def reader : Run Unit where
  lib := standardLibrary
  site := fun _ => {
    nodeId := sim.nodeId
    cfg := sim.rules
    ids := .builtin
    utcSeconds := fun _ => none }
  actions := fun n =>
    if n % 5 = 0 then
      .agent () (.line (logged sim (n / 5)).1 (logged sim (n / 5)).2.1 (logged sim (n / 5)).2.2)
    else .agent () .publish

/-- A process that has some turns to go before its next line. -/
structure Due (p : AgentProcess) (turns : ℕ) : Prop where
  /-- It runs. -/
  up : p.crashed = false
  /-- It runs the rules. -/
  ids : p.ids = some .builtin
  /-- The turns suffice. -/
  pending : p.pending.length ≤ turns

/-- Each rule gives one alert at most. -/
theorem length_results (p : Progress) : p.results.length ≤ 4 :=
  List.length_filterMap_le _ Rule.all

theorem length_detect (nodeId : Bytes) (parsed : Option LogEvent) (readings : Rule → Reading)
    (s : AgentState) : (detect nodeId parsed readings s).2.length ≤ 4 := by
  unfold detect
  cases parsed with
  | none => exact Nat.zero_le 4
  | some ev =>
    cases s.engine with
    | none => exact Nat.zero_le 4
    | some engine => exact length_results _

theorem due_line {p : AgentProcess} (h : Due p 0) (line : Taken) :
    Due (p.step (reader sim).lib ((reader sim).site ()) (.line line.1 line.2.1 line.2.2)) 4 ∧
      takes p (.line line.1 line.2.1 line.2.2) = some line := by
  have hready : p.ids = some .builtin ∧ p.pending = [] :=
    ⟨h.ids, List.eq_nil_of_length_eq_zero (Nat.le_zero.mp h.pending)⟩
  constructor
  · unfold AgentProcess.step
    rw [if_neg (by simp [h.up])]
    dsimp only [AgentProcess.takeLine]
    rw [if_pos hready]
    exact ⟨h.up, h.ids, length_detect _ _ _ _⟩
  · exact if_pos ⟨h.up, hready⟩

/-- Publishing a valid alert throws nothing. -/
theorem due_publish {p : AgentProcess} {turns : ℕ} (h : Due p (turns + 1))
    (hvalid : ∀ alert ∈ p.pending, AlertUtf8 (stampAlert sim.nodeId alert)) :
    Due (p.step (reader sim).lib ((reader sim).site ()) .publish) turns := by
  have hlength := h.pending
  unfold AgentProcess.step
  rw [if_neg (by simp [h.up])]
  dsimp only [AgentProcess.publishNext]
  cases hpending : p.pending with
  | nil => exact ⟨h.up, h.ids, by rw [hpending]; exact Nat.zero_le _⟩
  | cons alert rest =>
    rw [hpending, List.length_cons] at hlength
    dsimp only
    split
    · split
      · next hthrow =>
        refine absurd (hvalid alert (hpending ▸ List.mem_cons_self)) ?_
        exact (serialize_none sane_standardLibrary.strict _).mp hthrow
      · exact ⟨h.up, h.ids, Nat.le_of_succ_le_succ hlength⟩
    · exact ⟨h.up, h.ids, Nat.le_of_succ_le_succ hlength⟩

/-- What a callback has still to publish was raised. -/
theorem pending_raised {ι : Type*} [DecidableEq ι] (run : Run ι) (n : ℕ) (i : ι) :
    ∀ alert ∈ (run.agentAt n i).pending,
      stampAlert (run.site i).nodeId alert ∈ (run.agentAt n i).raised := by
  obtain ⟨published, hraised, -⟩ := ((consistent_stateAt run n).sound i).history
  intro alert halert
  have hmem : stampAlert (run.site i).nodeId alert ∈
      (run.agentAt n i).pending.map (stampAlert (run.site i).nodeId) := List.mem_map_of_mem halert
  exact hraised ▸ List.mem_append_right published hmem

variable {sim}

/-- Of valid lines it has only alerts to publish that can be serialized. -/
theorem utf8_pending_reader (hnode : IsUtf8 sim.nodeId) (hlines : ∀ q, IsUtf8 (logged sim q).2.1)
    {n m : ℕ} (htaken : taken (reader sim) n () = (List.range m).map (logged sim)) :
    ∀ alert ∈ ((reader sim).agentAt n ()).pending, AlertUtf8 (stampAlert sim.nodeId alert) := by
  intro alert halert
  have hvalid : ∀ line ∈ taken (reader sim) n (), IsUtf8 line.2.1 := by
    intro line hline
    rw [htaken] at hline
    obtain ⟨k, -, rfl⟩ := List.mem_map.mp hline
    exact hlines k
  exact (clean_agentAt (standard_standardLibrary.valid) hnode hvalid).raised _
    (pending_raised (reader sim) n () alert halert)

/-- It takes a line in every fifth step. -/
theorem line_reader (q : ℕ) : (reader sim).actions (5 * q) =
    .agent () (.line (logged sim q).1 (logged sim q).2.1 (logged sim q).2.2) := by
  have hplace : (5 * q) % 5 = 0 ∧ (5 * q) / 5 = q := by omega
  simp only [reader, hplace.1, hplace.2, if_true]

/-- It publishes in the steps in between. -/
theorem publish_reader {q j : ℕ} (hj : j < 4) :
    (reader sim).actions (5 * q + j + 1) = .agent () .publish := by
  have hplace : ¬(5 * q + j + 1) % 5 = 0 := by omega
  simp only [reader, hplace, if_false]

/-- Of a log in valid UTF-8 it takes one line after the other. -/
theorem due_reader (hnode : IsUtf8 sim.nodeId) (hlines : ∀ q, IsUtf8 (logged sim q).2.1) (q : ℕ) :
    Due ((reader sim).agentAt (5 * q) ()) 0 ∧
      taken (reader sim) (5 * q) () = (List.range q).map (logged sim) := by
  induction q with
  | zero => exact ⟨⟨rfl, rfl, Nat.le_refl 0⟩, rfl⟩
  | succ q ih =>
    obtain ⟨hdue, htaken⟩ := ih
    obtain ⟨hfour, htakes⟩ := due_line sim hdue (logged sim q)
    have hafter : ∀ j ≤ 4, Due ((reader sim).agentAt (5 * q + j + 1) ()) (4 - j) ∧
        taken (reader sim) (5 * q + j + 1) () = (List.range (q + 1)).map (logged sim) := by
      intro j hj
      induction j with
      | zero =>
        refine ⟨?_, ?_⟩
        · rw [Nat.add_zero, (agent_succ (line_reader q)).1, Function.update_self]
          exact hfour
        · rw [Nat.add_zero, taken_succ, takenAt, line_reader, htaken, List.range_succ,
            List.map_append]
          dsimp only
          rw [if_pos rfl, htakes]
          rfl
      | succ j ihj =>
        obtain ⟨hprevious, hsame⟩ := ihj (Nat.le_of_succ_le hj)
        have hact := @publish_reader sim q j (Nat.lt_of_succ_le hj)
        refine ⟨?_, ?_⟩
        · have hturns : 4 - j = 4 - (j + 1) + 1 := by omega
          rw [hturns] at hprevious
          rw [← Nat.add_assoc, (agent_succ hact).1, Function.update_self]
          exact due_publish sim hprevious (utf8_pending_reader hnode hlines hsame)
        · rw [← Nat.add_assoc, taken_succ, hsame, takenAt, hact]
          exact List.append_nil _
    exact hafter 4 (Nat.le_refl 4)

theorem unswapped_reader (n : ℕ) : Unswapped (reader sim) n () := by
  refine ⟨rfl, fun k _ ids fresh hswap => ?_⟩
  simp only [reader] at hswap
  split at hswap <;> cases hswap

theorem watches_reader (hnode : IsUtf8 sim.nodeId) (hlines : ∀ q, IsUtf8 (logged sim q).2.1)
    (q : ℕ) : Watches (reader sim) (5 * q) () sim q where
  site := ⟨rfl, rfl⟩
  unswapped := unswapped_reader _
  taken := (due_reader hnode hlines q).2 ▸ List.prefix_refl _

end reader

section standing

theorem isAscii_append {s t : Bytes} : IsAscii (s ++ t) ↔ IsAscii s ∧ IsAscii t :=
  List.forall_mem_append

/-- A simulator with an ASCII configuration writes ASCII. -/
theorem isAscii_print {cfg : AgentConfig} (hhost : IsAscii cfg.host)
    (hbase : IsAscii cfg.attackIpBase) {ts : Bytes} (hts : IsAscii ts) (l : Line) :
    IsAscii (l.print cfg ts) := by
  have hnat : ∀ n : ℕ, IsAscii (decNat n) := by
    intro n
    have hdec := isAscii_dec n
    rwa [dec, if_neg (by omega)] at hdec
  have haddress : IsAscii cfg.atkSsh ∧ IsAscii cfg.atkScan ∧ IsAscii cfg.atkMulti :=
    ⟨isAscii_append.mpr ⟨hbase, by decide⟩, isAscii_append.mpr ⟨hbase, by decide⟩,
      isAscii_append.mpr ⟨hbase, by decide⟩⟩
  obtain ⟨hssh, hscan, hmulti⟩ := haddress
  have htables : ∀ k < 5, IsAscii (sources.getD k []) ∧ IsAscii (msgs.getD k []) := by
    decide +kernel
  cases l with
  | background idx =>
    obtain ⟨hsource, hmsg⟩ := htables (idx % 5) (Nat.mod_lt idx (by decide))
    simp only [Line.print, genBackground, isAscii_append]
    exact ⟨⟨⟨⟨⟨⟨⟨⟨hts, by decide⟩, hhost⟩, by decide⟩, hsource⟩, by decide⟩, hnat _⟩, by decide⟩,
      hmsg⟩
  | sshFail i =>
    simp only [Line.print, genSshFail, isAscii_append]
    exact ⟨⟨⟨⟨⟨⟨⟨hts, by decide⟩, hhost⟩, by decide⟩, hnat _⟩, by decide +kernel⟩, hssh⟩,
      by decide +kernel⟩
  | portScan i =>
    simp only [Line.print, genPortScan, isAscii_append]
    exact ⟨⟨⟨⟨⟨⟨hts, by decide⟩, hhost⟩, by decide +kernel⟩, hscan⟩, by decide +kernel⟩, hnat _⟩
  | nginxFail | sshdFail =>
    simp only [Line.print, genAuthFail, isAscii_append]
    exact ⟨⟨⟨⟨⟨⟨hts, by decide⟩, hhost⟩, by decide⟩, by decide⟩, by decide +kernel⟩, hmulti⟩
  | sudoOpen =>
    simp only [Line.print, genSudoOpen, isAscii_append]
    exact ⟨⟨⟨⟨⟨hts, by decide⟩, hhost⟩, by decide +kernel⟩, by decide⟩, by decide⟩
  | started =>
    simp only [Line.print, isAscii_append]
    exact ⟨⟨⟨hts, by decide⟩, hhost⟩, by decide +kernel⟩

theorem watches_standing (q : ℕ) :
    Watches (reader standing.toSimulation) (5 * q) () standing.toSimulation q := by
  have hhost : IsAscii standing.cfg.host := by decide
  have hbase : IsAscii standing.cfg.attackIpBase := by decide
  have hstamp : IsAscii (standing.stamps 0).text := by decide
  refine watches_reader (isUtf8_text "node-1" (by decide)) (fun k => ?_) q
  have hprint := isAscii_print hhost hbase hstamp (standing.lines k)
  rw [logged]
  exact hprint.isUtf8

/-- In the third pass of the first attack phase three attacks are reported. -/
theorem attack_reported_standing : ∃ n,
    Reported (reader standing.toSimulation) n () .sshBruteForce (text "10.0.0.1") ∧
      Reported (reader standing.toSimulation) n () .portScan (text "10.0.0.2") ∧
        Reported (reader standing.toSimulation) n () .privEsc (text "newuser") := by
  have hring : 8 * 3 ≤ ringCapacity := by
    unfold ringCapacity
    decide
  obtain ⟨hssh, hscan, -, hpriv⟩ := attack_reported _ standing 4 0 3 0 (watches_standing _) rfl
    (by decide) (by decide) (by decide) hring (by decide) (timely_standing 4 3)
  exact ⟨_, hssh (by decide) (by decide), hscan (by decide) (by decide) (by decide),
    hpriv rfl (by decide)⟩

/-- The process has raised alerts then, which are those of the pipeline. -/
theorem process_refines_pipeline_standing : ∃ n,
    (reader standing.toSimulation).raisedBefore n () ≠ [] ∧
      (reader standing.toSimulation).raisedBefore n () =
          pipelineAlerts ((reader standing.toSimulation).site ())
            (taken (reader standing.toSimulation) n ()) ∧
        Agrees ((reader standing.toSimulation).agentAt n ()).globals
          (pipelineState ((reader standing.toSimulation).site ())
            (taken (reader standing.toSimulation) n ())) := by
  have hring : 8 * 3 ≤ ringCapacity := by
    unfold ringCapacity
    decide
  obtain ⟨hssh, -⟩ := attack_detected standing 4 0 3 0 rfl (by decide) (by decide) (by decide) hring
    (by decide) (timely_standing 4 3)
  obtain ⟨q, -, hq, hreturned⟩ := hssh (by decide) (by decide)
  obtain ⟨alert, halert, -⟩ := (watches_standing _).reported hq hreturned
  exact ⟨_, List.ne_nil_of_mem halert, process_refines_pipeline _ (unswapped_reader _)⟩

end standing

end Dlads.AttackReports
