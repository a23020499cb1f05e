import Mathlib.Tactic.IntervalCases
import Dlads.DatabaseRestarts
import Dlads.DistributedRuns

/-!
# Where threats come from

The correlation engine of the coordinator keeps at most one entry under an
address. The entry is that of an alert that was received since the last restart
and the last threat about the address, so a threat rests on two alerts about
its address, which two processes of different nodes raised before.
-/

namespace Dlads.ThreatProvenance

open ByteText Utf8Text StringMaps Records JsonValue JsonPrinting JsonReading JsonRoundTrip
open DecimalPrinting AlertWire WireRoundTrip EveLines RaisedAlerts Correlation DatabaseRestarts
open LossyChannel
open PrintedAlerts AgentProcesses DistributedRuns AlertDatabase KeyedTable
open DetectionRules (Rule)
open RuleDriver (ruleId_injective)
open AgentPipeline (stampAlert)

section pairs

variable {engine : CorrelationEngine} {alert : AlertEvent}

theorem inWindow_iff (windowSec now time : ℤ) :
    inWindow windowSec now time = true ↔ wholeSeconds (now - time) ≤ windowSec := by
  rw [inWindow, Bool.not_eq_true', decide_eq_false_iff_not, not_lt]

/-- With a threshold of two, an ingest completes a threat from the one entry of
another node that is in the window, or leaves at most one entry. -/
theorem ingest_pair (now : ℤ) (hthreshold : engine.threshold = 2)
    (hfew : (bucket engine.index (sourceIp alert)).length ≤ 1) :
    (∃ e, bucket engine.index (sourceIp alert) = [e] ∧
      inWindow engine.windowSec now e.timestamp = true ∧ e.nodeId ≠ alert.sourceHost ∧
      (engine.ingest alert now).2 = some (buildThreat engine alert now [e, entryOf alert now]) ∧
      bucket (engine.ingest alert now).1.index (sourceIp alert) = []) ∨
    (engine.ingest alert now).2 = none ∧ (ingestEntries engine alert now).length ≤ 1 ∧
      bucket (engine.ingest alert now).1.index (sourceIp alert) = ingestEntries engine alert now := by
  have hbucket := bucket_ingest engine alert now (sourceIp alert)
  rw [if_pos rfl] at hbucket
  rw [hbucket, ingest_snd, hthreshold]
  by_cases hmany : ((ingestEntries engine alert now).length : ℤ) < 2
  · rw [if_pos hmany, if_pos hmany]
    exact .inr ⟨rfl, by omega, rfl⟩
  · rw [if_neg hmany, if_neg hmany]
    left
    have hlong : 2 ≤ (ingestEntries engine alert now).length := by omega
    unfold ingestEntries enrollEntry at hlong ⊢
    dsimp only at hlong ⊢
    cases hold : bucket engine.index (sourceIp alert) with
    | nil =>
      rw [hold] at hlong
      simp at hlong
    | cons e rest =>
      have hrest : rest = [] := by
        rw [hold, List.length_cons] at hfew
        exact List.eq_nil_of_length_eq_zero (by omega)
      rw [hold, hrest] at hlong
      rw [hrest]
      cases hfresh : inWindow engine.windowSec now e.timestamp with
      | false => simp [hfresh] at hlong
      | true =>
        by_cases hnode : e.nodeId = alert.sourceHost
        · simp [hfresh, hnode] at hlong
        · exact ⟨e, rfl, hfresh, hnode, by simp [hfresh, hnode], rfl⟩

/-- A receive ingests the alert and returns the threat. -/
theorem receive_engine (c : AlertDatabase.Coordinator) (alert : AlertEvent) (now : ℤ) :
    (c.receive alert now).1.engine = (c.engine.ingest alert now).1 ∧
      (c.receive alert now).2 = (c.engine.ingest alert now).2 := by
  unfold AlertDatabase.Coordinator.receive
  cases h : (c.engine.ingest alert now).2 with
  | none => exact ⟨by simp [h], by simp [h]⟩
  | some threat => exact ⟨by simp [h], by simp [h]⟩

end pairs

section memory

variable {ι : Type*} [DecidableEq ι] (run : Run ι)

/-- What a step of a run does to the engine: it ingests the alert that the step
receives, is replaced in a restart, and stays as it is otherwise. -/
theorem engine_cases (n : ℕ) :
    (∃ i alert now, run.actions n ≠ .restart ∧
      run.eventAt n = .received i alert now ((run.engineAt n).ingest alert now).2 ∧
      run.engineAt (n + 1) = ((run.engineAt n).ingest alert now).1) ∨
    (∀ i alert now threat, run.eventAt n ≠ .received i alert now threat) ∧
      (run.actions n = .restart ∧ run.engineAt (n + 1) = .init 120 2 ∨
        run.actions n ≠ .restart ∧ run.engineAt (n + 1) = run.engineAt n) := by
  have hstate : run.engineAt (n + 1) =
      ((run.stateAt n).step run.toDeployed (run.actions n)).1.coordinator.coordinator.engine := rfl
  have hevent : run.eventAt n = ((run.stateAt n).step run.toDeployed (run.actions n)).2 := rfl
  rcases coordinator_step run.toDeployed (run.stateAt n) (run.actions n) with
    ⟨i, raw, alert, nowSec, now, hact, hreceived, -, hcoordinator⟩ | ⟨hnone, hmoves⟩
  · obtain ⟨hengine, hthreat⟩ := receive_engine (run.stateAt n).coordinator.coordinator alert now
    refine .inl ⟨i, alert, now, by simp [hact], ?_, ?_⟩
    · rw [hevent, hreceived, hthreat]
      rfl
    · rw [hstate, hcoordinator]
      exact hengine
  · refine .inr ⟨fun i alert now threat h => ?_, ?_⟩
    · rw [← hevent, h] at hnone
      cases hnone
    · rcases hmoves with ⟨hrestart, hcoordinator⟩ | ⟨hno, hsame, -⟩
      · exact .inl ⟨hrestart, by rw [hstate, hcoordinator]; rfl⟩
      · exact .inr ⟨hno, by rw [hstate, hsame]; rfl⟩

/-- Between two steps the coordinator is not restarted and completes no threat
about an address. -/
def Undisturbed (x : Bytes) (k n : ℕ) : Prop := ∀ j, k < j → j < n → run.actions j ≠ .restart ∧
  ∀ i alert now threat, run.eventAt j = .received i alert now (some threat) → threat.sourceIp ≠ x

/-- An entry is that of an alert about an address that was received and
completed no threat, undisturbed since. -/
def Reported (n : ℕ) (x : Bytes) (e : Entry) : Prop := ∃ k < n, ∃ i alert now,
  run.eventAt k = .received i alert now none ∧ sourceIp alert = x ∧ e = entryOf alert now ∧
    Undisturbed run x k n

/-- What the engine remembers. -/
structure Remembers (n : ℕ) : Prop where
  /-- The settings of the coordinator's `main`. -/
  config : (run.engineAt n).windowSec = 120 ∧ (run.engineAt n).threshold = 2
  /-- An address has at most one entry. -/
  few : ∀ x, (bucket (run.engineAt n).index x).length ≤ 1
  /-- Each entry was reported. -/
  reported : ∀ x, ∀ e ∈ bucket (run.engineAt n).index x, Reported run n x e

variable {run}

theorem Reported.succ {n : ℕ} {x : Bytes} {e : Entry} (h : Reported run n x e)
    (hrestart : run.actions n ≠ .restart)
    (hthreat : ∀ i alert now threat, run.eventAt n = .received i alert now (some threat) →
      threat.sourceIp ≠ x) : Reported run (n + 1) x e := by
  obtain ⟨k, hk, i, alert, now, hreceived, hx, he, hsince⟩ := h
  refine ⟨k, Nat.lt_succ_of_lt hk, i, alert, now, hreceived, hx, he, fun j hkj hj => ?_⟩
  rcases Nat.lt_succ_iff_lt_or_eq.mp hj with hlt | rfl
  · exact hsince j hkj hlt
  · exact ⟨hrestart, hthreat⟩

/-- Every step keeps what the engine remembers. -/
theorem remembers_stateAt (n : ℕ) : Remembers run n := by
  induction n with
  | zero =>
    exact ⟨⟨rfl, rfl⟩, fun x => Nat.zero_le 1, fun x e he => absurd he List.not_mem_nil⟩
  | succ n ih =>
    rcases engine_cases run n with ⟨i, alert, now, hno, hevent, hengine⟩ |
      ⟨hevent, ⟨-, hengine⟩ | ⟨hno, hengine⟩⟩
    · obtain ⟨hwindow, hthreshold⟩ := ih.config
      obtain ⟨hconfig, hconfig'⟩ := ingest_config (run.engineAt n) alert now
      have hother : ∀ x, x ≠ sourceIp alert → ∀ threat,
          ((run.engineAt n).ingest alert now).2 = some threat → threat.sourceIp ≠ x := by
        intro x hx threat ht
        rw [ingest_snd] at ht
        split at ht
        · cases ht
        · cases ht
          exact fun h => hx h.symm
      have hthreat : ∀ x, x ≠ sourceIp alert → ∀ i' alert' now' threat,
          run.eventAt n = .received i' alert' now' (some threat) → threat.sourceIp ≠ x := by
        intro x hx i' alert' now' threat ht
        rw [hevent] at ht
        injection ht with _ _ _ ht
        exact hother x hx threat ht
      have hkeep : ∀ x, x ≠ sourceIp alert →
          bucket (run.engineAt (n + 1)).index x = bucket (run.engineAt n).index x := by
        intro x hx
        rw [hengine, bucket_ingest, if_neg hx]
      refine ⟨⟨by rw [hengine, hconfig, hwindow], by rw [hengine, hconfig', hthreshold]⟩,
        fun x => ?_, fun x e he => ?_⟩
      · by_cases hx : x = sourceIp alert
        · rw [hx, hengine]
          rcases ingest_pair now hthreshold (ih.few (sourceIp alert)) with
            ⟨_, -, -, -, -, hbucket⟩ | ⟨-, hlength, hbucket⟩
          · rw [hbucket]
            exact Nat.zero_le 1
          · rw [hbucket]
            exact hlength
        · rw [hkeep x hx]
          exact ih.few x
      · by_cases hx : x = sourceIp alert
        · subst hx
          rw [hengine] at he
          rcases ingest_pair now hthreshold (ih.few (sourceIp alert)) with
            ⟨_, -, -, -, -, hbucket⟩ | ⟨hquiet, -, hbucket⟩
          · rw [hbucket] at he
            cases he
          · rw [hquiet] at hevent
            rw [hbucket] at he
            rcases mem_enrollEntry he with hold | rfl
            · refine (ih.reported _ e hold).succ hno fun i' alert' now' threat ht => ?_
              rw [hevent] at ht
              injection ht with _ _ _ ht
              cases ht
            · exact ⟨n, Nat.lt_succ_self n, i, alert, now, hevent, rfl, rfl,
                fun j hnj hjn => absurd hjn (Nat.not_lt.mpr hnj)⟩
        · rw [hkeep x hx] at he
          exact (ih.reported x e he).succ hno (hthreat x hx)
    · refine ⟨by rw [hengine]; exact ⟨rfl, rfl⟩, fun x => by rw [hengine]; exact Nat.zero_le 1,
        fun x e he => ?_⟩
      rw [hengine] at he
      exact absurd he List.not_mem_nil
    · refine ⟨by rw [hengine]; exact ih.config, fun x => by rw [hengine]; exact ih.few x,
        fun x e he => ?_⟩
      rw [hengine] at he
      exact (ih.reported x e he).succ hno fun i alert now threat ht => absurd ht (hevent _ _ _ _)

end memory

section reports

variable {ι : Type*} [DecidableEq ι] (run : Run ι)

/-- A callback of a process gets an alert in a step. -/
def Raised (n : ℕ) (i : ι) (alert : AlertEvent) : Prop :=
  ∃ alerts, run.eventAt n = .raised i alerts ∧ alert ∈ alerts

/-- An alert of a process, raised in a step and received in a later one. -/
structure Report (ι : Type*) where
  /-- The process. -/
  process : ι
  /-- The alert as the process raised it. -/
  alert : AlertEvent
  /-- The step that raised it. -/
  raisedAt : ℕ
  /-- The step that received it. -/
  receivedAt : ℕ
  /-- The clock reading of that step. -/
  clock : ℤ

/-- A report took place in a run. -/
structure Report.Took (r : Report ι) : Prop where
  /-- The process raised the alert. -/
  raised : Raised run r.raisedAt r.process r.alert
  /-- The coordinator received it later. -/
  later : r.raisedAt < r.receivedAt
  /-- It received it as it arrives. -/
  received : ∃ threat,
    run.eventAt r.receivedAt = .received r.process (asReceived r.alert) r.clock threat

/-- Two reports are what a threat rests on. -/
structure Confirmed (n : ℕ) (threat : CorrelatedThreat) (first second : Report ι) : Prop where
  /-- Both took place, the second one last. -/
  took : first.Took run ∧ second.Took run ∧ first.receivedAt < n ∧ second.receivedAt = n
  /-- Both are about the address of the threat. -/
  address : sourceIp first.alert = threat.sourceIp ∧ sourceIp second.alert = threat.sourceIp
  /-- At most one is a privilege escalation, which carries no address. -/
  escalation : first.alert.ruleId ≠ Rule.privEsc.ruleId ∨
    second.alert.ruleId ≠ Rule.privEsc.ruleId
  /-- They come from two nodes, which the threat names. -/
  nodes : threat.confirmedByNodes =
      [(run.site first.process).nodeId, (run.site second.process).nodeId] ∧
    (run.site first.process).nodeId ≠ (run.site second.process).nodeId
  /-- The second one came within two minutes. -/
  recent : wholeSeconds (second.clock - first.clock) ≤ 120
  /-- In between there was no restart, and no other threat about the address. -/
  undisturbed : Undisturbed run threat.sourceIp first.receivedAt n

variable {run}

/-- A raised alert carries the id of its node. -/
theorem sourceHost_raised {n : ℕ} {i : ι} {alert : AlertEvent} (h : Raised run n i alert) :
    alert.sourceHost = (run.site i).nodeId := by
  obtain ⟨alerts, hevent, hmem⟩ := h
  obtain ⟨action, -, rfl⟩ := agent_of_raised hevent
  rcases mem_raises run.lib (run.site i) (run.agentAt n i) hmem with
    ⟨_, _, _, _, _, -, -, _, _, _, -, -, -, rfl⟩ | ⟨_, _, _, _, -, -, -, rfl⟩
  · rfl
  · rfl

/-- The rules of Suricata's alerts begin with its name. -/
theorem head_eveAlert (host : EveHost) (now : ℤ) (j signature : Json) (id : Bytes) :
    (eveAlert host now j signature id).ruleId.head? = some 115 := by
  dsimp only [eveAlert]
  split <;> rfl

/-- A privilege escalation is filed under its node. -/
theorem sourceIp_escalation {n : ℕ} {i : ι} {alert : AlertEvent} (h : Raised run n i alert)
    (hrule : alert.ruleId = Rule.privEsc.ruleId) : sourceIp alert = (run.site i).nodeId := by
  obtain ⟨alerts, hevent, hmem⟩ := h
  obtain ⟨action, -, rfl⟩ := agent_of_raised hevent
  rcases mem_raises run.lib (run.site i) (run.agentAt n i) hmem with
    ⟨_, _, _, rule, subject, -, -, ev, engine, drawn, -, -, -, rfl⟩ |
      ⟨now, bytes, made, counter, -, -, hconverted, rfl⟩
  · have hsame : rule = .privEsc := by
      refine ruleId_injective (hrule.symm.trans ?_).symm
      cases rule <;> rfl
    subst hsame
    simp [sourceIp, stampAlert, draft, DetectionRules.PrivEscRule.alert, text]
  · obtain ⟨j, signature, -, -, rfl⟩ := parseEveLine_converted hconverted
    have hhead := head_eveAlert ((run.site i).eveHost run.lib) now j signature
      (nextId (run.agentAt n i).globals.counter).1
    have hname : (eveAlert ((run.site i).eveHost run.lib) now j signature
      (nextId (run.agentAt n i).globals.counter).1).ruleId = Rule.privEsc.ruleId := hrule
    rw [hname] at hhead
    exact absurd hhead (by decide)

/-- What the coordinator receives from a process was raised by it before. -/
theorem raised_of_received (hlib : Sane run.lib) (hclock : run.Clocked) {k : ℕ} {i : ι}
    {received : AlertEvent} {now : ℤ} {threat : Option CorrelatedThreat}
    (h : run.eventAt k = .received i received now threat) :
    ∃ m < k, ∃ alert, Raised run m i alert ∧ received = asReceived alert := by
  have hmem : received ∈ run.receivedBefore (k + 1) i := by
    refine List.mem_flatMap.mpr ⟨k, List.mem_range.mpr (Nat.lt_succ_self k), ?_⟩
    rw [h, Event.receivedFrom, if_pos rfl]
    exact List.mem_singleton_self received
  have hraised := (received_sublist hlib hclock (k + 1) i).subset hmem
  obtain ⟨alert, halert, rfl⟩ := List.mem_map.mp hraised
  obtain ⟨m, hm, hevent⟩ := List.mem_flatMap.mp halert
  have hlt : m < k + 1 := List.mem_range.mp hm
  cases he : run.eventAt m with
  | quiet =>
    rw [he] at hevent
    cases hevent
  | received j b t th =>
    rw [he] at hevent
    cases hevent
  | raised j alerts =>
    rw [he] at hevent
    simp only [Event.raisedBy] at hevent
    split at hevent
    · next hij =>
      have hne : m ≠ k := by
        rintro rfl
        rw [h] at he
        cases he
      exact ⟨m, by omega, alert, ⟨alerts, hij ▸ he, hevent⟩, rfl⟩
    · cases hevent

/-- Every threat rests on two alerts about its address, which two processes of
different nodes raised before the coordinator received them, the second one
within two minutes of the first and undisturbed, and not both of them
privilege escalations. -/
theorem confirmed_of_received (hlib : Sane run.lib) (hclock : run.Clocked) {n : ℕ} {j : ι}
    {received : AlertEvent} {now : ℤ} {threat : CorrelatedThreat}
    (h : run.eventAt n = .received j received now (some threat)) :
    ∃ first second, Confirmed run n threat first second := by
  have hremembers : Remembers run n := remembers_stateAt n
  obtain ⟨hwindow, hthreshold⟩ := hremembers.config
  rcases engine_cases run n with ⟨j', alert, now', -, hevent, -⟩ | ⟨hevent, -⟩
  · obtain ⟨rfl, rfl, rfl, hthreat⟩ : j = j' ∧ received = alert ∧ now = now' ∧
        some threat = ((run.engineAt n).ingest alert now').2 := by
      rw [h] at hevent
      injection hevent with h1 h2 h3 h4
      exact ⟨h1, h2, h3, h4⟩
    rcases ingest_pair now hthreshold (hremembers.few (sourceIp received)) with
      ⟨e, hbucket, hfresh, hnode, hsome, -⟩ | ⟨hnone, -⟩
    · rw [hsome] at hthreat
      cases hthreat
      obtain ⟨k, hk, i, earlier, time, hreceived, haddress, rfl, hsince⟩ :=
        hremembers.reported (sourceIp received) e (by rw [hbucket]; exact List.mem_singleton_self e)
      obtain ⟨m, hm, a, ha, rfl⟩ := raised_of_received hlib hclock hreceived
      obtain ⟨m', hm', b, hb, rfl⟩ := raised_of_received hlib hclock h
      have hhosts : (run.site i).nodeId ≠ (run.site j).nodeId := by
        rw [← sourceHost_raised ha, ← sourceHost_raised hb]
        exact hnode
      refine ⟨⟨i, a, m, k, time⟩, ⟨j, b, m', n, now⟩, ?_, ⟨haddress, rfl⟩, ?_, ⟨?_, hhosts⟩, ?_,
        hsince⟩
      · exact ⟨⟨ha, hm, none, hreceived⟩, ⟨hb, hm', _, h⟩, hk, rfl⟩
      · refine not_and_or.mp fun ⟨hfirst, hsecond⟩ => hhosts ?_
        rw [← sourceIp_escalation ha hfirst, ← sourceIp_escalation hb hsecond]
        exact haddress
      · rw [← sourceHost_raised ha, ← sourceHost_raised hb]
        rfl
      · rw [hwindow] at hfresh
        exact (inWindow_iff _ _ _).mp hfresh
    · rw [hnone] at hthreat
      cases hthreat
  · exact absurd h (hevent _ _ _ _)

end reports

section tables

variable {ι : Type*} [DecidableEq ι] (run : Run ι)

/-- Database and lists before a step. -/
def storeAt (n : ℕ) : AlertStore := (run.stateAt n).coordinator.coordinator.store

/-- The row that a step writes into the table of alerts. -/
def alertLog (n : ℕ) : Option AlertRow :=
  (run.eventAt n).arrival?.map fun alert => (alertContents alert).bind

/-- The row that a step writes into the table of threats. -/
def threatLog (n : ℕ) : Option ThreatRow :=
  (run.eventAt n).completed?.map fun threat => (threatContents threat).bind

/-- A receive writes its alert, and the threat if it completes one. -/
theorem receive_tables (c : AlertDatabase.Coordinator) (alert : AlertEvent) (now : ℤ) :
    (c.receive alert now).1.store.alerts =
        insertOrIgnore AlertRow.id (alertContents alert).bind c.store.alerts ∧
      (c.receive alert now).1.store.threats = ((c.receive alert now).2.map fun threat =>
        (threatContents threat).bind).elim c.store.threats fun row =>
          insertOrIgnore ThreatRow.id row c.store.threats := by
  unfold AlertDatabase.Coordinator.receive
  cases h : (c.engine.ingest alert now).2 with
  | none => constructor <;> simp [h, AlertStore.saveAlert]
  | some threat => constructor <;> simp [h, AlertStore.saveAlert, AlertStore.saveThreat]

/-- Both tables take in what the steps write, whatever restarts there are. -/
theorem tables_filed : Filed AlertRow.id (alertLog run) (fun n => (storeAt run n).alerts) ∧
    Filed ThreatRow.id (threatLog run) fun n => (storeAt run n).threats := by
  have hstep : ∀ n,
      (storeAt run (n + 1)).alerts = (alertLog run n).elim (storeAt run n).alerts (fun row =>
          insertOrIgnore AlertRow.id row (storeAt run n).alerts) ∧
        (storeAt run (n + 1)).threats = (threatLog run n).elim (storeAt run n).threats fun row =>
          insertOrIgnore ThreatRow.id row (storeAt run n).threats := by
    intro n
    have hstore : storeAt run (n + 1) =
        ((run.stateAt n).step run.toDeployed (run.actions n)).1.coordinator.coordinator.store := rfl
    have hevent : run.eventAt n = ((run.stateAt n).step run.toDeployed (run.actions n)).2 := rfl
    rw [alertLog, threatLog, hevent, hstore]
    rcases coordinator_step run.toDeployed (run.stateAt n) (run.actions n) with
      ⟨i, raw, alert, nowSec, now, -, hreceived, -, hcoordinator⟩ | ⟨hnone, hmoves⟩
    · rw [hreceived, hcoordinator]
      exact receive_tables (run.stateAt n).coordinator.coordinator alert now
    · rw [hnone, Event.completed_of_quiet hnone]
      rcases hmoves with ⟨-, hcoordinator⟩ | ⟨-, hsame, -⟩
      · rw [hcoordinator]
        exact ⟨rfl, rfl⟩
      · rw [hsame]
        exact ⟨rfl, rfl⟩
  exact ⟨⟨rfl, fun n => (hstep n).1⟩, ⟨rfl, fun n => (hstep n).2⟩⟩

/-- What the database holds. -/
structure Genuine (n : ℕ) : Prop where
  /-- A row of the table of alerts is an alert that a process raised and the
  coordinator received, the first one under its id. -/
  alerts : ∀ row, row ∈ (storeAt run n).alerts ↔ ∃ r : Report ι, r.Took run ∧ r.receivedAt < n ∧
    row = (alertContents (asReceived r.alert)).bind ∧
      Unused AlertRow.id (alertLog run) r.receivedAt row.id
  /-- A row of the table of threats is a threat that rests on two reports, the
  first one under its id. -/
  threats : ∀ row, row ∈ (storeAt run n).threats ↔ ∃ k < n, ∃ threat first second,
    (run.eventAt k).completed? = some threat ∧ Confirmed run k threat first second ∧
      row = (threatContents threat).bind ∧ Unused ThreatRow.id (threatLog run) k row.id
  /-- No id is there twice. -/
  once : ((storeAt run n).alerts.map AlertRow.id).Nodup ∧
    ((storeAt run n).threats.map ThreatRow.id).Nodup

/-- The tables of the database hold what processes raised and what two of them
confirmed, through all restarts of the coordinator. -/
theorem tables_genuine (run : Run ι) (hlib : Sane run.lib) (hclock : run.Clocked) (n : ℕ) :
    Genuine run n := by
  obtain ⟨halerts, hthreats⟩ := tables_filed run
  refine ⟨fun row => (halerts.mem_iff (n := n)).trans ?_,
    fun row => (hthreats.mem_iff (n := n)).trans ?_, halerts.nodup n, hthreats.nodup n⟩
  · constructor
    · rintro ⟨k, hk, hlog, hunused⟩
      obtain ⟨alert, harrival, rfl⟩ := Option.map_eq_some_iff.mp hlog
      obtain ⟨i, now, threat, hreceived⟩ := Event.received_of_arrival harrival
      obtain ⟨m, hm, made, hmade, rfl⟩ := raised_of_received hlib hclock hreceived
      exact ⟨⟨i, made, m, k, now⟩, ⟨hmade, hm, threat, hreceived⟩, hk, rfl, hunused⟩
    · rintro ⟨r, htook, hr, rfl, hunused⟩
      obtain ⟨threat, hreceived⟩ := htook.received
      refine ⟨r.receivedAt, hr, ?_, hunused⟩
      rw [alertLog, hreceived]
      rfl
  · constructor
    · rintro ⟨k, hk, hlog, hunused⟩
      obtain ⟨threat, hcompleted, rfl⟩ := Option.map_eq_some_iff.mp hlog
      obtain ⟨i, alert, now, hreceived⟩ := Event.received_of_completed hcompleted
      obtain ⟨first, second, hconfirmed⟩ := confirmed_of_received hlib hclock hreceived
      exact ⟨k, hk, threat, first, second, hcompleted, hconfirmed, rfl, hunused⟩
    · rintro ⟨k, hk, threat, first, second, hcompleted, -, rfl, hunused⟩
      exact ⟨k, hk, by rw [threatLog, hcompleted]; rfl, hunused⟩

end tables

section completeness

variable {ι : Type*} [DecidableEq ι] {run : Run ι}

/-- Neither a restart nor an alert about an address. -/
def Quiet (run : Run ι) (x : Bytes) (m : ℕ) : Prop := run.actions m ≠ .restart ∧
  ∀ i alert now threat, run.eventAt m = .received i alert now threat → sourceIp alert ≠ x

/-- What is kept under an address stays in quiet steps. -/
theorem bucket_quiet {x : Bytes} {k n : ℕ} (hkn : k ≤ n)
    (h : ∀ m, k ≤ m → m < n → Quiet run x m) :
    bucket (run.engineAt n).index x = bucket (run.engineAt k).index x := by
  induction n, hkn using Nat.le_induction with
  | base => rfl
  | succ n hkn ih =>
    obtain ⟨hno, hother⟩ := h n hkn (Nat.lt_succ_self n)
    rw [← ih fun m hm hmn => h m hm (Nat.lt_succ_of_lt hmn)]
    rcases engine_cases run n with ⟨i, alert, now, -, hevent, hengine⟩ |
      ⟨-, ⟨hrestart, -⟩ | ⟨-, hengine⟩⟩
    · rw [hengine, bucket_ingest, if_neg (Ne.symm (hother _ _ _ _ hevent))]
    · exact absurd hrestart hno
    · rw [hengine]

/-- The first alert about an address in two minutes finds only entries that are
too old, and leaves its own. -/
theorem entry_left {k : ℕ} {i : ι} {a : AlertEvent} {t : ℤ} {early : Option CorrelatedThreat}
    (hk : run.eventAt k = .received i a t early)
    (hfirst : ∀ m < k, ∀ i' c u threat, run.eventAt m = .received i' c u threat →
      sourceIp c = sourceIp a → 120 < wholeSeconds (t - u)) :
    early = none ∧ bucket (run.engineAt (k + 1)).index (sourceIp a) = [entryOf a t] := by
  have hremembers : Remembers run k := remembers_stateAt k
  obtain ⟨hwindow, hthreshold⟩ := hremembers.config
  have hold : (bucket (run.engineAt k).index (sourceIp a)).filter
      (fun e => inWindow 120 t e.timestamp) = [] := by
    refine List.filter_eq_nil_iff.mpr fun e he => ?_
    obtain ⟨m, hm, i', c, u, hreceived, hc, rfl, -⟩ := hremembers.reported _ e he
    have hlong := hfirst m hm i' c u none hreceived hc
    exact fun hfresh => absurd ((inWindow_iff _ _ _).mp hfresh) (not_le.mpr hlong)
  have hentries : ingestEntries (run.engineAt k) a t = [entryOf a t] := by
    rw [ingestEntries, hwindow, enrollEntry, hold]
    rfl
  rcases engine_cases run k with ⟨i', a', t', -, hevent, hengine⟩ | ⟨hevent, -⟩
  · rw [hk] at hevent
    injection hevent with h1 h2 h3 h4
    subst h2 h3
    have hone : (([entryOf a t] : List Entry).length : ℤ) < 2 := by simp
    rw [ingest_snd, hentries, hthreshold, if_pos hone] at h4
    rw [hengine, bucket_ingest, if_pos rfl, hentries, hthreshold, if_pos hone]
    exact ⟨h4, rfl⟩
  · exact absurd hk (hevent _ _ _ _)

/-- An alert that finds an entry completes a threat exactly if it comes from
another node within two minutes. -/
theorem completes_iff {n : ℕ} {j : ι} {b : AlertEvent} {t : ℤ} {late : Option CorrelatedThreat}
    {e : Entry} (hn : run.eventAt n = .received j b t late)
    (hbucket : bucket (run.engineAt n).index (sourceIp b) = [e]) :
    late.isSome ↔ e.nodeId ≠ b.sourceHost ∧ wholeSeconds (t - e.timestamp) ≤ 120 := by
  have hremembers : Remembers run n := remembers_stateAt n
  obtain ⟨hwindow, hthreshold⟩ := hremembers.config
  rw [← inWindow_iff]
  rcases engine_cases run n with ⟨j', b', t', -, hevent, -⟩ | ⟨hevent, -⟩
  · rw [hn] at hevent
    injection hevent with h1 h2 h3 h4
    subst h2 h3
    rcases ingest_pair t hthreshold (hremembers.few (sourceIp b)) with
      ⟨e', hsame, hfresh, hnode, hsome, -⟩ | ⟨hnone, hfew, -⟩
    · rw [hbucket] at hsame
      cases hsame
      rw [hwindow] at hfresh
      rw [h4, hsome]
      exact iff_of_true rfl ⟨hnode, hfresh⟩
    · rw [h4, hnone]
      refine iff_of_false (by simp) fun ⟨hnode, hfresh⟩ => ?_
      rw [ingestEntries, hwindow, hbucket, enrollEntry] at hfew
      simp [hfresh, hnode] at hfew
  · exact absurd hn (hevent _ _ _ _)

/-- After the first alert about an address in two minutes, the next one about
it completes a threat exactly if it comes from another node within two
minutes, unless a restart comes in between. -/
theorem second_report_completes (run : Run ι) {k n : ℕ} {i j : ι} {a b : AlertEvent} {t t' : ℤ}
    {early late : Option CorrelatedThreat} (hkn : k < n)
    (hk : run.eventAt k = .received i a t early) (hn : run.eventAt n = .received j b t' late)
    (haddress : sourceIp b = sourceIp a)
    (hfirst : ∀ m < k, ∀ i' c u threat, run.eventAt m = .received i' c u threat →
      sourceIp c = sourceIp a → 120 < wholeSeconds (t - u))
    (hquiet : ∀ m, k < m → m < n → Quiet run (sourceIp a) m) :
    early = none ∧
      (late.isSome ↔ a.sourceHost ≠ b.sourceHost ∧ wholeSeconds (t' - t) ≤ 120) := by
  obtain ⟨hearly, hleft⟩ := entry_left hk hfirst
  refine ⟨hearly, completes_iff (e := entryOf a t) hn ?_⟩
  rw [haddress, bucket_quiet (Nat.succ_le_of_lt hkn) fun m hm hmn => hquiet m hm hmn]
  exact hleft

end completeness

section twoNodes

/-- A new process that watches Suricata takes its first alert. -/
theorem takes_eveLine (lib : JsonLibrary) (site : Site) (hids : site.ids = .suricata) {now : ℤ}
    {bytes : Bytes} {made : AlertEvent} {counter : UInt64}
    (hline : parseEveLine (site.eveHost lib) now (AgentProcess.init site).globals.counter bytes =
      (.converted made, counter)) : (AgentProcess.init site).step lib site (.eveLine now bytes) =
      (AgentProcess.init site).begin site
        { (AgentProcess.init site).globals with counter := counter } [made] := by
  have hup : (AgentProcess.init site).crashed = false := rfl
  have hready : (AgentProcess.init site).ids = some .suricata ∧
      (AgentProcess.init site).pending = [] := ⟨congrArg some hids, rfl⟩
  simp only [AgentProcess.step, AgentProcess.takeEveLine, hup, hready, hline, and_self, if_true,
    Bool.false_eq_true, if_false]

/-- The first alert of a new process that watches Suricata, on its way out. -/
theorem first_eve_alert (lib : JsonLibrary) (site : Site) (hids : site.ids = .suricata) {now : ℤ}
    {bytes json : Bytes} {made : AlertEvent} {counter : UInt64}
    (hline : parseEveLine (site.eveHost lib) now (AgentProcess.init site).globals.counter bytes =
      (.converted made, counter))
    (hjson : serialize lib.dump (stampAlert site.nodeId made) = some json) :
    let p₁ := (AgentProcess.init site).step lib site (.eveLine now bytes)
    let p₂ := p₁.step lib site .publish
    let p₃ := p₂.step lib site (.send true)
    (AgentProcess.init site).handsOver (.eveLine now bytes) = none ∧ p₁.handsOver .publish = none ∧
      (p₂.crashed = false ∧ p₂.globals.publisher = true ∧ p₂.publisher.accepted = [json]) ∧
      p₂.handsOver (.send true) = none ∧ p₃.handsOver (.send true) = some json := by
  rw [takes_eveLine lib site hids hline]
  simp [AgentProcess.step, AgentProcess.publishNext, AgentProcess.begin, AgentProcess.init,
    AgentProcess.handsOver, AgentPipeline.AgentState.init, AlertPublishing.AlertPublisher.publish,
    AlertPublishing.AlertPublisher.sendLoop, startedPublisher, AlertPublishing.AlertPublisher.init,
    AlertPublishing.queueCapacity, hjson]

/-- An event about the address `10.0.0.7`. -/
def eveJson : Json :=
  .obj [(text "alert", .obj [(text "severity", .int 1)]), (text "event_type", .str (text "alert")),
    (text "src_ip", .str (text "10.0.0.7"))]

/-- Its line. -/
def eveText : Bytes := compact decimal eveJson

/-- Two nodes. -/
def watcher (i : Bool) : Site where
  nodeId := if i then text "node-2" else text "node-1"
  cfg := {}
  ids := .suricata
  utcSeconds := fun _ => none

/-- The alert that a node makes of the line. -/
def eveAlertOf (i : Bool) : AlertEvent :=
  eveAlert ((watcher i).eveHost standardLibrary) 0 eveJson (.obj [(text "severity", .int 1)])
    (nextId firstId).1

/-- Both see the address, and their alerts arrive one second apart. -/
def twoNodes : Run Bool where
  lib := standardLibrary
  site := watcher
  actions := fun n =>
    match n with
    | 0 => .agent false (.eveLine 0 eveText)
    | 1 => .agent false .publish
    | 2 => .agent false (.send true)
    | 3 => .agent false (.send true)
    | 4 => .agent true (.eveLine 0 eveText)
    | 5 => .agent true .publish
    | 6 => .agent true (.send true)
    | 7 => .agent true (.send true)
    | 8 => .deliver false 0 0
    | 9 => .deliver true 1 1000000000
    | _ => .check 2

theorem clocked_twoNodes : twoNodes.Clocked := by
  intro n
  dsimp only [twoNodes]
  split <;> simp [DistributedRuns.Action.Clocked, AgentProcesses.Action.Clocked, IsInt64]

theorem readJson_eveText : readJson eveText = some eveJson := by
  refine readJson_compact ?_ (by decide +kernel)
  refine ⟨by decide, ⟨by decide, trivial, trivial⟩, trivial, trivial, trivial⟩

theorem parse_eveText (i : Bool) : parseEveLine ((watcher i).eveHost standardLibrary) 0
    (AgentProcess.init (watcher i)).globals.counter eveText =
      (.converted (eveAlertOf i), (nextId firstId).2) := by
  have hparse : ((watcher i).eveHost standardLibrary).parse eveText = some eveJson :=
    readJson_eveText
  unfold parseEveLine
  rw [hparse]
  rfl

theorem alertUtf8_eveAlertOf (i : Bool) :
    AlertUtf8 (stampAlert (watcher i).nodeId (eveAlertOf i)) := by
  have hmeta : (eveAlertOf i).metadata =
      assign (assign ∅ (text "src_ip") (text "10.0.0.7")) (text "ids_source") (text "suricata") := by
    cases i <;> rfl
  have hid : ∀ j : Bool, IsUtf8 (stampAlert (watcher j).nodeId (eveAlertOf j)).alertId ∧
      IsUtf8 (watcher j).nodeId := by
    decide +kernel
  have hrule : (eveAlertOf i).ruleId = text "suricata-unknown" ∧ (eveAlertOf i).description = [] := by
    cases i <;> exact ⟨rfl, rfl⟩
  refine ⟨(hid i).1, (hid i).2, ?_, ?_, fun id hlog => absurd hlog List.not_mem_nil, ?_⟩
  · exact hrule.1 ▸ isUtf8_text _ (by decide)
  · exact hrule.2 ▸ isUtf8_nil
  · have hmap := (PublishedTexts.mapUtf8_empty.assign "src_ip" (by decide)
      (isUtf8_text "10.0.0.7" (by decide))).assign "ids_source" (by decide)
      (isUtf8_text "suricata" (by decide))
    exact hmeta ▸ hmap

theorem serialize_eveAlertOf (i : Bool) :
    serialize standardLibrary.dump (stampAlert (watcher i).nodeId (eveAlertOf i)) =
      some (compact decimal (alertJson (stampAlert (watcher i).nodeId (eveAlertOf i)))) :=
  if_pos ((allUtf8_alertJson _).mpr (alertUtf8_eveAlertOf i))

theorem sendable_eveAlertOf (i : Bool) :
    Sendable (stampAlert (watcher i).nodeId (eveAlertOf i)) := by
  refine ⟨wellFormed_eveScore _, ?_⟩
  cases i <;> exact ⟨by decide, by decide⟩

/-- A new process that takes the line sends its alert. -/
theorem sends_alert {n : ℕ} {i : Bool} (h₀ : twoNodes.actions n = .agent i (.eveLine 0 eveText))
    (h₁ : twoNodes.actions (n + 1) = .agent i .publish)
    (h₂ : twoNodes.actions (n + 2) = .agent i (.send true))
    (h₃ : twoNodes.actions (n + 3) = .agent i (.send true))
    (hagent : twoNodes.agentAt n i = .init (watcher i)) (hwire : twoNodes.wireAt n i = .empty) :
    (twoNodes.wireAt (n + 4) i).inFlight =
        [compact decimal (alertJson (stampAlert (watcher i).nodeId (eveAlertOf i)))] ∧
      ∀ j ≠ i, twoNodes.agentAt (n + 4) j = twoNodes.agentAt n j ∧
        twoNodes.wireAt (n + 4) j = twoNodes.wireAt n j := by
  obtain ⟨a₀, w₀⟩ := agent_succ h₀
  obtain ⟨a₁, w₁⟩ := agent_succ h₁
  obtain ⟨a₂, w₂⟩ := agent_succ h₂
  obtain ⟨a₃, w₃⟩ := agent_succ h₃
  obtain ⟨s₀, s₁, -, s₂, s₃⟩ := first_eve_alert standardLibrary (watcher i) rfl (parse_eveText i)
    (serialize_eveAlertOf i)
  have hlib : twoNodes.lib = standardLibrary := rfl
  have hsite : twoNodes.site i = watcher i := rfl
  rw [hlib, hsite] at a₀ a₁ a₂ a₃
  constructor
  · rw [w₃, w₂, w₁, w₀, a₂, a₁, a₀]
    simp only [Function.update_self, hagent, hwire, s₀, s₁, s₂, s₃]
    rfl
  · intro j hj
    rw [a₃, w₃, a₂, w₂, a₁, w₁, a₀, w₀]
    simp only [Function.update_of_ne hj, and_self]

theorem inFlight_twoNodes (i : Bool) : (twoNodes.wireAt 8 i).inFlight =
    [compact decimal (alertJson (stampAlert (watcher i).nodeId (eveAlertOf i)))] := by
  have hagents : ∀ j, twoNodes.agentAt 0 j = .init (watcher j) := fun _ => rfl
  have hwires : ∀ j, twoNodes.wireAt 0 j = .empty := fun _ => rfl
  have hfirst := sends_alert (n := 0) (i := false) rfl rfl rfl rfl (hagents false) (hwires false)
  rw [Nat.zero_add] at hfirst
  obtain ⟨hfalse, hother⟩ := hfirst
  obtain ⟨hagent, hwire⟩ := hother true (by decide)
  rw [hagents true] at hagent
  rw [hwires true] at hwire
  have hsecond := sends_alert (n := 4) (i := true) rfl rfl rfl rfl hagent hwire
  obtain ⟨htrue, hkept⟩ := hsecond
  cases i with
  | false =>
    have hsame := (hkept false (by decide)).2
    rw [hsame]
    exact hfalse
  | true => exact htrue

/-- The alert that a node sends, as it is read. -/
def arrival (i : Bool) : AlertEvent := asReceived (stampAlert (watcher i).nodeId (eveAlertOf i))

theorem sourceIp_arrival (i : Bool) : sourceIp (arrival i) = text "10.0.0.7" := by
  cases i <;> rfl

theorem received_twoNodes :
    (∃ early, twoNodes.eventAt 8 = .received false (arrival false) 0 early) ∧
      ∃ late, twoNodes.eventAt 9 = .received true (arrival true) (seconds 1) late := by
  have hraw : ∀ i, deserialize twoNodes.lib.parse
      (compact decimal (alertJson (stampAlert (watcher i).nodeId (eveAlertOf i)))) =
        some (arrival i) := fun i =>
    sane_standardLibrary.deserialize (sendable_eveAlertOf i) (serialize_eveAlertOf i)
  obtain ⟨hearly, hkept⟩ := received_of_deliver (n := 8) rfl (inFlight_twoNodes false) (hraw false)
  have hwire : (twoNodes.wireAt 9 true).inFlight =
      [compact decimal (alertJson (stampAlert (watcher true).nodeId (eveAlertOf true)))] := by
    rw [hkept true (by decide)]
    exact inFlight_twoNodes true
  exact ⟨hearly, (received_of_deliver (n := 9) rfl hwire (hraw true)).1⟩

theorem nothing_before {m : ℕ} (hm : m < 8) (i : Bool) (alert : AlertEvent) (now : ℤ)
    (threat : Option CorrelatedThreat) : twoNodes.eventAt m ≠ .received i alert now threat := by
  intro h
  obtain ⟨nowSec, hact⟩ := deliver_of_received h
  interval_cases m <;> cases hact

/-- What the first node raised arrives, and nothing else does from there. -/
theorem received_in_order_twoNodes : arrival false ∈ twoNodes.receivedBefore 10 false ∧
    (twoNodes.receivedBefore 10 false).Sublist
      ((twoNodes.raisedBefore 10 false).map asReceived) := by
  obtain ⟨⟨early, hearly⟩, -⟩ := received_twoNodes
  refine ⟨List.mem_flatMap.mpr ⟨8, List.mem_range.mpr (by decide), ?_⟩,
    (received_in_order twoNodes sane_standardLibrary clocked_twoNodes 10 false).1⟩
  rw [hearly]
  exact List.mem_singleton_self _

/-- The second alert completes a threat. -/
theorem completed_twoNodes : ∃ threat,
    twoNodes.eventAt 9 = .received true (arrival true) (seconds 1) (some threat) := by
  obtain ⟨⟨early, hearly⟩, late, hlate⟩ := received_twoNodes
  obtain ⟨-, hleft⟩ := entry_left hearly
    fun m hm i c u threat hreceived => absurd hreceived (nothing_before hm i c u threat)
  have hnodes : (watcher false).nodeId ≠ (watcher true).nodeId := by decide
  rw [sourceIp_arrival, ← sourceIp_arrival true] at hleft
  have hsome := (completes_iff hlate hleft).mpr ⟨hnodes, by decide⟩
  obtain ⟨threat, rfl⟩ := Option.isSome_iff_exists.mp hsome
  exact ⟨threat, hlate⟩

/-- The threat is in the database, and rests on the two alerts. -/
theorem tables_genuine_twoNodes :
    Genuine twoNodes 10 ∧ ∃ row, row ∈ (storeAt twoNodes 10).threats := by
  obtain ⟨threat, hreceived⟩ := completed_twoNodes
  have hlog : threatLog twoNodes 9 = some (threatContents threat).bind := by
    rw [threatLog, hreceived]
    rfl
  have hkey := ((tables_filed twoNodes).2.key_mem_iff 10).mpr ⟨9, by decide, _, hlog, rfl⟩
  obtain ⟨row, hrow, -⟩ := List.mem_map.mp hkey
  exact ⟨tables_genuine twoNodes sane_standardLibrary clocked_twoNodes 10, row, hrow⟩

theorem second_report_completes_twoNodes : ∃ late,
    twoNodes.eventAt 9 = .received true (arrival true) (seconds 1) late ∧ late.isSome := by
  obtain ⟨⟨early, hearly⟩, late, hlate⟩ := received_twoNodes
  obtain ⟨-, hiff⟩ := second_report_completes twoNodes (by decide) hearly hlate
    ((sourceIp_arrival true).trans (sourceIp_arrival false).symm)
    (fun m hm i c u threat hreceived => absurd hreceived (nothing_before hm i c u threat))
    (fun m h8 h9 => absurd h9 (Nat.not_lt.mpr h8))
  have hnodes : (watcher false).nodeId ≠ (watcher true).nodeId := by decide
  exact ⟨late, hlate, hiff.mpr ⟨hnodes, by decide⟩⟩

end twoNodes

end Dlads.ThreatProvenance
