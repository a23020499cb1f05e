import Dlads.AlertDatabase

/-!
# The database across restarts

Agents number their alerts and the coordinator numbers its threats from one in
every process, while the tables outlive the processes. A run interleaves
published alerts, lost messages, receives and restarts of either side. Until
a receive repeats a number, or stores a text that holds a NUL, the tables are
exactly what was handed to them; the first such receive loses a row for good.
-/

namespace Dlads.DatabaseRestarts

open ByteText StringMaps Records StepMachine DetectionRules AgentPipeline Correlation KeyedTable
open AlertDatabase

/-- A published alert on its way to the coordinator. -/
structure Message where
  /-- The agent. -/
  node : Bytes
  /-- Value that `next_id` drew for it. -/
  serial : UInt64
  /-- The alert as the rule made it, but for its id. -/
  body : AlertEvent

/-- The alert that the receiver rebuilds. -/
def Message.alert (m : Message) : AlertEvent :=
  overWire (stampAlert m.node { m.body with alertId := (nextId m.serial).1 })

/-- Agents, network and coordinator. -/
structure Deployment where
  /-- Counter of `next_id` in the running process of each agent. -/
  counters : Bytes → UInt64
  /-- Published alerts not yet received. -/
  inFlight : List Message
  /-- The coordinator's process and its database. -/
  coordinator : Coordinator
  /-- What was handed to `save_alert`, in order. -/
  savedAlerts : List Message
  /-- What was handed to `save_threat`, in order, with the number of each. -/
  savedThreats : List (ℤ × CorrelatedThreat)

/-- New processes on a new database. -/
def Deployment.init : Deployment where
  counters := fun _ => firstId
  inFlight := []
  coordinator := .start .init
  savedAlerts := []
  savedThreats := []

/-- What can happen next. -/
inductive Action
  /-- The process of an agent is replaced by a new one. -/
  | restartAgent (node : Bytes)
  /-- An agent draws some ids for alerts that it withholds, then publishes one. -/
  | publish (node : Bytes) (withheld : ℕ) (body : AlertEvent)
  /-- A published alert never arrives. -/
  | lose (i : ℕ)
  /-- The coordinator receives a published alert at a clock reading. -/
  | receive (i : ℕ) (now : ℤ)
  /-- The coordinator's process is replaced by a new one on the same database. -/
  | restartCoordinator

/-- An agent publishes an alert under the number it draws. -/
def Deployment.publish (s : Deployment) (node : Bytes) (withheld : ℕ) (body : AlertEvent) :
    Deployment :=
  let serial := s.counters node + UInt64.ofNat withheld
  { s with
    counters := Function.update s.counters node (nextId serial).2
    inFlight := s.inFlight ++ [⟨node, serial, body⟩] }

/-- The coordinator receives an alert. -/
def Deployment.receive (s : Deployment) (m : Message) (now : ℤ) : Deployment :=
  let received := s.coordinator.receive m.alert now
  { s with
    coordinator := received.1
    savedAlerts := s.savedAlerts ++ [m]
    savedThreats := s.savedThreats ++
      received.2.toList.map fun threat => (s.coordinator.engine.threatCounter, threat) }

/-- A deployment takes one action after another. -/
def deployment : Machine Deployment Action Unit where
  step := fun s action =>
    match action with
    | .restartAgent node => ({ s with counters := Function.update s.counters node firstId }, ())
    | .publish node withheld body => (s.publish node withheld body, ())
    | .lose i => ({ s with inFlight := s.inFlight.eraseIdx i }, ())
    | .receive i now =>
      match s.inFlight[i]? with
      | none => (s, ())
      | some m => ({ s with inFlight := s.inFlight.eraseIdx i }.receive m now, ())
    | .restartCoordinator => ({ s with coordinator := .start s.coordinator.store.reopen }, ())

/-- The deployment before an action of a run. -/
def stateAt (actions : ℕ → Action) (n : ℕ) : Deployment := deployment.stateAt .init actions n

/-- Each saved alert and each saved threat has a row of its own with its
contents. -/
def NothingLost (s : Deployment) : Prop :=
  Keeps (s.savedAlerts.map fun m => alertContents m.alert) s.coordinator.store.alerts ∧
    Keeps (s.savedThreats.map fun t => threatContents t.2) s.coordinator.store.threats

/-- A receive completes a threat. -/
def Completes (s : Deployment) (m : Message) (now : ℤ) : Prop :=
  s.coordinator.engine.threshold ≤ (ingestEntries s.coordinator.engine m.alert now).length

/-- A receive repeats no number and stores no NUL. -/
structure Storable (s : Deployment) (m : Message) (now : ℤ) : Prop where
  /-- No alert with the number was saved for the agent. -/
  freshSerial : ∀ k ∈ s.savedAlerts, ¬(k.node = m.node ∧ k.serial = m.serial)
  /-- The texts of the alert hold no NUL. -/
  noNul : (alertContents m.alert).NoNul
  /-- No threat with the number was saved. -/
  freshNumber : Completes s m now →
    ∀ t ∈ s.savedThreats, t.1 ≠ s.coordinator.engine.threatCounter
  /-- The address of the threat holds no NUL. -/
  noNulIp : Completes s m now → 0 ∉ sourceIp m.alert

/-- An action is not a receive that repeats a number or stores a NUL. -/
def Conforms (s : Deployment) : Action → Prop
  | .receive i now => ∀ m, s.inFlight[i]? = some m → Storable s m now
  | _ => True

section identifiers

/-- The id of a received alert ends in its number, after a hyphen. -/
theorem alertId_eq (m : Message) :
    m.alert.alertId = (m.node ++ text "-alert") ++ 45 :: decNat m.serial.toNat := by
  have hid : m.alert.alertId = m.node ++ text "-" ++ (text "alert-" ++ decNat m.serial.toNat) := rfl
  have htext : text "-" ++ text "alert-" = text "-alert" ++ [45] := by decide
  rw [hid, List.append_assoc, ← List.append_assoc (text "-"), htext]
  simp only [List.append_assoc, List.singleton_append]

/-- Ids of alerts agree only for the same agent and number. -/
theorem alertId_eq_iff (m k : Message) :
    k.alert.alertId = m.alert.alertId ↔ k.node = m.node ∧ k.serial = m.serial := by
  constructor
  · intro h
    rw [alertId_eq, alertId_eq] at h
    obtain ⟨hnode, hserial⟩ := append_digits_inj (by decide)
      (fun _ => isDigit_of_mem_decNat) (fun _ => isDigit_of_mem_decNat) h
    exact ⟨List.append_cancel_right hnode, UInt64.toNat_inj.mp (decNat_injective hserial)⟩
  · rintro ⟨hnode, hserial⟩
    rw [alertId_eq, alertId_eq, hnode, hserial]

end identifiers

section texts

/-- An entry whose texts hold no NUL. -/
def CleanEntry (e : Entry) : Prop := 0 ∉ e.nodeId ∧ 0 ∉ e.ruleId

theorem noNul_append {s t : Bytes} : 0 ∉ s ++ t ↔ 0 ∉ s ∧ 0 ∉ t := by
  rw [List.mem_append, not_or]

/-- An enrolled entry was there before or is the alert's. -/
theorem mem_enrollEntry {windowSec now : ℤ} {entries : List Entry} {alert : AlertEvent} {e : Entry}
    (he : e ∈ enrollEntry windowSec entries alert now) : e ∈ entries ∨ e = entryOf alert now := by
  unfold enrollEntry at he
  dsimp only at he
  split at he
  · rcases List.mem_append.mp he with hold | hnew
    · exact .inl (List.mem_of_mem_filter hold)
    · exact .inr (List.mem_singleton.mp hnew)
  · exact .inl (List.mem_of_mem_filter he)

/-- Joining clean node names gives a clean text. -/
theorem noNul_joinNodes {entries : List Entry} (h : ∀ e ∈ entries, CleanEntry e) :
    0 ∉ joinNodes (entries.map Entry.nodeId) := by
  have hfold : ∀ joined : Bytes, 0 ∉ joined →
      0 ∉ (entries.map Entry.nodeId).foldl (fun joined n => joined ++ (n ++ text ",")) joined := by
    induction entries with
    | nil => exact fun _ hj => hj
    | cons e rest ih =>
      intro joined hj
      have hsep : 0 ∉ text "," := by decide
      have hnode : 0 ∉ e.nodeId := (h e List.mem_cons_self).1
      exact ih (fun x hx => h x (List.mem_cons_of_mem e hx)) _
        (noNul_append.mpr ⟨hj, noNul_append.mpr ⟨hnode, hsep⟩⟩)
  exact hfold [] (by simp)

/-- Joining clean rule names gives a clean text. -/
theorem noNul_rulesSeen {entries : List Entry} (h : ∀ e ∈ entries, CleanEntry e) :
    0 ∉ rulesSeen entries := by
  have hfold : ∀ seen : Bytes, 0 ∉ seen → 0 ∉ entries.foldl
      (fun seen e => (if !seen.isEmpty then seen ++ text "," else seen) ++ e.ruleId) seen := by
    induction entries with
    | nil => exact fun _ hs => hs
    | cons e rest ih =>
      intro seen hs
      have hsep : 0 ∉ (if !seen.isEmpty then seen ++ text "," else seen) := by
        split
        · exact noNul_append.mpr ⟨hs, by decide⟩
        · exact hs
      have hrule : 0 ∉ e.ruleId := (h e List.mem_cons_self).2
      exact ih (fun x hx => h x (List.mem_cons_of_mem e hx)) _ (noNul_append.mpr ⟨hsep, hrule⟩)
  exact hfold [] (by simp)

/-- A threat built from clean entries is stored as it is exactly if its
address is clean. -/
theorem threat_noNul_iff {engine : CorrelationEngine} {alert : AlertEvent} {now : ℤ}
    {entries : List Entry} (h : ∀ e ∈ entries, CleanEntry e) (hrule : 0 ∉ alert.ruleId) :
    (threatContents (buildThreat engine alert now entries)).NoNul ↔ 0 ∉ sourceIp alert := by
  constructor
  · intro hclean
    exact hclean.2.1
  · intro hip
    have hid : 0 ∉ text "threat-" ++ dec engine.threatCounter :=
      noNul_append.mpr ⟨by decide, noNul_dec _⟩
    have hevidence : 0 ∉ (buildThreat engine alert now entries).evidence := by
      simp only [buildThreat, noNul_append, noNul_dec, noNul_rulesSeen h, hip, not_false_eq_true,
        and_true]
      decide
    exact ⟨hid, hip, hrule, noNul_joinNodes h, hevidence⟩

end texts

section receive

/-- What holds as long as nothing was lost. -/
structure Intact (s : Deployment) : Prop where
  /-- The rows are the saved alerts. -/
  alerts : s.coordinator.store.alerts = s.savedAlerts.map fun m => alertContents m.alert
  /-- The rows are the saved threats. -/
  threats : s.coordinator.store.threats = s.savedThreats.map fun t => threatContents t.2
  /-- Threats are named by their numbers. -/
  numbered : ∀ t ∈ s.savedThreats, t.2.threatId = text "threat-" ++ dec t.1
  /-- No entry of the engine holds a NUL. -/
  clean : ∀ ip, ∀ e ∈ bucket s.coordinator.engine.index ip, CleanEntry e

theorem intact_init : Intact .init where
  alerts := rfl
  threats := rfl
  numbered := fun _ ht => absurd ht List.not_mem_nil
  clean := fun _ _ he => absurd he List.not_mem_nil

theorem Intact.nothingLost {s : Deployment} (h : Intact s) : NothingLost s := by
  rw [NothingLost, h.alerts, h.threats]
  exact ⟨keeps_self _, keeps_self _⟩

variable {s : Deployment} (h : Intact s) (m : Message) (now : ℤ)

/-- The threat of a receive. -/
def threatOf (s : Deployment) (m : Message) (now : ℤ) : CorrelatedThreat :=
  buildThreat s.coordinator.engine m.alert now (ingestEntries s.coordinator.engine m.alert now)

/-- What a receive does: it ingests the alert and saves it, and saves the threat
too if it completes one. -/
theorem receive_cases :
    (s.receive m now).coordinator.engine = (s.coordinator.engine.ingest m.alert now).1 ∧
      (s.receive m now).coordinator.store.alerts =
        insertOrIgnore AlertRow.id (alertContents m.alert).bind s.coordinator.store.alerts ∧
      ((¬Completes s m now ∧
          (s.receive m now).coordinator.store.threats = s.coordinator.store.threats ∧
          (s.receive m now).savedThreats = s.savedThreats) ∨
        (Completes s m now ∧
          (s.receive m now).coordinator.store.threats =
            insertOrIgnore ThreatRow.id (threatContents (threatOf s m now)).bind
              s.coordinator.store.threats ∧
          (s.receive m now).savedThreats =
            s.savedThreats ++ [(s.coordinator.engine.threatCounter, threatOf s m now)])) := by
  by_cases hc : Completes s m now
  · have hsome : (s.coordinator.engine.ingest m.alert now).2 = some (threatOf s m now) := by
      rw [ingest_snd, if_neg (not_lt.mpr hc), threatOf]
    simp [Deployment.receive, Coordinator.receive, hsome, AlertStore.saveAlert,
      AlertStore.saveThreat, hc]
  · have hnone : (s.coordinator.engine.ingest m.alert now).2 = none := by
      rw [ingest_snd, if_pos (not_le.mp hc)]
    simp [Deployment.receive, Coordinator.receive, hnone, AlertStore.saveAlert, hc]

include h

/-- The entries of a receive are clean if its alert is. -/
theorem clean_ingestEntries (hm : (alertContents m.alert).NoNul) :
    ∀ e ∈ ingestEntries s.coordinator.engine m.alert now, CleanEntry e := by
  intro e he
  rcases mem_enrollEntry he with hold | hnew
  · exact h.clean _ e hold
  · rw [hnew]
    exact ⟨hm.2.2.1, hm.2.2.2.1⟩

/-- The alert of a receive has its row exactly if its number is new for the
agent and its texts hold no NUL. -/
theorem keeps_alert_iff :
    Keeps ((s.receive m now).savedAlerts.map fun m => alertContents m.alert)
        (s.receive m now).coordinator.store.alerts ↔
      (∀ k ∈ s.savedAlerts, ¬(k.node = m.node ∧ k.serial = m.serial)) ∧
        (alertContents m.alert).NoNul := by
  obtain ⟨-, halerts, -⟩ := receive_cases m now (s := s)
  have hsaved : (s.receive m now).savedAlerts = s.savedAlerts ++ [m] := rfl
  rw [halerts, h.alerts, hsaved, List.map_append, List.map_singleton, keeps_insert_iff,
    alert_bind_eq_iff]
  refine and_congr_left fun hclean => ?_
  rw [(alert_bind_eq_iff m.alert).mpr hclean]
  simp only [List.mem_map, not_exists, not_and, forall_exists_index, and_imp,
    forall_apply_eq_imp_iff₂, alertContents, alertId_eq_iff]

/-- The threat of a receive would be stored as it is exactly if its number is
new and its address holds no NUL. -/
theorem keeps_threat_iff (hm : (alertContents m.alert).NoNul) :
    Keeps ((s.savedThreats ++ [(s.coordinator.engine.threatCounter, threatOf s m now)]).map
        fun t => threatContents t.2)
        (insertOrIgnore ThreatRow.id (threatContents (threatOf s m now)).bind
          s.coordinator.store.threats) ↔
      (∀ t ∈ s.savedThreats, t.1 ≠ s.coordinator.engine.threatCounter) ∧
        0 ∉ sourceIp m.alert := by
  have hiff : (threatContents (threatOf s m now)).NoNul ↔ 0 ∉ sourceIp m.alert :=
    threat_noNul_iff (clean_ingestEntries h m now hm) hm.2.2.2.1
  rw [List.map_append, List.map_singleton, h.threats, keeps_insert_iff, threat_bind_eq_iff, hiff]
  refine and_congr_left fun hip => ?_
  rw [(threat_bind_eq_iff _).mpr (hiff.mpr hip)]
  simp only [List.mem_map, not_exists, not_and, forall_exists_index, and_imp,
    forall_apply_eq_imp_iff₂]
  refine forall₂_congr fun t ht => not_congr ?_
  change t.2.threatId = text "threat-" ++ dec s.coordinator.engine.threatCounter ↔ _
  rw [h.numbered t ht, List.append_cancel_left_eq, dec_injective.eq_iff]

/-- A receive from an intact deployment loses nothing exactly if it is
storable. -/
theorem receive_nothingLost_iff : NothingLost (s.receive m now) ↔ Storable s m now := by
  obtain ⟨-, -, ⟨hc, hstore, hsaved⟩ | ⟨hc, hstore, hsaved⟩⟩ := receive_cases m now (s := s)
  · constructor
    · intro hk
      obtain ⟨hserial, hm⟩ := (keeps_alert_iff h m now).mp hk.1
      exact ⟨hserial, hm, fun hc' => absurd hc' hc, fun hc' => absurd hc' hc⟩
    · intro hs
      refine ⟨(keeps_alert_iff h m now).mpr ⟨hs.freshSerial, hs.noNul⟩, ?_⟩
      rw [hstore, hsaved]
      exact h.nothingLost.2
  · rw [NothingLost, hstore, hsaved, keeps_alert_iff h m now]
    constructor
    · rintro ⟨⟨hserial, hm⟩, hthreat⟩
      obtain ⟨hnumber, hip⟩ := (keeps_threat_iff h m now hm).mp hthreat
      exact ⟨hserial, hm, fun _ => hnumber, fun _ => hip⟩
    · intro hs
      exact ⟨⟨hs.freshSerial, hs.noNul⟩,
        (keeps_threat_iff h m now hs.noNul).mpr ⟨hs.freshNumber hc, hs.noNulIp hc⟩⟩

/-- A receive that loses nothing leaves the deployment intact. -/
theorem receive_intact (hk : NothingLost (s.receive m now)) : Intact (s.receive m now) := by
  have hm : (alertContents m.alert).NoNul := ((receive_nothingLost_iff h m now).mp hk).noNul
  have hsaved : (s.receive m now).savedAlerts = s.savedAlerts ++ [m] := rfl
  obtain ⟨hkalerts, hkthreats⟩ := hk
  obtain ⟨hengine, halerts, hthreats⟩ := receive_cases m now (s := s)
  rw [halerts, h.alerts, hsaved, List.map_append, List.map_singleton] at hkalerts
  have hclean : ∀ ip, ∀ e ∈ bucket (s.receive m now).coordinator.engine.index ip, CleanEntry e := by
    intro ip e he
    rw [hengine, bucket_ingest] at he
    split at he
    · split at he
      · exact clean_ingestEntries h m now hm e he
      · exact absurd he List.not_mem_nil
    · exact h.clean ip e he
  have hrows : (s.receive m now).coordinator.store.alerts =
      (s.receive m now).savedAlerts.map fun m => alertContents m.alert := by
    rw [halerts, h.alerts, hsaved, List.map_append, List.map_singleton]
    exact insert_eq_of_keeps hkalerts
  rcases hthreats with ⟨-, hstore, hsame⟩ | ⟨-, hstore, hmore⟩
  · refine ⟨hrows, ?_, ?_, hclean⟩
    · rw [hstore, hsame]
      exact h.threats
    · rw [hsame]
      exact h.numbered
  · refine ⟨hrows, ?_, ?_, hclean⟩
    · rw [hstore, hmore, h.threats, List.map_append, List.map_singleton] at hkthreats
      rw [hstore, hmore, h.threats, List.map_append, List.map_singleton]
      exact insert_eq_of_keeps hkthreats
    · rw [hmore]
      intro t ht
      rcases List.mem_append.mp ht with hold | hnew
      · exact h.numbered t hold
      · rw [List.mem_singleton.mp hnew]
        rfl

end receive

section runs

/-- An action on an intact deployment loses nothing exactly if it conforms,
and then leaves the deployment intact. -/
theorem step_nothingLost_iff {s : Deployment} (h : Intact s) (action : Action) :
    (NothingLost (deployment.step s action).1 ↔ Conforms s action) ∧
      (NothingLost (deployment.step s action).1 → Intact (deployment.step s action).1) := by
  cases action with
  | receive i now =>
    cases hi : s.inFlight[i]? with
    | none =>
      have hsame : (deployment.step s (.receive i now)).1 = s := by simp [deployment, hi]
      rw [hsame]
      refine ⟨⟨fun _ m hm => ?_, fun _ => h.nothingLost⟩, fun _ => h⟩
      rw [hi] at hm
      cases hm
    | some m =>
      have herased : Intact { s with inFlight := s.inFlight.eraseIdx i } := { h with }
      have hstep : (deployment.step s (.receive i now)).1 =
          { s with inFlight := s.inFlight.eraseIdx i }.receive m now := by simp [deployment, hi]
      have hconf : Conforms s (.receive i now) ↔
          Storable { s with inFlight := s.inFlight.eraseIdx i } m now := by
        simp only [Conforms, hi, Option.some.injEq, forall_eq']
        exact ⟨fun hs => { hs with }, fun hs => { hs with }⟩
      rw [hstep, hconf]
      exact ⟨receive_nothingLost_iff herased m now, receive_intact herased m now⟩
  | restartAgent node => exact ⟨⟨fun _ => trivial, fun _ => h.nothingLost⟩, fun _ => { h with }⟩
  | publish node withheld body =>
    exact ⟨⟨fun _ => trivial, fun _ => h.nothingLost⟩, fun _ => { h with }⟩
  | lose i => exact ⟨⟨fun _ => trivial, fun _ => h.nothingLost⟩, fun _ => { h with }⟩
  | restartCoordinator =>
    refine ⟨⟨fun _ => trivial, fun _ => h.nothingLost⟩, fun _ => { h with clean := ?_ }⟩
    exact fun _ _ he => absurd he List.not_mem_nil

/-- Nothing is ever lost in a run exactly if each of its actions conforms: no
receive repeats the number of an alert saved for the same agent or of a saved
threat, and none stores a text with a NUL. -/
theorem nothing_lost_iff (actions : ℕ → Action) :
    (∀ n, NothingLost (stateAt actions n)) ↔
      ∀ n, Conforms (stateAt actions n) (actions n) := by
  constructor
  · intro hkeep
    have hintact : ∀ n, Intact (stateAt actions n) := by
      intro n
      induction n with
      | zero => exact intact_init
      | succ n ih => exact (step_nothingLost_iff ih (actions n)).2 (hkeep (n + 1))
    intro n
    exact (step_nothingLost_iff (hintact n) (actions n)).1.mp (hkeep (n + 1))
  · intro hconf n
    have hintact : Intact (stateAt actions n) := by
      refine Machine.invariant (C := Conforms) intact_init (fun s a hs ha => ?_)
        (fun k _ => hconf k)
      have hstep := step_nothingLost_iff hs a
      exact hstep.2 (hstep.1.mpr ha)
    exact hintact.nothingLost

end runs

/-- The alert for five failed logins from an address. -/
def guessing (srcIp : Bytes) : AlertEvent := SshBruteForceRule.alert {} {} srcIp 5 []

/-- The agent `web` raises an alert, restarts and raises one about another
address. -/
def agentRestarts : ℕ → Action
  | 0 => .publish (text "web") 0 (guessing (text "10.0.0.1"))
  | 1 => .receive 0 0
  | 2 => .restartAgent (text "web")
  | 3 => .publish (text "web") 0 (guessing (text "10.0.0.2"))
  | 4 => .receive 0 (seconds 1)
  | _ => .lose 0

/-- The agents `web` and `db` confirm an address, the coordinator restarts and
they confirm another one. -/
def coordinatorRestarts : ℕ → Action
  | 0 => .publish (text "web") 0 (guessing (text "10.0.0.1"))
  | 1 => .publish (text "db") 0 (guessing (text "10.0.0.1"))
  | 2 => .receive 0 0
  | 3 => .receive 0 (seconds 1)
  | 4 => .restartCoordinator
  | 5 => .publish (text "web") 0 (guessing (text "10.0.0.2"))
  | 6 => .publish (text "db") 0 (guessing (text "10.0.0.2"))
  | 7 => .receive 0 (seconds 2)
  | 8 => .receive 0 (seconds 3)
  | _ => .lose 0

/-- Both runs lose a row: of two saved alerts, and of two saved threats, one
row is in the table. -/
theorem restarts_lose :
    ¬NothingLost (stateAt agentRestarts 5) ∧ ¬NothingLost (stateAt coordinatorRestarts 9) := by
  constructor
  · intro h
    have hle := List.Subperm.length_le h.1
    have hsaved : (stateAt agentRestarts 5).savedAlerts.length = 2 := by decide +kernel
    have hrows : (stateAt agentRestarts 5).coordinator.store.alerts.length = 1 := by decide +kernel
    rw [List.length_map, hsaved, hrows] at hle
    omega
  · intro h
    have hle := List.Subperm.length_le h.2
    have hsaved : (stateAt coordinatorRestarts 9).savedThreats.length = 2 := by decide +kernel
    have hrows : (stateAt coordinatorRestarts 9).coordinator.store.threats.length = 1 := by
      decide +kernel
    rw [List.length_map, hsaved, hrows] at hle
    omega

end Dlads.DatabaseRestarts
