import Dlads.AgentPipeline
import Dlads.Correlation
import Dlads.KeyedTable

/-!
# The alert store and the coordinator's receiver

`AlertStore` writes each alert and each threat to a table of `alerts.db` under
its identifier and keeps the most recent ones in memory. The receiver saves an
alert, correlates it and saves the threat it completes. The tables outlive the
coordinator's process; the correlation engine and the lists in memory do not.
Texts are bound up to their first NUL, as `sqlite3_bind_text` does with a
length of -1.
-/

namespace Dlads.AlertDatabase

open ByteText StringMaps FloatFormat Records Correlation KeyedTable

/-- A row of the table `alerts`. -/
structure AlertRow where
  /-- The primary key. -/
  id : Bytes
  /-- Address from the metadata, else the host. -/
  sourceIp : Bytes
  /-- Node that sent the alert. -/
  sourceHost : Bytes
  /-- Rule that fired. -/
  ruleId : Bytes
  /-- Name of the severity. -/
  severity : Bytes
  /-- Score of the alert. -/
  anomalyScore : Binary32
  /-- Summary for operators. -/
  description : Bytes
  /-- Seconds since the epoch. -/
  timestamp : ℤ
  deriving DecidableEq

/-- A row of the table `threats`. -/
structure ThreatRow where
  /-- The primary key. -/
  id : Bytes
  /-- Address the nodes agree on. -/
  sourceIp : Bytes
  /-- Rule of the completing alert. -/
  ruleId : Bytes
  /-- Name of the severity. -/
  severity : Bytes
  /-- The nodes, each followed by a comma. -/
  confirmedBy : Bytes
  /-- Summary for operators. -/
  evidence : Bytes
  /-- Seconds since the epoch. -/
  timestamp : ℤ
  deriving DecidableEq

/-- The database and the lists in memory. -/
structure AlertStore where
  /-- Table `alerts`. -/
  alerts : List AlertRow
  /-- Table `threats`. -/
  threats : List ThreatRow
  /-- `recent_alerts_`. -/
  recentAlerts : List AlertEvent
  /-- `recent_threats_`. -/
  recentThreats : List CorrelatedThreat

/-- The address in the `source_ip` column. -/
def columnIp (alert : AlertEvent) : Bytes :=
  match alert.metadata.lookup (text "source_ip") with
  | some ip => ip
  | none => alert.sourceHost

/-- The contents of an alert, column by column. -/
def alertContents (alert : AlertEvent) : AlertRow where
  id := alert.alertId
  sourceIp := columnIp alert
  sourceHost := alert.sourceHost
  ruleId := alert.ruleId
  severity := alert.severity.name
  anomalyScore := alert.anomalyScore
  description := alert.description
  timestamp := wholeSeconds alert.timestamp

/-- The nodes of a threat, each followed by a comma. -/
def joinNodes (nodes : List Bytes) : Bytes :=
  nodes.foldl (fun joined n => joined ++ (n ++ text ",")) []

/-- The contents of a threat, column by column. -/
def threatContents (threat : CorrelatedThreat) : ThreatRow where
  id := threat.threatId
  sourceIp := threat.sourceIp
  ruleId := threat.ruleId
  severity := threat.severity.name
  confirmedBy := joinNodes threat.confirmedByNodes
  evidence := threat.evidence
  timestamp := wholeSeconds threat.timestamp

/-- Bind each text of an alert row up to its first NUL. -/
def AlertRow.bind (row : AlertRow) : AlertRow :=
  { row with
    id := cStr row.id
    sourceIp := cStr row.sourceIp
    sourceHost := cStr row.sourceHost
    ruleId := cStr row.ruleId
    severity := cStr row.severity
    description := cStr row.description }

/-- Bind each text of a threat row up to its first NUL. -/
def ThreatRow.bind (row : ThreatRow) : ThreatRow :=
  { row with
    id := cStr row.id
    sourceIp := cStr row.sourceIp
    ruleId := cStr row.ruleId
    severity := cStr row.severity
    confirmedBy := cStr row.confirmedBy
    evidence := cStr row.evidence }

/-- `push_back` on a list that gives up its oldest element beyond a limit. -/
def pushRecent {α : Type*} (limit : ℕ) (recent : List α) (x : α) : List α :=
  if limit < (recent ++ [x]).length then (recent ++ [x]).drop 1 else recent ++ [x]

/-- `AlertStore::save_alert`. -/
def AlertStore.saveAlert (store : AlertStore) (alert : AlertEvent) : AlertStore :=
  { store with
    alerts := insertOrIgnore AlertRow.id (alertContents alert).bind store.alerts
    recentAlerts := pushRecent 100 store.recentAlerts alert }

/-- `AlertStore::save_threat`. -/
def AlertStore.saveThreat (store : AlertStore) (threat : CorrelatedThreat) : AlertStore :=
  { store with
    threats := insertOrIgnore ThreatRow.id (threatContents threat).bind store.threats
    recentThreats := pushRecent 50 store.recentThreats threat }

/-- A store on a new database. -/
def AlertStore.init : AlertStore := ⟨[], [], [], []⟩

/-- A new store on the same database: `CREATE TABLE IF NOT EXISTS` leaves the
tables alone. -/
def AlertStore.reopen (store : AlertStore) : AlertStore :=
  { store with recentAlerts := [], recentThreats := [] }

/-- What the receiver thread works on; the node registry, which neither reads
nor changes these, is left out. -/
structure Coordinator where
  /-- The correlation engine. -/
  engine : CorrelationEngine
  /-- The alert store. -/
  store : AlertStore

/-- The coordinator's `main` on a database. -/
def Coordinator.start (store : AlertStore) : Coordinator where
  engine := .init 120 2
  store := store

/-- One pass of `zmq_alert_receiver` on an accepted alert: the new state, and
the threat handed to `save_threat`, if any. -/
def Coordinator.receive (c : Coordinator) (alert : AlertEvent) (now : ℤ) :
    Coordinator × Option CorrelatedThreat :=
  let store := c.store.saveAlert alert
  let correlated := c.engine.ingest alert now
  match correlated.2 with
  | none => (⟨correlated.1, store⟩, none)
  | some threat => (⟨correlated.1, store.saveThreat threat⟩, some threat)

/-- The score as `serialize` sends it: finite and in [0, 1]. -/
def sentScore : Binary32 → Binary32
  | .finite value => maximum (.finite 0) (minimum (.finite 1) (.finite value))
  | _ => .finite 0

/-- The alert as `deserialize` rebuilds it from what `serialize` sent. -/
def overWire (alert : AlertEvent) : AlertEvent :=
  { alert with
    timestamp := seconds (wholeSeconds alert.timestamp)
    anomalyScore := sentScore alert.anomalyScore }

section contents

/-- An alert whose stored texts hold no NUL. -/
def AlertRow.NoNul (row : AlertRow) : Prop :=
  0 ∉ row.id ∧ 0 ∉ row.sourceIp ∧ 0 ∉ row.sourceHost ∧ 0 ∉ row.ruleId ∧ 0 ∉ row.description

/-- A threat whose stored texts hold no NUL. -/
def ThreatRow.NoNul (row : ThreatRow) : Prop :=
  0 ∉ row.id ∧ 0 ∉ row.sourceIp ∧ 0 ∉ row.ruleId ∧ 0 ∉ row.confirmedBy ∧ 0 ∉ row.evidence

theorem noNul_severity (severity : Severity) : 0 ∉ severity.name := by
  cases severity <;> decide

/-- An alert is stored with its contents exactly if none of its texts holds a
NUL. -/
theorem alert_bind_eq_iff (alert : AlertEvent) :
    (alertContents alert).bind = alertContents alert ↔ (alertContents alert).NoNul := by
  have hsev := cStr_of_noNul (noNul_severity alert.severity)
  simp only [AlertRow.bind, AlertRow.NoNul, alertContents, AlertRow.mk.injEq, cStr_eq_self_iff,
    hsev, and_true, true_and]

/-- A threat is stored with its contents exactly if none of its texts holds a
NUL. -/
theorem threat_bind_eq_iff (threat : CorrelatedThreat) :
    (threatContents threat).bind = threatContents threat ↔ (threatContents threat).NoNul := by
  have hsev := cStr_of_noNul (noNul_severity threat.severity)
  simp only [ThreatRow.bind, ThreatRow.NoNul, threatContents, ThreatRow.mk.injEq, cStr_eq_self_iff,
    hsev, and_true, true_and]

end contents

end Dlads.AlertDatabase
