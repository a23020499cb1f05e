import Dlads.Records
import Dlads.StepMachine

/-!
# The correlation engine

`CorrelationEngine::ingest` keeps, under each source address, one entry for
each node that reported it. It evicts old entries, adds the reporting node
unless it has an entry, and once enough nodes have one builds a threat from
the entries and forgets the address.
-/

namespace Dlads.Correlation

open ByteText StringMaps Records StepMachine

/-- `CorrelatedThreat`. -/
structure CorrelatedThreat where
  /-- `threat-` and the number of the threat. -/
  threatId : Bytes
  /-- Address the nodes agree on. -/
  sourceIp : Bytes
  /-- Rule of the alert that completed the threat. -/
  ruleId : Bytes
  /-- One above the highest severity of the entries. -/
  severity : Severity
  /-- Nodes of the entries, in order. -/
  confirmedByNodes : List Bytes
  /-- Summary for operators. -/
  evidence : Bytes
  /-- Time of the completing ingest. -/
  timestamp : ℤ
  deriving DecidableEq

/-- `CorrelationEngine::Entry`. -/
structure Entry where
  /-- Host of the alert. -/
  nodeId : Bytes
  /-- Rule of the alert. -/
  ruleId : Bytes
  /-- Severity of the alert. -/
  severity : Severity
  /-- Time at which the alert was ingested. -/
  timestamp : ℤ
  deriving DecidableEq

/-- The data members of `CorrelationEngine` but for its mutex. -/
structure CorrelationEngine where
  /-- `window_sec_`. -/
  windowSec : ℤ
  /-- `threshold_`. -/
  threshold : ℤ
  /-- `threat_counter_`. -/
  threatCounter : ℤ
  /-- `index_`. -/
  index : StringMap (List Entry)
  deriving DecidableEq

/-- A new engine. -/
def CorrelationEngine.init (windowSec threshold : ℤ) : CorrelationEngine :=
  ⟨windowSec, threshold, 1, ∅⟩

/-- The address an alert is filed under: `src_ip`, then `source_ip`, then the
host. -/
def sourceIp (alert : AlertEvent) : Bytes :=
  match alert.metadata.lookup (text "src_ip") with
  | some ip => ip
  | none =>
    match alert.metadata.lookup (text "source_ip") with
    | some ip => ip
    | none => alert.sourceHost

/-- An entry that is not evicted: its age in whole seconds is in the window. -/
def inWindow (windowSec now timestamp : ℤ) : Bool :=
  !(windowSec < wholeSeconds (now - timestamp))

/-- The entry of an alert. -/
def entryOf (alert : AlertEvent) (now : ℤ) : Entry :=
  ⟨alert.sourceHost, alert.ruleId, alert.severity, now⟩

/-- The entries of the address after eviction and insertion. -/
def enrollEntry (windowSec : ℤ) (entries : List Entry) (alert : AlertEvent) (now : ℤ) :
    List Entry :=
  let entries := entries.filter fun e => inWindow windowSec now e.timestamp
  let alreadyPresent := entries.any fun e => e.nodeId = alert.sourceHost
  if !alreadyPresent then entries ++ [entryOf alert now] else entries

/-- `rules_seen`: the rules of the entries, separated by commas. -/
def rulesSeen (entries : List Entry) : Bytes :=
  entries.foldl (fun seen e => (if !seen.isEmpty then seen ++ text "," else seen) ++ e.ruleId) []

/-- `max_sev`: the highest severity of the entries. -/
def maxSeverity (entries : List Entry) : Severity :=
  entries.foldl (fun m e => if m.rank < e.severity.rank then e.severity else m) .low

/-- One level above a severity. -/
def escalate : Severity → Severity
  | .critical => .critical
  | .high => .critical
  | .medium => .high
  | .low => .medium

/-- The threat built from the entries. -/
def buildThreat (engine : CorrelationEngine) (alert : AlertEvent) (now : ℤ)
    (entries : List Entry) : CorrelatedThreat where
  threatId := text "threat-" ++ dec engine.threatCounter
  sourceIp := sourceIp alert
  ruleId := alert.ruleId
  severity := escalate (maxSeverity entries)
  confirmedByNodes := entries.map Entry.nodeId
  evidence := text "Confirmed by " ++ dec entries.length ++ text " nodes within " ++
    dec engine.windowSec ++ text "s " ++ emDash ++ text " rules: [" ++ rulesSeen entries ++
    text "]" ++ text " from IP: " ++ sourceIp alert
  timestamp := now

/-- `CorrelationEngine::ingest` at a clock reading. -/
def CorrelationEngine.ingest (engine : CorrelationEngine) (alert : AlertEvent) (now : ℤ) :
    CorrelationEngine × Option CorrelatedThreat :=
  let key := sourceIp alert
  let entries := enrollEntry engine.windowSec (bucket engine.index key) alert now
  if (entries.length : ℤ) < engine.threshold then
    ({ engine with index := assign engine.index key entries }, none)
  else
    ({ engine with
        index := engine.index.erase key
        threatCounter := engine.threatCounter + 1 },
      some (buildThreat engine alert now entries))

/-- The engine under ingests; a step returns the threat, if any. -/
def correlator : Machine CorrelationEngine (AlertEvent × ℤ) (Option CorrelatedThreat) where
  step := fun engine input => engine.ingest input.1 input.2

section ingest

variable (engine : CorrelationEngine) (alert : AlertEvent) (now : ℤ)

/-- The entries that the threshold is compared with. -/
def ingestEntries : List Entry :=
  enrollEntry engine.windowSec (bucket engine.index (sourceIp alert)) alert now

/-- An ingest touches the map under its own address only: the admitted entries
stay below the threshold, the address goes from it on. -/
theorem lookup_ingest (x : Bytes) : (engine.ingest alert now).1.index.lookup x =
    if x = sourceIp alert then
      if ((ingestEntries engine alert now).length : ℤ) < engine.threshold then
        some (ingestEntries engine alert now)
      else none
    else engine.index.lookup x := by
  unfold CorrelationEngine.ingest
  change (if ((ingestEntries engine alert now).length : ℤ) < engine.threshold then _
    else _ : CorrelationEngine × Option CorrelatedThreat).1.index.lookup x = _
  by_cases ht : ((ingestEntries engine alert now).length : ℤ) < engine.threshold
  · rw [if_pos ht, if_pos ht]
    exact lookup_assign engine.index (sourceIp alert) x _
  · rw [if_neg ht, if_neg ht]
    exact lookup_erase engine.index (sourceIp alert) x

/-- An ingest changes the entries of its own address only: the admitted ones
below the threshold, none from it on. -/
theorem bucket_ingest (x : Bytes) : bucket (engine.ingest alert now).1.index x =
    if x = sourceIp alert then
      if ((ingestEntries engine alert now).length : ℤ) < engine.threshold then
        ingestEntries engine alert now
      else []
    else bucket engine.index x := by
  rw [bucket, lookup_ingest]
  split
  · split <;> rfl
  · rfl

/-- A threat is returned exactly from the threshold on. -/
theorem ingest_snd : (engine.ingest alert now).2 =
    if ((ingestEntries engine alert now).length : ℤ) < engine.threshold then none
    else some (buildThreat engine alert now (ingestEntries engine alert now)) := by
  unfold CorrelationEngine.ingest
  change (if ((ingestEntries engine alert now).length : ℤ) < engine.threshold then _
    else _ : CorrelationEngine × Option CorrelatedThreat).2 = _
  split <;> rfl

/-- Window and threshold never change. -/
theorem ingest_config : (engine.ingest alert now).1.windowSec = engine.windowSec ∧
    (engine.ingest alert now).1.threshold = engine.threshold := by
  unfold CorrelationEngine.ingest
  dsimp only
  split <;> exact ⟨rfl, rfl⟩

end ingest

end Dlads.Correlation
