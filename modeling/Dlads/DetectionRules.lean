import Dlads.IndexedHistory
import Mathlib.Data.Finset.Sort

/-!
# The four detection rules

Each rule looks at the arriving event, scans one bucket of the event index
and either stays silent or builds an alert, which draws the next alert id.
A `std::set` is the finite set of its elements; iterating it is going through
the sorted list.
-/

namespace Dlads.DetectionRules

open ByteText StringMaps FloatFormat Records YamlConfig IndexedHistory

/-- The score `min(1.0f, static_cast<float>(n) / static_cast<float>(d))`. -/
def cappedScore (n d : ℤ) : Binary32 := minimum (.finite 1) (divide (ofInt n) (ofInt d))

/-- What an `evaluate` that builds an alert returns: the alert under the next
id, and the id counter moved on. -/
def raise (alert : Bytes → AlertEvent) (counter : UInt64) : Option AlertEvent × UInt64 :=
  (some (alert (nextId counter).1), (nextId counter).2)

namespace SshBruteForceRule

/-- Both names of the daemon. -/
def isSource (logSource : Bytes) : Bool :=
  logSource == text "sshd" || logSource == text "sshd-session"

/-- A failed login. -/
def isFailure (message : Bytes) : Bool :=
  icontains message (text "Failed password") || icontains message (text "Invalid user")

/-- The address of a failed login the rule looks at. -/
def subject (event : LogEvent) : Option Bytes :=
  if !isSource event.logSource then none
  else if !isFailure event.message then none
  else if (extractSrcIp event).isEmpty then none else some (extractSrcIp event)

/-- The oldest timestamp in the window. -/
def cutoff (event : LogEvent) (cfg : RuleConfig) : ℤ :=
  event.timestamp - seconds cfg.sshWindowSeconds

/-- A history event that is counted. -/
def counts (cutoff : ℤ) (ev : LogEvent) : Bool :=
  isSource ev.logSource && !(ev.timestamp < cutoff) && isFailure ev.message

/-- The counter of the rule: it starts at 1 for the current event. -/
def count (event : LogEvent) (index : EventIndex) (cfg : RuleConfig) (srcIp : Bytes) : ℤ :=
  (bucket index.byIp srcIp).foldl
    (fun count ev => if counts (cutoff event cfg) ev then count + 1 else count) 1

/-- The alert for a count. -/
def alert (event : LogEvent) (cfg : RuleConfig) (srcIp : Bytes) (count : ℤ) (id : Bytes) :
    AlertEvent where
  alertId := id
  timestamp := event.timestamp
  sourceHost := event.sourceHost
  ruleId := text "SSH_BRUTE_FORCE_001"
  severity := .high
  anomalyScore := cappedScore count (cfg.sshThreshold * 2)
  description := text "SSH brute force: " ++ dec count ++ text " failed logins from " ++ srcIp ++
    text " in " ++ dec cfg.sshWindowSeconds ++ text "s"
  metadata := assign (assign ∅ (text "src_ip") srcIp) (text "attempt_count") (dec count)

/-- `SshBruteForceRule::evaluate`. -/
def evaluate (event : LogEvent) (_snapshot : List LogEvent) (index : EventIndex)
    (cfg : RuleConfig) (counter : UInt64) : Option AlertEvent × UInt64 :=
  match subject event with
  | none => (none, counter)
  | some srcIp =>
    let count := count event index cfg srcIp
    if count < cfg.sshThreshold then (none, counter)
    else raise (alert event cfg srcIp count) counter

/-- The returned alert, as a choice on the count. -/
theorem evaluate_fst (event : LogEvent) (snapshot : List LogEvent) (index : EventIndex)
    (cfg : RuleConfig) (counter : UInt64) : (evaluate event snapshot index cfg counter).1 =
      (subject event).bind fun srcIp =>
        if count event index cfg srcIp < cfg.sshThreshold then none
        else some (alert event cfg srcIp (count event index cfg srcIp) (nextId counter).1) := by
  rw [evaluate]
  cases subject event with
  | none => rfl
  | some srcIp =>
    dsimp only [Option.bind_some]
    split <;> rfl

end SshBruteForceRule

namespace PortScanRule

/-- The address of a packet-filter line the rule looks at. -/
def subject (event : LogEvent) : Option Bytes :=
  if event.logSource != text "kernel" then none
  else if !icontains event.message (text "REJECT") && !icontains event.message (text "DPT=") then
    none
  else if (extractSrcIp event).isEmpty then none else some (extractSrcIp event)

/-- The oldest timestamp in the window. -/
def cutoff (event : LogEvent) (cfg : RuleConfig) : ℤ :=
  event.timestamp - seconds cfg.scanWindowSeconds

/-- A history event whose port is looked at. -/
def counts (cutoff : ℤ) (ev : LogEvent) : Bool :=
  !(ev.timestamp < cutoff) && ev.logSource == text "kernel" && icontains ev.message (text "DPT=")

/-- Insert the port of a line, if it has a positive one. -/
def insertPort (ports : Finset ℤ) (message : Bytes) : Finset ℤ :=
  if 0 < parseDpt message then insert (parseDpt message) ports else ports

/-- `ports_seen`, the current event's port included. -/
def portsSeen (event : LogEvent) (index : EventIndex) (cfg : RuleConfig) (srcIp : Bytes) :
    Finset ℤ :=
  (bucket index.byIp srcIp).foldl
    (fun ports ev => if counts (cutoff event cfg) ev then insertPort ports ev.message else ports)
    (insertPort ∅ event.message)

/-- The alert for a number of distinct ports. -/
def alert (event : LogEvent) (cfg : RuleConfig) (srcIp : Bytes) (distinct : ℤ) (id : Bytes) :
    AlertEvent where
  alertId := id
  timestamp := event.timestamp
  sourceHost := event.sourceHost
  ruleId := text "PORT_SCAN_001"
  severity := .high
  anomalyScore := cappedScore distinct 50
  description := text "Port scan: " ++ srcIp ++ text " hit " ++ dec distinct ++
    text " distinct ports in " ++ dec cfg.scanWindowSeconds ++ text "s"
  metadata := assign (assign ∅ (text "src_ip") srcIp) (text "port_count") (dec distinct)

/-- `PortScanRule::evaluate`. -/
def evaluate (event : LogEvent) (_snapshot : List LogEvent) (index : EventIndex)
    (cfg : RuleConfig) (counter : UInt64) : Option AlertEvent × UInt64 :=
  match subject event with
  | none => (none, counter)
  | some srcIp =>
    let distinct : ℤ := (portsSeen event index cfg srcIp).card
    if distinct < cfg.scanThreshold then (none, counter)
    else raise (alert event cfg srcIp distinct) counter

/-- The returned alert, as a choice on the number of ports. -/
theorem evaluate_fst (event : LogEvent) (snapshot : List LogEvent) (index : EventIndex)
    (cfg : RuleConfig) (counter : UInt64) : (evaluate event snapshot index cfg counter).1 =
      (subject event).bind fun srcIp =>
        if ((portsSeen event index cfg srcIp).card : ℤ) < cfg.scanThreshold then none
        else some (alert event cfg srcIp (portsSeen event index cfg srcIp).card
          (nextId counter).1) := by
  rw [evaluate]
  cases subject event with
  | none => rfl
  | some srcIp =>
    dsimp only [Option.bind_some]
    split <;> rfl

end PortScanRule

namespace PrivEscRule

/-- The user of a sudo session the rule looks at. -/
def subject (event : LogEvent) : Option Bytes :=
  if event.logSource != text "sudo" then none
  else if !icontains event.message (text "session opened") then none
  else if (parseSudoUser event.message).isEmpty then none else some (parseSudoUser event.message)

/-- The oldest timestamp in the history looked back at. -/
def cutoff (event : LogEvent) (cfg : RuleConfig) : ℤ := event.timestamp - hours cfg.privHistoryHours

/-- A history event that makes the user known: strictly earlier than the
current event, so that the event does not match itself in the snapshot. -/
def matchesUser (event : LogEvent) (cfg : RuleConfig) (username : Bytes) (ev : LogEvent) : Bool :=
  !(ev.timestamp < cutoff event cfg) && !(event.timestamp ≤ ev.timestamp) &&
    icontains ev.message (text "session opened") && icontains ev.message username

/-- `seen_before`. -/
def seenBefore (event : LogEvent) (index : EventIndex) (cfg : RuleConfig) (username : Bytes) :
    Bool :=
  (bucket index.bySource (text "sudo")).any (matchesUser event cfg username)

/-- The alert for a user without history. -/
def alert (event : LogEvent) (username : Bytes) (id : Bytes) : AlertEvent where
  alertId := id
  timestamp := event.timestamp
  sourceHost := event.sourceHost
  ruleId := text "PRIV_ESC_001"
  severity := .critical
  anomalyScore := roundBinary32 (9 / 10)
  description := text "Privilege escalation: first-time sudo session opened by user '" ++
    username ++ text "'"
  metadata := assign ∅ (text "username") username

/-- `PrivEscRule::evaluate`. -/
def evaluate (event : LogEvent) (_snapshot : List LogEvent) (index : EventIndex)
    (cfg : RuleConfig) (counter : UInt64) : Option AlertEvent × UInt64 :=
  match subject event with
  | none => (none, counter)
  | some username =>
    if seenBefore event index cfg username then (none, counter)
    else raise (alert event username) counter

/-- The returned alert, as a choice on what has been seen. -/
theorem evaluate_fst (event : LogEvent) (snapshot : List LogEvent) (index : EventIndex)
    (cfg : RuleConfig) (counter : UInt64) : (evaluate event snapshot index cfg counter).1 =
      (subject event).bind fun username =>
        if seenBefore event index cfg username then none
        else some (alert event username (nextId counter).1) := by
  rw [evaluate]
  cases subject event with
  | none => rfl
  | some username =>
    dsimp only [Option.bind_some]
    split <;> rfl

end PrivEscRule

namespace MultiServiceAuthRule

/-- An authentication failure of any service. -/
def isFailure (message : Bytes) : Bool :=
  icontains message (text "authentication failure") || icontains message (text "Failed password") ||
    icontains message (text "auth error") || icontains message (text "Invalid user")

/-- The address of a failure the rule looks at. -/
def subject (event : LogEvent) : Option Bytes :=
  if !isFailure event.message then none
  else if (extractSrcIp event).isEmpty then none else some (extractSrcIp event)

/-- The oldest timestamp in the window. -/
def cutoff (event : LogEvent) (cfg : RuleConfig) : ℤ :=
  event.timestamp - seconds cfg.multiWindowSeconds

/-- A history event whose service is looked at. -/
def counts (cutoff : ℤ) (ev : LogEvent) : Bool :=
  !(ev.timestamp < cutoff) && isFailure ev.message

/-- Insert a service name, if there is one. -/
def insertService (services : Finset Bytes) (logSource : Bytes) : Finset Bytes :=
  if !logSource.isEmpty then insert logSource services else services

/-- `services_hit`, the current event's service included. -/
def servicesHit (event : LogEvent) (index : EventIndex) (cfg : RuleConfig) (srcIp : Bytes) :
    Finset Bytes :=
  (bucket index.byIp srcIp).foldl
    (fun services ev =>
      if counts (cutoff event cfg) ev then insertService services ev.logSource else services)
    (insertService ∅ event.logSource)

/-- `svc_list`: the services in order, separated by commas. -/
def serviceList (services : Finset Bytes) : Bytes :=
  (services.sort (· ≤ ·)).foldl
    (fun list s => (if !list.isEmpty then list ++ text "," else list) ++ s) []

/-- The alert for a set of services. -/
def alert (event : LogEvent) (srcIp : Bytes) (services : Finset Bytes) (id : Bytes) :
    AlertEvent where
  alertId := id
  timestamp := event.timestamp
  sourceHost := event.sourceHost
  ruleId := text "MULTI_SERVICE_AUTH_001"
  severity := .critical
  anomalyScore := cappedScore services.card 4
  description := text "Multi-service auth failure: " ++ srcIp ++ text " failed on services [" ++
    serviceList services ++ text "]"
  metadata := assign (assign (assign ∅ (text "src_ip") srcIp)
    (text "services") (serviceList services)) (text "service_count") (dec services.card)

/-- `MultiServiceAuthRule::evaluate`. -/
def evaluate (event : LogEvent) (_snapshot : List LogEvent) (index : EventIndex)
    (cfg : RuleConfig) (counter : UInt64) : Option AlertEvent × UInt64 :=
  match subject event with
  | none => (none, counter)
  | some srcIp =>
    let services := servicesHit event index cfg srcIp
    if (services.card : ℤ) < cfg.multiMinServices then (none, counter)
    else raise (alert event srcIp services) counter

/-- The returned alert, as a choice on the services. -/
theorem evaluate_fst (event : LogEvent) (snapshot : List LogEvent) (index : EventIndex)
    (cfg : RuleConfig) (counter : UInt64) : (evaluate event snapshot index cfg counter).1 =
      (subject event).bind fun srcIp =>
        if ((servicesHit event index cfg srcIp).card : ℤ) < cfg.multiMinServices then none
        else some (alert event srcIp (servicesHit event index cfg srcIp) (nextId counter).1) := by
  rw [evaluate]
  cases subject event with
  | none => rfl
  | some srcIp =>
    dsimp only [Option.bind_some]
    split <;> rfl

end MultiServiceAuthRule

/-- The rules of the engine. -/
inductive Rule
  | sshBruteForce | portScan | privEsc | multiServiceAuth
  deriving DecidableEq

/-- `rules_`, in the order of construction. -/
def Rule.all : List Rule := [.sshBruteForce, .portScan, .privEsc, .multiServiceAuth]

/-- `rule_id()`. -/
def Rule.ruleId : Rule → Bytes
  | .sshBruteForce => text "SSH_BRUTE_FORCE_001"
  | .portScan => text "PORT_SCAN_001"
  | .privEsc => text "PRIV_ESC_001"
  | .multiServiceAuth => text "MULTI_SERVICE_AUTH_001"

/-- `cooldown(cfg)`. -/
def Rule.cooldown (cfg : RuleConfig) : Rule → ℤ
  | .sshBruteForce => seconds cfg.sshCooldownSeconds
  | .portScan => seconds cfg.scanCooldownSeconds
  | .privEsc => seconds cfg.privCooldownSeconds
  | .multiServiceAuth => seconds cfg.multiCooldownSeconds

/-- `evaluate`, dispatched on the rule. -/
def Rule.evaluate : Rule → LogEvent → List LogEvent → EventIndex → RuleConfig → UInt64 →
    Option AlertEvent × UInt64
  | .sshBruteForce => SshBruteForceRule.evaluate
  | .portScan => PortScanRule.evaluate
  | .privEsc => PrivEscRule.evaluate
  | .multiServiceAuth => MultiServiceAuthRule.evaluate

end Dlads.DetectionRules
