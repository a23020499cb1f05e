import Dlads.StringMaps
import Dlads.FloatFormat

/-!
# Log events and alerts

The two records that travel through the agent: the parsed log event and the
alert a rule makes of it. A time point or a duration is an integer number of
nanoseconds, the tick of `std::chrono::system_clock`.
-/

namespace Dlads.Records

open ByteText StringMaps FloatFormat

/-- `std::chrono::seconds`. -/
def seconds (n : ℤ) : ℤ := n * 1000000000

/-- `std::chrono::hours`. -/
def hours (n : ℤ) : ℤ := n * 3600000000000

/-- `duration_cast<seconds>(d).count()`, which truncates toward zero. -/
def wholeSeconds (d : ℤ) : ℤ := d.tdiv 1000000000

/-- `LogLevel`. -/
inductive LogLevel
  | unknown | debug | info | notice | warn | error | critical | alert | emerg
  deriving DecidableEq

/-- `LogFormat`. -/
inductive LogFormat
  | unknown | syslog | kvPairs
  deriving DecidableEq

/-- A structured log event, as `LogParser` fills it in. -/
structure LogEvent where
  /-- Wall-clock time of the event. -/
  timestamp : ℤ := 0
  /-- Hostname of the line, later overwritten with the node id. -/
  sourceHost : Bytes := []
  /-- Process or subsystem name. -/
  logSource : Bytes := []
  /-- Numeric process id, 0 when absent. -/
  pid : ℤ := 0
  /-- Severity of the line. -/
  level : LogLevel := .unknown
  /-- Which format attempt accepted the line. -/
  format : LogFormat := .unknown
  /-- The trimmed line. -/
  rawLine : Bytes := []
  /-- The message body. -/
  message : Bytes := []
  /-- Extracted key-value pairs, keys in lower case. -/
  fields : StringMap Bytes := ∅
  deriving DecidableEq

/-- `Severity`, in the order of its underlying values 1 to 4. -/
inductive Severity
  | low | medium | high | critical
  deriving DecidableEq

/-- The underlying `uint8_t` of a severity. -/
def Severity.rank : Severity → ℕ
  | .low => 1
  | .medium => 2
  | .high => 3
  | .critical => 4

/-- `to_string(Severity)`. -/
def Severity.name : Severity → Bytes
  | .low => text "LOW"
  | .medium => text "MEDIUM"
  | .high => text "HIGH"
  | .critical => text "CRITICAL"

/-- A detection result. -/
structure AlertEvent where
  /-- Identifier, from `nextId` and later prefixed with the node id. -/
  alertId : Bytes := []
  /-- Time of the event that triggered the alert. -/
  timestamp : ℤ := 0
  /-- Host of the event, later overwritten with the node id. -/
  sourceHost : Bytes := []
  /-- Rule that fired. -/
  ruleId : Bytes := []
  /-- Severity of the alert. -/
  severity : Severity := .low
  /-- Score in [0, 1]. -/
  anomalyScore : Binary32 := .finite 0
  /-- Summary for operators. -/
  description : Bytes := []
  /-- Log lines behind the alert; no rule fills it in. -/
  contributingLogIds : List Bytes := []
  /-- Rule-specific context. -/
  metadata : StringMap Bytes := ∅
  deriving DecidableEq

/-- `AlertEvent::next_id`: the text of the process-wide counter, and the
counter after its wrapping increment. -/
def nextId (counter : UInt64) : Bytes × UInt64 :=
  (text "alert-" ++ decNat counter.toNat, counter + 1)

/-- First value of the static counter in a process. -/
def firstId : UInt64 := 1

end Dlads.Records
