import Dlads.AlertWire

/-!
# Suricata's event lines

`SuricataAdapter::parse_eve_line` makes an alert of a JSON line whose event
type is `alert` and skips all others. The JSON library, the reading of a
timestamp by the C library and the clock are parameters. Taking a string out
of a member that is none throws, which is an outcome of its own.
-/

namespace Dlads.EveLines

open ByteText StringMaps FloatFormat Records JsonValue AlertWire

/-- What the adapter calls and does not define. -/
structure EveHost where
  /-- `json::parse`, nothing where it throws. -/
  parse : Bytes → Option Json
  /-- `strptime` with `%Y-%m-%dT%H:%M:%S` and then `timegm`, nothing where
  `strptime` fails. -/
  utcSeconds : Bytes → Option ℤ
  /-- `source_host_`. -/
  sourceHost : Bytes

/-- What becomes of a line. -/
inductive Conversion
  /-- It returns false. -/
  | skipped
  /-- It throws. -/
  | thrown
  /-- It returns true, with the alert. -/
  | converted (alert : AlertEvent)

/-- A conversion to 32-bit `int`, wrapped around. -/
def wrapInt32 (n : ℤ) : ℤ := n.bmod 4294967296

/-- The integer a value holds, as an `int`. -/
def intOf : Option Json → Option ℤ
  | some (.int n) => some (wrapInt32 n)
  | _ => none

/-- `map_severity`. -/
def mapSeverity (s : ℤ) : Severity :=
  if s = 1 then .critical else if s = 2 then .high else if s = 3 then .medium else .low

/-- The time of the event, or of the conversion when it cannot be read. -/
def eveTimestamp (host : EveHost) (now : ℤ) (j : Json) : ℤ :=
  match getStr j (text "timestamp") with
  | none => now
  | some ts =>
    match host.utcSeconds (cStr ts) with
    | some t => timePoint t
    | none => now

/-- Store a non-empty text under its name. -/
def putField (m : StringMap Bytes) (name value : Bytes) : StringMap Bytes :=
  if value.isEmpty then m else assign m name value

/-- `get_str_field(key)`. -/
def strField (j : Json) (key : Bytes) : Bytes := (getStr j key).getD []

/-- `get_int_field(key)`. -/
def intField (j : Json) (key : Bytes) : Bytes :=
  match intOf (j.find key) with
  | some n => dec n
  | none => []

/-- The metadata of the alert. -/
def eveMetadata (j signature : Json) : StringMap Bytes :=
  let m := match getStr signature (text "category") with
    | some category => assign ∅ (text "category") category
    | none => ∅
  let m := putField m (text "src_ip") (strField j (text "src_ip"))
  let m := putField m (text "dest_ip") (strField j (text "dest_ip"))
  let m := putField m (text "src_port") (intField j (text "src_port"))
  let m := putField m (text "dest_port") (intField j (text "dest_port"))
  let m := putField m (text "proto") (strField j (text "proto"))
  assign m (text "ids_source") (text "suricata")

/-- The score `max(0.0f, 1.0f - (severity - 1) * 0.25f)`. -/
def eveScore (severity : ℤ) : Binary32 :=
  maximum (.finite 0)
    (subtract (.finite 1) (multiply (ofInt (wrapInt32 (severity - 1))) (.finite (1 / 4))))

/-- The alert of an event and its `alert` object. -/
def eveAlert (host : EveHost) (now : ℤ) (j signature : Json) (id : Bytes) : AlertEvent :=
  let severity := (intOf (signature.find (text "severity"))).getD 3
  { alertId := id
    timestamp := eveTimestamp host now j
    sourceHost := host.sourceHost
    ruleId := match intOf (signature.find (text "signature_id")) with
      | some sid => text "suricata-" ++ dec sid
      | none => text "suricata-unknown"
    severity := mapSeverity severity
    anomalyScore := eveScore severity
    description := (getStr signature (text "signature")).getD []
    metadata := eveMetadata j signature }

/-- `parse_eve_line`: what becomes of a line, and the id counter. -/
def parseEveLine (host : EveHost) (now : ℤ) (counter : UInt64) (line : Bytes) :
    Conversion × UInt64 :=
  match host.parse line with
  | none => (.skipped, counter)
  | some j =>
    match j.find (text "event_type") with
    | none => (.skipped, counter)
    | some eventType =>
      match eventType.str? with
      | none => (.thrown, counter)
      | some kind =>
        if kind ≠ text "alert" then (.skipped, counter)
        else
          match j.find (text "alert") with
          | none => (.skipped, counter)
          | some signature =>
            if !signature.isObject then (.skipped, counter)
            else
              (.converted (eveAlert host now j signature (nextId counter).1), (nextId counter).2)

end Dlads.EveLines
