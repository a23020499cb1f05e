import Dlads.AlertDatabase
import Dlads.JsonValue

/-!
# Alerts on the wire

`serialize` turns an alert into a JSON value and prints it; `deserialize`
parses a text and takes an alert out of the value. Printing and parsing are
the JSON library's and are parameters: a printer that throws returns nothing,
and so does a parser that rejects its text. The strings of the printed value
are those of the alert and some ASCII names.
-/

namespace Dlads.AlertWire

open ByteText StringMaps FloatFormat Records AlertDatabase Utf8Text JsonValue

/-- The JSON number of a score; a non-finite one would be printed as `null`. -/
def scoreJson : Binary32 → Json
  | .finite value => .real value
  | _ => .null

/-- The JSON object of a string map. -/
def metadataJson (m : StringMap Bytes) : Json :=
  .obj ((m.keys.sort (· ≤ ·)).map fun k => (k, .str ((m.lookup k).getD [])))

/-- The value that `serialize` prints, its members in the order of their names. -/
def alertJson (ev : AlertEvent) : Json :=
  .obj
    [(text "alert_id", .str ev.alertId),
      (text "anomaly_score", scoreJson (sentScore ev.anomalyScore)),
      (text "contributing_log_ids", .arr (ev.contributingLogIds.map .str)),
      (text "description", .str ev.description),
      (text "metadata", metadataJson ev.metadata),
      (text "rule_id", .str ev.ruleId),
      (text "severity", .str ev.severity.name),
      (text "source_host", .str ev.sourceHost),
      (text "timestamp", .int (wholeSeconds ev.timestamp))]

/-- `serialize(ev)`; it throws where the printer does. -/
def serialize (dump : Json → Option Bytes) (ev : AlertEvent) : Option Bytes := dump (alertJson ev)

/-- `severity_from_string`. -/
def severityFromString (s : Bytes) : Option Severity :=
  if s = text "LOW" then some .low
  else if s = text "MEDIUM" then some .medium
  else if s = text "HIGH" then some .high
  else if s = text "CRITICAL" then some .critical
  else none

/-- A signed 64-bit result, wrapped around. -/
def wrapInt64 (n : ℤ) : ℤ := n.bmod 18446744073709551616

/-- The time point that many seconds after the epoch, in 64-bit nanoseconds. -/
def timePoint (epochSec : ℤ) : ℤ := wrapInt64 (epochSec * 1000000000)

/-- `get_str(key)`. -/
def getStr (j : Json) (key : Bytes) : Option Bytes := (j.find key).bind Json.str?

/-- The timestamp field, which has to be an integer. -/
def getTimestamp (j : Json) : Option ℤ :=
  match j.find (text "timestamp") with
  | some (.int n) => some n
  | _ => none

/-- The score taken from a member: narrowed to single precision and clamped,
0 when it is missing, no number or not finite. -/
def scoreOf : Option Json → Binary32
  | some (.int n) => sentScore (ofInt n)
  | some (.real q) => sentScore (roundBinary32 q)
  | _ => .finite 0

/-- The strings among the items of an array. -/
def logIdsOf : Option Json → List Bytes
  | some (.arr items) => items.filterMap Json.str?
  | _ => []

/-- Emplace a member that is a string. -/
def emplaceText (m : StringMap Bytes) (member : Bytes × Json) : StringMap Bytes :=
  match member.2.str? with
  | some value => emplace m member.1 value
  | none => m

/-- The strings among the members of an object. -/
def metadataOf : Option Json → StringMap Bytes
  | some (.obj members) => members.foldl emplaceText ∅
  | _ => ∅

/-- What `deserialize` does with a parsed value. -/
def alertOfJson (j : Json) : Option AlertEvent :=
  if !j.isObject then none
  else
    match getStr j (text "alert_id"), getStr j (text "rule_id"), getStr j (text "source_host"),
        (getStr j (text "severity")).bind severityFromString, getTimestamp j with
    | some alertId, some ruleId, some sourceHost, some severity, some epochSec =>
      some
        { alertId := alertId
          timestamp := timePoint (wrapInt64 epochSec)
          sourceHost := sourceHost
          ruleId := ruleId
          severity := severity
          anomalyScore := scoreOf (j.find (text "anomaly_score"))
          description := (getStr j (text "description")).getD []
          contributingLogIds := logIdsOf (j.find (text "contributing_log_ids"))
          metadata := metadataOf (j.find (text "metadata")) }
    | _, _, _, _, _ => none

/-- `deserialize(json)`. -/
def deserialize (parse : Bytes → Option Json) (json : Bytes) : Option AlertEvent :=
  if json.isEmpty then none else (parse json).bind alertOfJson

section strings

/-- An alert all of whose texts are valid UTF-8. -/
structure AlertUtf8 (ev : AlertEvent) : Prop where
  /-- The identifier is valid. -/
  alertId : IsUtf8 ev.alertId
  /-- The host is valid. -/
  sourceHost : IsUtf8 ev.sourceHost
  /-- The rule is valid. -/
  ruleId : IsUtf8 ev.ruleId
  /-- The summary is valid. -/
  description : IsUtf8 ev.description
  /-- The log lines are valid. -/
  contributingLogIds : ∀ id ∈ ev.contributingLogIds, IsUtf8 id
  /-- The context is valid, names and texts. -/
  metadata : ∀ k v, ev.metadata.lookup k = some v → IsUtf8 k ∧ IsUtf8 v

theorem strings_scoreJson (score : Binary32) : (scoreJson score).strings = [] := by
  cases score <;> rfl

theorem mem_strings_metadataJson (m : StringMap Bytes) (s : Bytes) :
    s ∈ (metadataJson m).strings ↔ ∃ k v, m.lookup k = some v ∧ (s = k ∨ s = v) := by
  rw [metadataJson, Json.strings, mem_memberStrings_map_str]
  constructor
  · rintro ⟨k, hk, h⟩
    obtain ⟨v, hv⟩ := Finmap.mem_iff.mp (Finmap.mem_keys.mp ((Finset.mem_sort _).mp hk))
    exact ⟨k, v, hv, by rwa [hv] at h⟩
  · rintro ⟨k, v, hv, h⟩
    have hk : k ∈ m.keys := Finmap.mem_keys.mpr (Finmap.mem_iff.mpr ⟨v, hv⟩)
    exact ⟨k, (Finset.mem_sort _).mpr hk, by rwa [hv]⟩

theorem isUtf8_severity (severity : Severity) : IsUtf8 severity.name := by
  cases severity <;> exact isUtf8_text _ (by decide)

/-- A strict printer accepts an alert exactly if all its texts are valid. -/
theorem allUtf8_alertJson (ev : AlertEvent) : (alertJson ev).AllUtf8 ↔ AlertUtf8 ev := by
  have hsev := isUtf8_severity ev.severity
  have hlist : (alertJson ev).strings =
      [text "alert_id", ev.alertId, text "anomaly_score", text "contributing_log_ids"] ++
        ev.contributingLogIds ++ [text "description", ev.description, text "metadata"] ++
        (metadataJson ev.metadata).strings ++
        [text "rule_id", ev.ruleId, text "severity", ev.severity.name, text "source_host",
          ev.sourceHost, text "timestamp"] := by
    simp [alertJson, Json.strings, memberStrings, strings_scoreJson, itemStrings_map_str]
  rw [Json.AllUtf8, hlist]
  simp only [List.mem_append, List.mem_cons, List.not_mem_nil, or_false,
    mem_strings_metadataJson]
  constructor
  · intro h
    refine ⟨h _ ?_, h _ ?_, h _ ?_, h _ ?_, fun id hid => h id (by tauto), fun k v hv => ⟨?_, ?_⟩⟩
    · tauto
    · tauto
    · tauto
    · tauto
    · exact h k (.inl (.inr ⟨k, v, hv, .inl rfl⟩))
    · exact h v (.inl (.inr ⟨k, v, hv, .inr rfl⟩))
  · rintro h s ((((hs | hs) | hs) | ⟨k, v, hv, hs⟩) | hs)
    · rcases hs with rfl | rfl | rfl | rfl
      · exact isUtf8_text _ (by decide)
      · exact h.alertId
      · exact isUtf8_text _ (by decide)
      · exact isUtf8_text _ (by decide)
    · exact h.contributingLogIds s hs
    · rcases hs with rfl | rfl | rfl
      · exact isUtf8_text _ (by decide)
      · exact h.description
      · exact isUtf8_text _ (by decide)
    · rcases hs with rfl | rfl
      · exact (h.metadata _ _ hv).1
      · exact (h.metadata _ _ hv).2
    · rcases hs with rfl | rfl | rfl | rfl | rfl | rfl | rfl
      · exact isUtf8_text _ (by decide)
      · exact h.ruleId
      · exact isUtf8_text _ (by decide)
      · exact hsev
      · exact isUtf8_text _ (by decide)
      · exact h.sourceHost
      · exact isUtf8_text _ (by decide)

end strings

end Dlads.AlertWire
