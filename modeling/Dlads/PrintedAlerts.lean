import Dlads.DecimalPrinting
import Dlads.JsonValidity
import Dlads.PublishedTexts
import Dlads.WireRoundTrip

/-!
# Alerts printed and parsed

What the programs ask of the JSON library, and what becomes of an alert on the
way from `serialize` to `deserialize` then. The library has integers of 64 bits
and floating-point numbers, so that it is only asked to parse back values whose
numbers are of these kinds. The value of an alert is one if its seconds since
the epoch fit; its other number is a clamped score.
-/

namespace Dlads.PrintedAlerts

open ByteText Utf8Text StringMaps FloatFormat Records AlertDatabase JsonValue JsonPrinting
open JsonReading JsonRoundTrip DecimalPrinting AlertWire WireRoundTrip
open PublishedTexts (Strict)

/-- The JSON library that the programs call. -/
structure JsonLibrary where
  /-- `dump()`, nothing where it throws. -/
  dump : Json → Option Bytes
  /-- `parse(text)`, nothing where it throws. -/
  parse : Bytes → Option Json

section trips

/-- A value whose numbers every library holds: integers in 64 bits, and values
of single precision. -/
def Portable : Json → Prop := Formed IsInt64 IsValue

/-- A value whose numbers are integers in 64 bits. -/
def Whole : Json → Prop := Formed IsInt64 fun _ => False

/-- What the programs rely on: printing throws exactly on strings that are not
valid UTF-8, and what is printed for a portable value is parsed back. -/
structure Sane (lib : JsonLibrary) : Prop where
  /-- `dump` throws on invalid strings only, and on all of them. -/
  strict : Strict lib.dump
  /-- `parse` inverts `dump` on portable values. -/
  inverts : ∀ j, Portable j → Inverts lib.dump lib.parse j

/-- An alert whose JSON value is portable. -/
structure Sendable (alert : AlertEvent) : Prop where
  /-- Its score is one of the format. -/
  score : alert.anomalyScore.WellFormed
  /-- Its seconds since the epoch fit in 64 bits. -/
  time : IsInt64 (wholeSeconds alert.timestamp)

/-- An alert as it arrives: the timestamp cut to whole seconds, in 64 bits,
and the score clamped and rounded. -/
def asReceived (alert : AlertEvent) : AlertEvent :=
  { alert with
    timestamp := timePoint (wrapInt64 (wholeSeconds alert.timestamp))
    anomalyScore := scoreOf (some (scoreJson (sentScore alert.anomalyScore))) }

/-- An alert is taken out of its own JSON value, whatever its time and score. -/
theorem alertOfJson_sent (alert : AlertEvent) :
    alertOfJson (alertJson alert) = some (asReceived alert) := by
  have hsev : (getStr (alertJson alert) (text "severity")).bind severityFromString =
      some alert.severity := severityFromString_name alert.severity
  have hids : logIdsOf ((alertJson alert).find (text "contributing_log_ids")) =
      alert.contributingLogIds := filterMap_str_map alert.contributingLogIds
  have hmeta : metadataOf ((alertJson alert).find (text "metadata")) = alert.metadata :=
    metadataOf_metadataJson alert.metadata
  have hscore : (alertJson alert).find (text "anomaly_score") =
      some (scoreJson (sentScore alert.anomalyScore)) := rfl
  have hid : getStr (alertJson alert) (text "alert_id") = some alert.alertId := rfl
  have hrule : getStr (alertJson alert) (text "rule_id") = some alert.ruleId := rfl
  have hhost : getStr (alertJson alert) (text "source_host") = some alert.sourceHost := rfl
  have hseconds : getTimestamp (alertJson alert) = some (wholeSeconds alert.timestamp) := rfl
  have hdescription : getStr (alertJson alert) (text "description") = some alert.description := rfl
  have hobject : (alertJson alert).isObject = true := rfl
  simp only [alertOfJson, hobject, hid, hrule, hhost, hsev, hseconds, hscore, hdescription, hids,
    hmeta, Option.getD_some, Bool.not_true, Bool.false_eq_true, if_false, asReceived]

/-- The value of an alert that can be sent is portable. -/
theorem portable_alertJson {alert : AlertEvent} (h : Sendable alert) :
    Portable (alertJson alert) := by
  obtain ⟨v, hv, hvalue, -, -⟩ := sentScore_spec h.score
  have hids : FormedItems IsInt64 IsValue (alert.contributingLogIds.map .str) := by
    refine formedItems_iff.mpr fun item hitem => ?_
    obtain ⟨id, -, rfl⟩ := List.mem_map.mp hitem
    trivial
  have hmeta : Portable (metadataJson alert.metadata) := by
    have hsorted : (alert.metadata.keys.sort (· ≤ ·)).Pairwise (· < ·) :=
      ((Finset.pairwise_sort alert.metadata.keys (· ≤ ·)).and
        (Finset.sort_nodup alert.metadata.keys (· ≤ ·))).imp fun h => Std.lt_of_le_of_ne h.1 h.2
    refine ⟨?_, formedMembers_iff.mpr fun m hm => ?_⟩
    · rw [List.map_map]
      exact hsorted.map _ fun _ _ h => h
    · obtain ⟨k, -, rfl⟩ := List.mem_map.mp hm
      trivial
  have hnumber : Portable (scoreJson (sentScore alert.anomalyScore)) := by
    rw [hv]
    exact hvalue
  have hnames : [text "alert_id", text "anomaly_score", text "contributing_log_ids",
      text "description", text "metadata", text "rule_id", text "severity", text "source_host",
      text "timestamp"].Pairwise (· < ·) := by decide
  exact ⟨hnames, trivial, hnumber, hids, trivial, hmeta, trivial, trivial, trivial, h.time, trivial⟩

/-- An alert that came out of a value can be sent. -/
theorem sendable_of_json {j : Json} {alert : AlertEvent} (h : alertOfJson j = some alert) :
    Sendable alert := by
  obtain ⟨epochSec, -, -, -, -, htime, hscore, -⟩ := alertOfJson_some h
  obtain ⟨score, hwf, hsent⟩ := scoreOf_sent (j.find (text "anomaly_score"))
  obtain ⟨v, hv, hvalue, -⟩ := sentScore_spec hwf
  constructor
  · rw [hscore, hsent, hv]
    exact hvalue
  · rw [htime]
    exact (wholeSeconds_bounds (isInt64_wrapInt64 _)).1

variable {lib : JsonLibrary}

/-- The text of an alert is deserialized to the alert as it arrives. -/
theorem Sane.deserialize (h : Sane lib) {alert : AlertEvent} (halert : Sendable alert)
    {raw : Bytes} (hraw : serialize lib.dump alert = some raw) :
    deserialize lib.parse raw = some (asReceived alert) := by
  have hvalid : (alertJson alert).AllUtf8 :=
    (h.strict (alertJson alert)).mp (Option.isSome_of_eq_some hraw)
  obtain ⟨json, hdump, hne, hparse⟩ := h.inverts _ (portable_alertJson halert) hvalid
  cases hdump.symm.trans hraw
  have hempty : raw.isEmpty = false := by simpa using hne
  rw [AlertWire.deserialize, hempty, hparse]
  exact alertOfJson_sent alert

/-- Of the texts of alerts each is deserialized, in order. -/
theorem Sane.filterMap_deserialize (h : Sane lib) {alerts : List AlertEvent}
    (halerts : ∀ alert ∈ alerts, Sendable alert) :
    ((alerts.filterMap (serialize lib.dump)).filterMap (AlertWire.deserialize lib.parse)).Sublist
        (alerts.map asReceived) ∧
      ((alerts.filterMap (serialize lib.dump)).filterMap
        (AlertWire.deserialize lib.parse)).length =
          (alerts.filterMap (serialize lib.dump)).length := by
  induction alerts with
  | nil => exact ⟨.slnil, rfl⟩
  | cons alert rest ih =>
    obtain ⟨halert, hrest⟩ := List.forall_mem_cons.mp halerts
    obtain ⟨hsublist, hlength⟩ := ih hrest
    cases hraw : serialize lib.dump alert with
    | none =>
      rw [List.filterMap_cons_none hraw, List.map_cons]
      exact ⟨hsublist.cons _, hlength⟩
    | some raw =>
      rw [List.filterMap_cons_some hraw, List.filterMap_cons_some (h.deserialize halert hraw),
        List.map_cons, List.length_cons, List.length_cons, hlength]
      exact ⟨hsublist.cons_cons _, rfl⟩

end trips

section standard

/-- What the library that the programs are built with is documented to do. -/
structure StandardLibrary (lib : JsonLibrary) (real : ℚ → Bytes) : Prop where
  /-- The programs can rely on it. -/
  sane : Sane lib
  /-- `dump` prints compact text. -/
  dump : Standard real lib.dump
  /-- `parse` takes valid UTF-8 only. -/
  valid : ∀ raw j, lib.parse raw = some j → j.AllUtf8
  /-- `parse` takes text of the standard grammar, at least if its numbers are
  integers in 64 bits. -/
  reads : ∀ raw j, readJson raw = some j → Whole j → lib.parse raw = some j

/-- A printer of standard text that writes out single-precision numbers, and the
strict reader. No library of 64-bit integers behaves like it on all texts: the
reader holds integers of any size, and takes neither a byte order mark nor
anything behind the value. -/
def standardLibrary : JsonLibrary where
  dump := fun j => if j.AllUtf8 then some (compact decimal j) else none
  parse := readJson

theorem standard_standardLibrary : StandardLibrary standardLibrary decimal where
  sane := by
    refine ⟨fun j => ?_, fun j hj hvalid => ?_⟩
    · unfold standardLibrary
      dsimp only
      split <;> simp [*]
    · have htidy : Tidy decimal j :=
        Formed.mono (fun _ _ => trivial) (fun _ => printsReal_of_isValue) j hj
      exact ⟨compact decimal j, if_pos hvalid, compact_ne_nil htidy,
        readJson_compact htidy hvalid⟩
  dump := fun _ => rfl
  valid := fun _ _ h => JsonValidity.allUtf8_readJson h
  reads := fun _ _ h _ => h

theorem sane_standardLibrary : Sane standardLibrary := standard_standardLibrary.sane

end standard

end Dlads.PrintedAlerts
