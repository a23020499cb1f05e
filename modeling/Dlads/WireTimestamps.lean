import Dlads.JsonReading
import Dlads.WireRoundTrip

/-!
# Timestamps from the wire

`deserialize` takes any integer for a timestamp. The count of seconds is
converted to 64 bits and multiplied by a thousand million without a check, so
it survives exactly if its nanoseconds fit; a count of milliseconds does not,
and comes out as another, plausible time.
-/

namespace Dlads.WireTimestamps

open ByteText Records AlertDatabase JsonValue AlertWire WireRoundTrip JsonReading

/-- The members that `deserialize` asks for beside the timestamp. -/
structure IsAlert (j : Json) : Prop where
  /-- An identifier. -/
  alertId : (getStr j (text "alert_id")).isSome
  /-- A rule. -/
  ruleId : (getStr j (text "rule_id")).isSome
  /-- A host. -/
  sourceHost : (getStr j (text "source_host")).isSome
  /-- A known severity. -/
  severity : ((getStr j (text "severity")).bind severityFromString).isSome

/-- The count of seconds in the timestamp field of a text, as a signed 64-bit
integer. -/
def epochSec (n : ℤ) : ℤ := wrapInt64 n

/-- What is asked of a text: if it is accepted with an integer timestamp, the
nanoseconds stay within 64 bits and the value that `serialize` prints for the
alert has the same timestamp; if the nanoseconds do not fit, it is rejected. -/
structure Survives (parse : Bytes → Option Json) (json : Bytes) : Prop where
  /-- An accepted timestamp is kept. -/
  kept : ∀ ev n, deserialize parse json = some ev → (parse json).bind getTimestamp = some n →
    IsInt64 (epochSec n * 1000000000) ∧ getTimestamp (alertJson ev) = some n
  /-- A timestamp that does not fit is rejected. -/
  rejected : ∀ n, (parse json).bind getTimestamp = some n → ¬IsInt64 (n * 1000000000) →
    deserialize parse json = none

/-- A count of seconds whose nanoseconds fit into 64 bits. -/
def Representable (n : ℤ) : Prop := -9223372036 ≤ n ∧ n ≤ 9223372036

theorem isInt64_nanoseconds_iff (n : ℤ) : IsInt64 (n * 1000000000) ↔ Representable n := by
  unfold IsInt64 Representable
  omega

/-- The seconds of a time point are those it was built from exactly if they
are representable. -/
theorem wholeSeconds_timePoint_iff (n : ℤ) :
    IsInt64 (epochSec n * 1000000000) ∧ wholeSeconds (timePoint (epochSec n)) = n ↔
      Representable n := by
  constructor
  · rintro ⟨hnano, hsame⟩
    have hback : wholeSeconds (timePoint (epochSec n)) = epochSec n := by
      rw [timePoint, wrapInt64_of hnano]
      exact wholeSeconds_seconds (epochSec n)
    rw [hback] at hsame
    rw [hsame] at hnano
    exact (isInt64_nanoseconds_iff n).mp hnano
  · intro h
    have hsec : epochSec n = n := wrapInt64_of ⟨by have := h.1; omega, by have := h.2; omega⟩
    have hnano := (isInt64_nanoseconds_iff n).mpr h
    rw [hsec, timePoint, wrapInt64_of hnano]
    exact ⟨hnano, wholeSeconds_seconds n⟩

/-- An alert with an integer timestamp is accepted, whatever the integer is. -/
theorem alertOfJson_isSome {j : Json} {n : ℤ} (h : IsAlert j) (htime : getTimestamp j = some n) :
    ∃ ev, alertOfJson j = some ev := by
  obtain ⟨alertId, hid⟩ := Option.isSome_iff_exists.mp h.alertId
  obtain ⟨ruleId, hrule⟩ := Option.isSome_iff_exists.mp h.ruleId
  obtain ⟨sourceHost, hhost⟩ := Option.isSome_iff_exists.mp h.sourceHost
  obtain ⟨severity, hsev⟩ := Option.isSome_iff_exists.mp h.severity
  have hobject : j.isObject = true := by
    cases j with
    | obj members => rfl
    | _ => cases hid
  simp only [alertOfJson, hobject, hid, hrule, hhost, hsev, htime, Bool.not_true,
    Bool.false_eq_true, if_false]
  exact ⟨_, rfl⟩

/-- A value that is accepted is an alert. -/
theorem isAlert_of_some {j : Json} {ev : AlertEvent} (h : alertOfJson j = some ev) :
    IsAlert j := by
  unfold alertOfJson at h
  split at h
  · cases h
  · split at h
    · next hid hrule hhost hsev htime =>
      exact ⟨by rw [hid]; rfl, by rw [hrule]; rfl, by rw [hhost]; rfl, by rw [hsev]; rfl⟩
    · cases h

/-- The timestamp of an accepted value, and the one printed for its alert. -/
theorem getTimestamp_alertJson {j : Json} {ev : AlertEvent} (h : alertOfJson j = some ev) {n : ℤ}
    (htime : getTimestamp j = some n) :
    getTimestamp (alertJson ev) = some (wholeSeconds (timePoint (epochSec n))) := by
  obtain ⟨m, hm, -, -, -, hstamp, -⟩ := alertOfJson_some h
  rw [htime] at hm
  cases hm
  have hprinted : getTimestamp (alertJson ev) = some (wholeSeconds ev.timestamp) := rfl
  rw [hprinted, hstamp]
  rfl

/-- The timestamp of a text survives exactly if the text is no alert or the
timestamp is representable. -/
theorem survives_iff (parse : Bytes → Option Json) (json : Bytes) : Survives parse json ↔
    ∀ j n, json ≠ [] → parse json = some j → IsAlert j → getTimestamp j = some n →
      Representable n := by
  constructor
  · intro h j n hne hparse hj htime
    obtain ⟨ev, hev⟩ := alertOfJson_isSome hj htime
    have haccept : deserialize parse json = some ev := by
      rw [deserialize, if_neg (by simpa using hne), hparse, Option.bind_some, hev]
    obtain ⟨hnano, hsame⟩ := h.kept ev n haccept (by rw [hparse, Option.bind_some, htime])
    rw [getTimestamp_alertJson hev htime, Option.some.injEq] at hsame
    exact (wholeSeconds_timePoint_iff n).mp ⟨hnano, hsame⟩
  · intro h
    have hfits : ∀ ev n, deserialize parse json = some ev →
        (parse json).bind getTimestamp = some n →
        ∃ j, alertOfJson j = some ev ∧ getTimestamp j = some n ∧ Representable n := by
      intro ev n haccept hstamp
      obtain ⟨j, hparse, htime⟩ := Option.bind_eq_some_iff.mp hstamp
      unfold deserialize at haccept
      split at haccept
      · cases haccept
      · next hne =>
        rw [hparse, Option.bind_some] at haccept
        exact ⟨j, haccept, htime,
          h j n (by simpa using hne) hparse (isAlert_of_some haccept) htime⟩
    refine ⟨fun ev n haccept hstamp => ?_, fun n hstamp hlarge => ?_⟩
    · obtain ⟨j, hev, htime, hfit⟩ := hfits ev n haccept hstamp
      obtain ⟨hnano, hsame⟩ := (wholeSeconds_timePoint_iff n).mpr hfit
      exact ⟨hnano, by rw [getTimestamp_alertJson hev htime, hsame]⟩
    · cases haccept : deserialize parse json with
      | none => rfl
      | some ev =>
        obtain ⟨-, -, -, hfit⟩ := hfits ev n haccept hstamp
        exact absurd ((isInt64_nanoseconds_iff n).mpr hfit) hlarge

/-- An alert whose timestamp counts milliseconds. -/
def millisecondsText : Bytes :=
  text "\x7b\"alert_id\":\"node-1-alert-1\",\"rule_id\":\"SSH_BRUTE_FORCE\"," ++
    text "\"severity\":\"HIGH\",\"source_host\":\"node-1\",\"timestamp\":1700000000000\x7d"

/-- The text is accepted, its nanoseconds do not fit, and the timestamp comes
out as one of the year 2061. -/
theorem milliseconds_accepted :
    (deserialize readJson millisecondsText).map (fun ev => wholeSeconds ev.timestamp) =
      some 2899545218 ∧
    (readJson millisecondsText).bind getTimestamp = some 1700000000000 ∧
    ¬Survives readJson millisecondsText := by
  have haccept : (deserialize readJson millisecondsText).map
      (fun ev => wholeSeconds ev.timestamp) = some 2899545218 := by
    decide +kernel
  have hstamp : (readJson millisecondsText).bind getTimestamp = some 1700000000000 := by
    decide +kernel
  refine ⟨haccept, hstamp, fun h => ?_⟩
  have hnone := h.rejected 1700000000000 hstamp (by
    rw [isInt64_nanoseconds_iff]
    exact fun hfit => absurd hfit.2 (by decide))
  rw [hnone] at haccept
  cases haccept

end Dlads.WireTimestamps
