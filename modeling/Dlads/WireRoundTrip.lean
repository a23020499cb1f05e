import Dlads.AlertWire
import Dlads.FloatRounding

/-!
# Round trip on the wire

What `deserialize` takes out of the text of `serialize` is the alert with its
timestamp cut to whole seconds and its score clamped. An alert that came out
of `deserialize` is changed by neither, so it survives any further trip
unchanged. The JSON library is only asked to parse back what it has printed
for the alert in question.
-/

namespace Dlads.WireRoundTrip

open ByteText StringMaps FloatFormat Records AlertDatabase Utf8Text JsonValue AlertWire

/-- A count of nanoseconds that a 64-bit time point holds. -/
def IsInt64 (t : ℤ) : Prop := -9223372036854775808 ≤ t ∧ t < 9223372036854775808

/-- The library prints a value whose strings are valid UTF-8, and parses the
text back to it. -/
def Inverts (dump : Json → Option Bytes) (parse : Bytes → Option Json) (j : Json) : Prop :=
  j.AllUtf8 → ∃ json, dump j = some json ∧ json ≠ [] ∧ parse json = some j

section scores

/-- A clamped score lies in [0, 1] and is one that single precision holds. -/
theorem sentScore_spec {score : Binary32} (h : score.WellFormed) :
    ∃ v, sentScore score = .finite v ∧ IsValue v ∧ 0 ≤ v ∧ v ≤ 1 := by
  have hzero : IsValue 0 := isValue_int (n := 0) (by norm_num)
  have hone : IsValue 1 := isValue_int (n := 1) (by norm_num)
  cases score with
  | nan => exact ⟨0, rfl, hzero, le_refl 0, zero_le_one⟩
  | inf negative => exact ⟨0, rfl, hzero, le_refl 0, zero_le_one⟩
  | finite v =>
    simp only [sentScore, minimum, maximum, less, decide_eq_true_eq]
    by_cases hv : v < 1
    · by_cases hp : 0 < v
      · exact ⟨v, by simp [hv, hp], h, hp.le, hv.le⟩
      · exact ⟨0, by simp [hv, hp], hzero, le_refl 0, zero_le_one⟩
    · exact ⟨1, by simp [hv], hone, zero_le_one, le_refl 1⟩

/-- A score in [0, 1] is sent as it is. -/
theorem sentScore_of_mem {v : ℚ} (h0 : 0 ≤ v) (h1 : v ≤ 1) :
    sentScore (.finite v) = .finite v := by
  simp only [sentScore, minimum, maximum, less, decide_eq_true_eq]
  obtain hv | rfl := lt_or_eq_of_le h1
  · obtain hp | rfl := lt_or_eq_of_le h0
    · simp [hv, hp]
    · simp
  · simp

/-- A clamped score is read back from the number it is sent as. -/
theorem scoreOf_scoreJson {score : Binary32} (h : score.WellFormed) :
    scoreOf (some (scoreJson (sentScore score))) = sentScore score := by
  obtain ⟨v, hv, hvalue, h0, h1⟩ := sentScore_spec h
  rw [hv, scoreJson, scoreOf, hvalue.round]
  exact sentScore_of_mem h0 h1

/-- A score that was read back is a clamped one. -/
theorem scoreOf_sent (j : Option Json) : ∃ score : Binary32, score.WellFormed ∧
    scoreOf j = sentScore score := by
  unfold scoreOf
  split
  · exact ⟨_, roundBinary32_wellFormed _, rfl⟩
  · exact ⟨_, roundBinary32_wellFormed _, rfl⟩
  · exact ⟨.nan, trivial, rfl⟩

end scores

section times

theorem wrapInt64_of {n : ℤ} (h : IsInt64 n) : wrapInt64 n = n := by
  obtain ⟨hlow, hhigh⟩ := h
  unfold wrapInt64
  rw [Int.bmod_eq_of_le] <;> omega

theorem isInt64_wrapInt64 (n : ℤ) : IsInt64 (wrapInt64 n) :=
  ⟨Int.le_bmod (by decide), Int.bmod_lt (by decide)⟩

/-- Cutting to whole seconds does not leave the range. -/
theorem wholeSeconds_bounds {t : ℤ} (h : IsInt64 t) :
    IsInt64 (wholeSeconds t) ∧ IsInt64 (wholeSeconds t * 1000000000) := by
  obtain ⟨hlow, hhigh⟩ := h
  unfold wholeSeconds IsInt64
  obtain ht | ht := le_total 0 t
  · rw [Int.tdiv_eq_ediv_of_nonneg ht]
    omega
  · have hneg : t.tdiv 1000000000 = -(-t).tdiv 1000000000 := by rw [Int.neg_tdiv, neg_neg]
    rw [hneg, Int.tdiv_eq_ediv_of_nonneg (by omega)]
    omega

/-- A timestamp is read back cut to whole seconds. -/
theorem timePoint_wholeSeconds {t : ℤ} (h : IsInt64 t) :
    timePoint (wrapInt64 (wholeSeconds t)) = seconds (wholeSeconds t) := by
  obtain ⟨hs, hn⟩ := wholeSeconds_bounds h
  rw [timePoint, wrapInt64_of hs, wrapInt64_of hn, seconds]

theorem wholeSeconds_seconds (n : ℤ) : wholeSeconds (seconds n) = n :=
  Int.mul_tdiv_cancel n (by decide)

end times

section maps

/-- The first text under a name among the members. -/
def firstText (members : List (Bytes × Json)) (k : Bytes) : Option Bytes :=
  members.findSome? fun member => if member.1 = k then member.2.str? else none

/-- Emplacing keeps what is there and the first text of each name. -/
theorem lookup_metadataOf (members : List (Bytes × Json)) (k : Bytes) :
    (metadataOf (some (.obj members))).lookup k = firstText members k := by
  have hfold : ∀ m : StringMap Bytes, (members.foldl emplaceText m).lookup k =
      (m.lookup k).or (firstText members k) := by
    induction members with
    | nil => exact fun m => (Option.or_none).symm
    | cons member rest ih =>
      intro m
      rw [List.foldl_cons, ih, firstText, firstText, List.findSome?_cons, emplaceText]
      cases hs : member.2.str? with
      | none => simp
      | some value =>
        simp only [lookup_emplace]
        by_cases hk : k = member.1
        · rw [if_pos hk, if_pos hk.symm, ← hk]
          cases m.lookup k <;> rfl
        · rw [if_neg hk, if_neg (Ne.symm hk)]
  refine (hfold ∅).trans ?_
  rw [Finmap.lookup_empty, Option.none_or]

theorem firstText_map_str (value : Bytes → Bytes) (keys : List Bytes) (k : Bytes) :
    firstText (keys.map fun k => (k, .str (value k))) k =
      if k ∈ keys then some (value k) else none := by
  induction keys with
  | nil => rfl
  | cons key rest ih =>
    rw [firstText, List.map_cons, List.findSome?_cons]
    by_cases hk : key = k
    · simp [hk, Json.str?]
    · simp only [hk, if_false]
      rw [← firstText, ih]
      simp [Ne.symm hk]

/-- The metadata map is read back whole. -/
theorem metadataOf_metadataJson (m : StringMap Bytes) : metadataOf (some (metadataJson m)) = m := by
  refine Finmap.ext_lookup fun k => ?_
  have hmem : k ∈ m.keys.sort (· ≤ ·) ↔ k ∈ m := by rw [Finset.mem_sort, Finmap.mem_keys]
  rw [metadataJson, lookup_metadataOf, firstText_map_str]
  cases hk : m.lookup k with
  | none => rw [if_neg fun h => Finmap.lookup_eq_none.mp hk (hmem.mp h)]
  | some v => rw [if_pos (hmem.mpr (Finmap.mem_iff.mpr ⟨v, hk⟩)), Option.getD_some]

end maps

section alerts

theorem severityFromString_name (severity : Severity) :
    severityFromString severity.name = some severity := by
  cases severity <;> rfl

/-- An alert is taken out of its own JSON value, seconds and score cut. -/
theorem alertOfJson_alertJson {ev : AlertEvent} (hscore : ev.anomalyScore.WellFormed)
    (htime : IsInt64 ev.timestamp) : alertOfJson (alertJson ev) = some (overWire ev) := by
  have hsev : (getStr (alertJson ev) (text "severity")).bind severityFromString =
      some ev.severity := severityFromString_name ev.severity
  have hids : logIdsOf ((alertJson ev).find (text "contributing_log_ids")) =
      ev.contributingLogIds := filterMap_str_map ev.contributingLogIds
  have hmeta : metadataOf ((alertJson ev).find (text "metadata")) = ev.metadata :=
    metadataOf_metadataJson ev.metadata
  have hsent : scoreOf ((alertJson ev).find (text "anomaly_score")) = sentScore ev.anomalyScore :=
    scoreOf_scoreJson hscore
  have hid : getStr (alertJson ev) (text "alert_id") = some ev.alertId := rfl
  have hrule : getStr (alertJson ev) (text "rule_id") = some ev.ruleId := rfl
  have hhost : getStr (alertJson ev) (text "source_host") = some ev.sourceHost := rfl
  have hseconds : getTimestamp (alertJson ev) = some (wholeSeconds ev.timestamp) := rfl
  have hdescription : getStr (alertJson ev) (text "description") = some ev.description := rfl
  have hobject : (alertJson ev).isObject = true := rfl
  simp only [alertOfJson, hobject, hid, hrule, hhost, hsev, hseconds, hsent, hdescription, hids,
    hmeta, timePoint_wholeSeconds htime, Option.getD_some, Bool.not_true, Bool.false_eq_true,
    if_false, overWire]

/-- What `deserialize` returns, member by member. -/
theorem alertOfJson_some {j : Json} {ev : AlertEvent} (h : alertOfJson j = some ev) :
    ∃ epochSec, getTimestamp j = some epochSec ∧
      getStr j (text "alert_id") = some ev.alertId ∧ getStr j (text "rule_id") = some ev.ruleId ∧
      getStr j (text "source_host") = some ev.sourceHost ∧
      ev.timestamp = timePoint (wrapInt64 epochSec) ∧
      ev.anomalyScore = scoreOf (j.find (text "anomaly_score")) ∧
      ev.description = (getStr j (text "description")).getD [] ∧
      ev.contributingLogIds = logIdsOf (j.find (text "contributing_log_ids")) ∧
      ev.metadata = metadataOf (j.find (text "metadata")) := by
  unfold alertOfJson at h
  split at h
  · cases h
  · split at h
    · next hid hrule hhost hsev htime =>
      cases h
      exact ⟨_, htime, hid, hrule, hhost, rfl, rfl, rfl, rfl, rfl⟩
    · cases h

/-- A string member is a string of the value. -/
theorem mem_strings_of_getStr {j : Json} {name s : Bytes} (h : getStr j name = some s) :
    s ∈ j.strings := by
  obtain ⟨member, hfind, hs⟩ := Option.bind_eq_some_iff.mp h
  refine strings_find hfind s ?_
  rw [str?_eq_some hs, Json.strings]
  exact List.mem_singleton_self s

/-- Strings picked out of an array are strings of it. -/
theorem mem_strings_of_logIds {j : Json} {s : Bytes} (h : s ∈ logIdsOf (some j)) :
    s ∈ j.strings := by
  cases j with
  | arr items =>
    obtain ⟨item, hitem, hs⟩ := List.mem_filterMap.mp h
    rw [Json.strings]
    refine strings_subset_itemStrings hitem s ?_
    rw [str?_eq_some hs, Json.strings]
    exact List.mem_singleton_self s
  | _ => cases h

/-- Names and texts picked out of an object are strings of it. -/
theorem mem_strings_of_metadata {j : Json} {k v : Bytes}
    (h : (metadataOf (some j)).lookup k = some v) : k ∈ j.strings ∧ v ∈ j.strings := by
  cases j with
  | obj members =>
    rw [lookup_metadataOf] at h
    obtain ⟨member, hmember, hv⟩ := List.exists_of_findSome?_eq_some h
    split_ifs at hv with hk
    obtain ⟨hname, hstrings⟩ := strings_subset_memberStrings hmember
    rw [Json.strings]
    refine ⟨hk ▸ hname, hstrings v ?_⟩
    rw [str?_eq_some hv, Json.strings]
    exact List.mem_singleton_self v
  | _ => cases h

/-- An alert taken out of valid UTF-8 is valid. -/
theorem alertUtf8_of_json {j : Json} {ev : AlertEvent} (h : alertOfJson j = some ev)
    (hj : j.AllUtf8) : AlertUtf8 ev := by
  obtain ⟨_, -, hid, hrule, hhost, -, -, hdescription, hids, hmeta⟩ := alertOfJson_some h
  refine ⟨hj _ (mem_strings_of_getStr hid), hj _ (mem_strings_of_getStr hhost),
    hj _ (mem_strings_of_getStr hrule), ?_, fun id hmem => ?_, fun k v hv => ?_⟩
  · rw [hdescription]
    cases hd : getStr j (text "description") with
    | none => exact isUtf8_nil
    | some s => exact hj s (mem_strings_of_getStr hd)
  · rw [hids] at hmem
    cases hfind : j.find (text "contributing_log_ids") with
    | none =>
      rw [hfind] at hmem
      cases hmem
    | some member =>
      rw [hfind] at hmem
      exact hj id (strings_find hfind id (mem_strings_of_logIds hmem))
  · rw [hmeta] at hv
    cases hfind : j.find (text "metadata") with
    | none =>
      rw [hfind] at hv
      cases hv
    | some member =>
      rw [hfind] at hv
      obtain ⟨hk, hv⟩ := mem_strings_of_metadata hv
      exact ⟨hj k (strings_find hfind k hk), hj v (strings_find hfind v hv)⟩

/-- Of a valid alert the text is printed, and the alert taken out of it. -/
theorem deserialize_of_inverts {dump : Json → Option Bytes} {parse : Bytes → Option Json}
    {ev : AlertEvent} (hvalid : AlertUtf8 ev) (hscore : ev.anomalyScore.WellFormed)
    (htime : IsInt64 ev.timestamp) (hinv : Inverts dump parse (alertJson ev)) :
    (serialize dump ev).bind (deserialize parse) = some (overWire ev) := by
  obtain ⟨json, hdump, hne, hparse⟩ := hinv ((allUtf8_alertJson ev).mpr hvalid)
  have hempty : json.isEmpty = false := by simpa using hne
  rw [serialize, hdump, Option.bind_some, deserialize, hempty, hparse]
  exact alertOfJson_alertJson hscore htime

/-- What came out of a text is not cut again. -/
theorem overWire_of_json {j : Json} {ev : AlertEvent} (h : alertOfJson j = some ev)
    (htime : ∀ n, getTimestamp j = some n → |n| ≤ 9000000000) :
    overWire ev = ev ∧ ev.anomalyScore.WellFormed ∧ IsInt64 ev.timestamp := by
  obtain ⟨epochSec, hepoch, -, -, -, htimestamp, hscore, -, -, -⟩ := alertOfJson_some h
  obtain ⟨hlow, hhigh⟩ := abs_le.mp (htime epochSec hepoch)
  have hsec : IsInt64 epochSec := ⟨by omega, by omega⟩
  have hnano : IsInt64 (epochSec * 1000000000) := ⟨by omega, by omega⟩
  have hstamp : ev.timestamp = seconds epochSec := by
    rw [htimestamp, timePoint, wrapInt64_of hsec, wrapInt64_of hnano, seconds]
  obtain ⟨score, hwf, hsent⟩ := scoreOf_sent (j.find (text "anomaly_score"))
  obtain ⟨v, hv, hvalue, h0, h1⟩ := sentScore_spec hwf
  have hfinite : ev.anomalyScore = .finite v := by rw [hscore, hsent, hv]
  refine ⟨?_, ?_, ?_⟩
  · have hsame : seconds (wholeSeconds ev.timestamp) = ev.timestamp := by
      rw [hstamp, wholeSeconds_seconds]
    have hclamp : sentScore ev.anomalyScore = ev.anomalyScore := by
      rw [hfinite, sentScore_of_mem h0 h1]
    rw [overWire, hsame, hclamp]
  · rw [hfinite]
    exact hvalue
  · rw [hstamp]
    exact hnano

end alerts

/-- An alert comes back from its own text with the timestamp cut to whole
seconds and the score clamped, and one that came out of a text comes back
unchanged. -/
theorem deserialize_serialize (dump : Json → Option Bytes) (parse : Bytes → Option Json) :
    (∀ ev : AlertEvent, AlertUtf8 ev → ev.anomalyScore.WellFormed → IsInt64 ev.timestamp →
      Inverts dump parse (alertJson ev) →
        (serialize dump ev).bind (deserialize parse) = some (overWire ev)) ∧
    ∀ (json : Bytes) (ev : AlertEvent), deserialize parse json = some ev →
      (∀ j, parse json = some j → j.AllUtf8) →
      (∀ j, parse json = some j → ∀ n, getTimestamp j = some n → |n| ≤ 9000000000) →
      Inverts dump parse (alertJson ev) →
        (serialize dump ev).bind (deserialize parse) = some ev := by
  refine ⟨fun ev hvalid hscore htime hinv => deserialize_of_inverts hvalid hscore htime hinv,
    fun json ev h hvalid htime hinv => ?_⟩
  obtain ⟨j, hparse, hj⟩ : ∃ j, parse json = some j ∧ alertOfJson j = some ev := by
    unfold deserialize at h
    split at h
    · cases h
    · exact Option.bind_eq_some_iff.mp h
  obtain ⟨hsame, hscore, hstamp⟩ := overWire_of_json hj (htime j hparse)
  have hutf8 := alertUtf8_of_json hj (hvalid j hparse)
  rw [deserialize_of_inverts hutf8 hscore hstamp hinv, hsame]

/-- An alert whose timestamp and score are cut on the wire. -/
def wireAlert : AlertEvent where
  alertId := text "web-1-alert-1"
  timestamp := 1700000000500000000
  sourceHost := text "web-1"
  ruleId := text "SSH_BRUTE_FORCE_001"
  severity := .high
  anomalyScore := .finite (3 / 2)
  description := text "5 failed logins"
  contributingLogIds := [text "log-2", text "log-1"]
  metadata := assign ∅ (text "src_ip") (text "10.0.0.7")

/-- Its text. -/
def wireText : Bytes :=
  text "\x7b\"alert_id\":\"web-1-alert-1\",\"anomaly_score\":1.0," ++
    text "\"contributing_log_ids\":[\"log-2\",\"log-1\"],\"description\":\"5 failed logins\"," ++
    text "\"metadata\":\x7b\"src_ip\":\"10.0.0.7\"\x7d,\"rule_id\":\"SSH_BRUTE_FORCE_001\"," ++
    text "\"severity\":\"HIGH\",\"source_host\":\"web-1\",\"timestamp\":1700000000\x7d"

theorem deserialize_serialize_wireAlert :
    let dump : Json → Option Bytes := fun _ => some wireText
    let parse : Bytes → Option Json := fun json =>
      if json = wireText then some (alertJson wireAlert) else none
    (serialize dump wireAlert).bind (deserialize parse) = some (overWire wireAlert) ∧
    deserialize parse wireText = some (overWire wireAlert) ∧
    (serialize dump (overWire wireAlert)).bind (deserialize parse) =
      some (overWire wireAlert) := by
  intro dump parse
  obtain ⟨hthere, hback⟩ := deserialize_serialize dump parse
  have hname : ∀ name : Bytes, name.all (fun c => decide (c < 128)) = true → IsUtf8 name :=
    fun name h => (isAscii_of_all h).isUtf8
  have hvalid : AlertUtf8 wireAlert := by
    refine ⟨hname _ (by decide), hname _ (by decide), hname _ (by decide), hname _ (by decide),
      ?_, fun k v hv => ?_⟩
    · exact List.forall_mem_cons.mpr ⟨hname _ (by decide),
        List.forall_mem_singleton.mpr (hname _ (by decide))⟩
    · simp only [wireAlert, lookup_assign, Finmap.lookup_empty] at hv
      split_ifs at hv with hk
      cases hv
      rw [hk]
      exact ⟨hname _ (by decide), hname _ (by decide)⟩
  have hscore : wireAlert.anomalyScore.WellFormed := ⟨3, -1, by norm_num [wireAlert], by norm_num⟩
  have htime : IsInt64 wireAlert.timestamp := ⟨by decide, by decide⟩
  have hparse : parse wireText = some (alertJson wireAlert) := if_pos rfl
  have hsame : alertJson (overWire wireAlert) = alertJson wireAlert := by
    have hscores : sentScore (overWire wireAlert).anomalyScore =
        sentScore wireAlert.anomalyScore := by decide +kernel
    rw [alertJson, hscores]
    rfl
  have hne : wireText ≠ [] := by decide +kernel
  have hinv : Inverts dump parse (alertJson wireAlert) := fun _ => ⟨wireText, rfl, hne, hparse⟩
  have hprinted : serialize dump wireAlert = some wireText := rfl
  have hfirst := hthere wireAlert hvalid hscore htime hinv
  have hread := hfirst
  rw [hprinted, Option.bind_some] at hread
  refine ⟨hfirst, hread, hback wireText _ hread ?_ ?_ (hsame ▸ hinv)⟩
  · intro j hj
    cases hparse.symm.trans hj
    exact (allUtf8_alertJson wireAlert).mpr hvalid
  · intro j hj n hn
    cases hparse.symm.trans hj
    cases hn
    decide

end Dlads.WireRoundTrip
