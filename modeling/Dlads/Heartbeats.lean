import Dlads.JsonPrinting
import Dlads.Registry
import Dlads.TextSearch

/-!
# Heartbeats

An agent prints its heartbeat with the JSON library; the coordinator takes the
node out of the text by a search for the member's name and for the next quote.
The search finds the printed node at its place whatever the other members
hold, but takes it as it is printed, escapes included.
-/

namespace Dlads.Heartbeats

open ByteText Utf8Text TextSearch JsonValue JsonPrinting Registry

/-- `HeartbeatMessage`. -/
structure HeartbeatMessage where
  /-- The node that sends it. -/
  nodeId : Bytes
  /-- Seconds since the epoch. -/
  timestamp : ℤ
  /-- Number of alerts the node has published. -/
  alertsSent : ℤ
  /-- Always `ALIVE` from an agent. -/
  status : Bytes

/-- The value that `toJSON` prints, its members in the order of their names. -/
def HeartbeatMessage.json (hb : HeartbeatMessage) : Json :=
  .obj
    [(text "alerts_sent", .int hb.alertsSent),
      (text "node_id", .str hb.nodeId),
      (text "status", .str hb.status),
      (text "timestamp", .int hb.timestamp),
      (text "type", .str (text "heartbeat"))]

/-- `HeartbeatMessage::toJSON`; it throws where the printer does. -/
def HeartbeatMessage.toJSON (hb : HeartbeatMessage) (dump : Json → Option Bytes) : Option Bytes :=
  dump hb.json

/-- What stands between a separator that follows a key and the next quote. -/
def extractBehind (raw key sep : Bytes) : Option Bytes :=
  (after (text "\"" ++ key ++ sep) raw).bind fun value =>
    (find (text "\"") value).map fun e => value.take e

/-- `extract(key)`: with a space after the colon first, then without. -/
def extract (raw key : Bytes) : Bytes :=
  match extractBehind raw key (text "\": \"") with
  | some value => value
  | none => (extractBehind raw key (text "\":\"")).getD []

/-- The call that `zmq_heartbeat_receiver` makes for a message, if any. -/
def heartbeatCall (raw : Bytes) : Option Call :=
  let nodeId := extract raw (text "node_id")
  let hostIp := extract raw (text "host_ip")
  if !nodeId.isEmpty then some (.ping nodeId hostIp) else none

/-- The receiver takes the node out of a heartbeat and pings its entry. -/
def ReachesEntry (dump : Json → Option Bytes) (hb : HeartbeatMessage) : Prop :=
  ∃ raw, hb.toJSON dump = some raw ∧ extract raw (text "node_id") = hb.nodeId ∧
    ∃ hostIp, heartbeatCall raw = some (.ping hb.nodeId hostIp)

section printed

/-- The text of a heartbeat up to its node. -/
def headText (hb : HeartbeatMessage) : Bytes :=
  text "\x7b\"alerts_sent\":" ++ dec hb.alertsSent

/-- The text of a heartbeat behind its status. -/
def tailText (hb : HeartbeatMessage) : Bytes :=
  text "\"timestamp\":" ++ dec hb.timestamp ++ text ",\"type\":\"heartbeat\"\x7d"

theorem compact_json (real : ℚ → Bytes) (hb : HeartbeatMessage) : compact real hb.json =
    headText hb ++ 44 :: (text "\"node_id\":\"" ++ (escape hb.nodeId ++ 34 :: 44 ::
      (text "\"status\":\"" ++ (escape hb.status ++ 34 :: 44 :: tailText hb)))) := by
  have hwords : quoted (text "alerts_sent") = text "\"alerts_sent\"" ∧
      quoted (text "node_id") = text "\"node_id\"" ∧ quoted (text "status") = text "\"status\"" ∧
      quoted (text "timestamp") = text "\"timestamp\"" ∧ quoted (text "type") = text "\"type\"" ∧
      quoted (text "heartbeat") = text "\"heartbeat\"" := by decide
  obtain ⟨h1, h2, h3, h4, h5, h6⟩ := hwords
  simp only [HeartbeatMessage.json, compact, compactMembers, h1, h2, h3, h4, h5, h6]
  simp only [headText, tailText, quoted, text, String.toList,
    List.cons_append, List.nil_append, List.append_assoc]
  rfl

/-- A number's text holds digits and a minus only. -/
theorem not_mem_dec {z : UInt8} (hz : isDigit z = false) (hminus : z ≠ 45) (n : ℤ) :
    z ∉ dec n := by
  have hdigits : ∀ m : ℕ, z ∉ decNat m := by
    intro m hm
    rw [isDigit_of_mem_decNat hm] at hz
    cases hz
  unfold dec
  split
  · intro h
    rcases List.mem_append.mp h with h | h
    · exact hminus (List.mem_singleton.mp h)
    · exact hdigits _ h
  · exact hdigits _

/-- Printed text before a closing quote and a comma does not begin with
letters, a quote and a colon. -/
theorem not_prefix_escape {word : Bytes} (hquote : 34 ∉ word) (hslash : 92 ∉ word) (s t : Bytes)
    (needleRest : Bytes) :
    ¬word ++ 34 :: 58 :: needleRest <+: escape s ++ 34 :: 44 :: t := by
  induction s generalizing word with
  | nil =>
    intro h
    cases word with
    | nil =>
      have htwo := (List.cons_prefix_cons.mp h).2
      exact absurd (List.cons_prefix_cons.mp htwo).1 (by decide)
    | cons w word =>
      have hw : w = 34 := (List.cons_prefix_cons.mp h).1
      exact hquote (hw ▸ List.mem_cons_self)
  | cons c s ih =>
    intro h
    rw [escape_cons] at h
    cases hc : isSpecial c with
    | true =>
      obtain ⟨x, tail, he, -⟩ := escapeByte_of_special hc
      rw [he] at h
      cases word with
      | nil => exact absurd (List.cons_prefix_cons.mp h).1 (by decide)
      | cons w word =>
        have hw : w = 92 := (List.cons_prefix_cons.mp h).1
        exact hslash (hw ▸ List.mem_cons_self)
    | false =>
      rw [escapeByte_of_plain hc] at h
      cases word with
      | nil =>
        have hc34 : 34 = c := (List.cons_prefix_cons.mp h).1
        rw [← hc34] at hc
        exact absurd hc (by decide)
      | cons w word =>
        exact ih (fun hm => hquote (List.mem_cons_of_mem w hm))
          (fun hm => hslash (List.mem_cons_of_mem w hm)) (List.cons_prefix_cons.mp h).2

variable {word : Bytes} (hquote : 34 ∉ word) (hslash : 92 ∉ word)

include hquote hslash in
/-- A search for a quoted word and a colon passes over a printed string. -/
theorem after_string (hcomma : 44 ∉ word) (needleRest s t : Bytes) :
    after (34 :: (word ++ 34 :: 58 :: needleRest)) (34 :: (escape s ++ 34 :: 44 :: t)) =
      after (34 :: (word ++ 34 :: 58 :: needleRest)) t := by
  have hskip : ∀ u r : Bytes, 34 ∉ u →
      after (34 :: (word ++ 34 :: 58 :: needleRest)) (u ++ r) =
        after (34 :: (word ++ 34 :: 58 :: needleRest)) r := by
    intro u r hu
    induction u with
    | nil => rfl
    | cons c u ih =>
      rw [List.cons_append, after_cons, if_neg, ih fun h => hu (List.mem_cons_of_mem c h)]
      intro hp
      have hc : 34 = c := (List.cons_prefix_cons.mp (List.isPrefixOf_iff_prefix.mp hp)).1
      exact hu (hc ▸ List.mem_cons_self)
  have hopen : ∀ s : Bytes,
      after (34 :: (word ++ 34 :: 58 :: needleRest)) (34 :: (escape s ++ 34 :: 44 :: t)) =
        after (34 :: (word ++ 34 :: 58 :: needleRest)) (escape s ++ 34 :: 44 :: t) := by
    intro s
    rw [after_cons, if_neg]
    intro hp
    exact not_prefix_escape hquote hslash s t needleRest
      (List.cons_prefix_cons.mp (List.isPrefixOf_iff_prefix.mp hp)).2
  rw [hopen]
  induction s with
  | nil =>
    have hclose : ¬(34 :: (word ++ 34 :: 58 :: needleRest)).isPrefixOf (34 :: 44 :: t) := by
      intro hp
      have hrest := (List.cons_prefix_cons.mp (List.isPrefixOf_iff_prefix.mp hp)).2
      cases word with
      | nil => exact absurd (List.cons_prefix_cons.mp hrest).1 (by decide)
      | cons w word =>
        have hw : w = 44 := (List.cons_prefix_cons.mp hrest).1
        exact hcomma (hw ▸ List.mem_cons_self)
    have hnil : escape [] ++ 34 :: 44 :: t = 34 :: 44 :: t := rfl
    rw [hnil, after_cons, if_neg hclose]
    exact hskip [44] t (by decide)
  | cons c s ih =>
    rw [escape_cons, List.append_assoc]
    by_cases hc : c = 34
    · -- an escaped quote opens nothing, as what follows it is printed text
      have hescaped : escapeByte c ++ (escape s ++ 34 :: 44 :: t) =
          [92] ++ 34 :: (escape s ++ 34 :: 44 :: t) := by
        rw [hc]
        rfl
      rw [hescaped, hskip [92] _ (by decide), hopen, ih]
    · rw [hskip _ _ (no_quote_escapeByte hc), ih]

end printed

section receiver

variable (real : ℚ → Bytes) (hb : HeartbeatMessage)

theorem no_o_headText : 111 ∉ headText hb := by
  rw [headText, List.mem_append, not_or]
  exact ⟨by decide, not_mem_dec (by decide) (by decide) hb.alertsSent⟩

theorem no_o_tailText : 111 ∉ tailText hb := by
  rw [tailText, List.mem_append, List.mem_append, not_or, not_or]
  exact ⟨⟨by decide, not_mem_dec (by decide) (by decide) hb.timestamp⟩, by decide⟩

/-- The search for the node starts behind the number of alerts. -/
theorem after_headText {needle : Bytes} (hn : needle ≠ []) (ho : 111 ∈ needle)
    (hcomma : 44 ∉ needle) (t : Bytes) : after needle (headText hb ++ 44 :: t) = after needle t := by
  rw [after_append_sep hn hcomma, after_eq_none ho (no_o_headText hb)]
  rfl

/-- No member is printed with a space behind its colon. -/
theorem extractBehind_spaced :
    extractBehind (compact real hb.json) (text "node_id") (text "\": \"") = none := by
  have hneedle : text "\"" ++ text "node_id" ++ text "\": \"" =
      34 :: (text "node_id" ++ 34 :: 58 :: text " \"") := by decide
  have hfront : ∀ t, after (34 :: (text "node_id" ++ 34 :: 58 :: text " \""))
      (text "\"node_id\":\"" ++ t) =
        after (34 :: (text "node_id" ++ 34 :: 58 :: text " \"")) (34 :: t) := by
    intro t
    have hsplit : text "\"node_id\":\"" ++ t = 34 :: (text "node_id\":" ++ 34 :: t) := rfl
    have hp : ¬(34 :: (text "node_id" ++ 34 :: 58 :: text " \"")).isPrefixOf
        (text "\"node_id\":\"" ++ t) = true := by
      intro hp
      rcases prefix_append_cases hp with hin | ⟨rest, -, hcover, -⟩
      · exact absurd hin (by decide)
      · have hpre : (text "\"node_id\":\"").isPrefixOf
            (34 :: (text "node_id" ++ 34 :: 58 :: text " \"")) = true :=
          List.isPrefixOf_iff_prefix.mpr ⟨rest, hcover.symm⟩
        exact absurd hpre (by decide)
    rw [hsplit] at hp ⊢
    rw [after_cons, if_neg hp]
    exact after_append_of_apart (by decide) _
  have hstatus : ∀ t, after (34 :: (text "node_id" ++ 34 :: 58 :: text " \""))
      (text "\"status\":\"" ++ t) =
        after (34 :: (text "node_id" ++ 34 :: 58 :: text " \"")) (34 :: t) := by
    intro t
    have hsplit : text "\"status\":\"" ++ t = text "\"status\":" ++ 34 :: t := rfl
    rw [hsplit]
    exact after_append_of_apart (by decide) _
  rw [extractBehind, hneedle, compact_json, after_headText hb (by decide) (by decide) (by decide),
    hfront, after_string (by decide) (by decide) (by decide), hstatus,
    after_string (by decide) (by decide) (by decide), after_eq_none (by decide) (no_o_tailText hb)]
  rfl

/-- The search finds the printed node and cuts it at its first quote. -/
theorem extract_node_id :
    extract (compact real hb.json) (text "node_id") = (escape hb.nodeId).takeWhile (· != 34) := by
  have hneedle : text "\"" ++ text "node_id" ++ text "\":\"" = text "\"node_id\":\"" := by decide
  have hquote : text "\"" = [34] := by decide
  have hfound : extractBehind (compact real hb.json) (text "node_id") (text "\":\"") =
      some ((escape hb.nodeId).takeWhile (· != 34)) := by
    rw [extractBehind, hneedle, compact_json,
      after_headText hb (by decide) (by decide) (by decide), after_self_append (by decide),
      Option.bind_some, hquote, take_find_byte]
  rw [extract, extractBehind_spaced, hfound]
  rfl

theorem allUtf8_json : hb.json.AllUtf8 ↔ IsUtf8 hb.nodeId ∧ IsUtf8 hb.status := by
  have hlist : hb.json.strings = [text "alerts_sent", text "node_id", hb.nodeId, text "status",
      hb.status, text "timestamp", text "type", text "heartbeat"] := by
    simp [HeartbeatMessage.json, Json.strings, memberStrings]
  rw [Json.AllUtf8, hlist]
  constructor
  · intro h
    exact ⟨h _ (by simp), h _ (by simp)⟩
  · rintro ⟨hnode, hstatus⟩ s hs
    simp only [List.mem_cons, List.not_mem_nil, or_false] at hs
    rcases hs with rfl | rfl | rfl | rfl | rfl | rfl | rfl | rfl
    · exact isUtf8_text _ (by decide)
    · exact isUtf8_text _ (by decide)
    · exact hnode
    · exact isUtf8_text _ (by decide)
    · exact hstatus
    · exact isUtf8_text _ (by decide)
    · exact isUtf8_text _ (by decide)
    · exact isUtf8_text _ (by decide)

/-- `toJSON` succeeds exactly on valid texts. -/
theorem toJSON_eq_some {dump : Json → Option Bytes} (hdump : Standard real dump)
    (hvalid : IsUtf8 hb.nodeId) (raw : Bytes) :
    hb.toJSON dump = some raw ↔ IsUtf8 hb.status ∧ raw = compact real hb.json := by
  rw [HeartbeatMessage.toJSON, hdump]
  split
  · next h => simp [((allUtf8_json hb).mp h).2, eq_comm]
  · next h =>
    have hstatus : ¬IsUtf8 hb.status := fun hs => h ((allUtf8_json hb).mpr ⟨hvalid, hs⟩)
    simp [hstatus]

/-- The receiver pings the node it takes out of a message. -/
theorem heartbeatCall_of_extract {raw nodeId : Bytes} (hne : nodeId ≠ [])
    (h : extract raw (text "node_id") = nodeId) :
    heartbeatCall raw = some (.ping nodeId (extract raw (text "host_ip"))) := by
  have hfull : (!nodeId.isEmpty) = true := by simpa using hne
  unfold heartbeatCall
  dsimp only
  rw [h, if_pos hfull]

/-- A heartbeat reaches the entry of its node exactly if its status can be
printed and the printed node is the node itself. -/
theorem heartbeat_reaches_iff (dump : Json → Option Bytes) (hdump : Standard real dump)
    (hne : hb.nodeId ≠ []) (hvalid : IsUtf8 hb.nodeId) :
    ReachesEntry dump hb ↔ IsUtf8 hb.status ∧ Plain hb.nodeId := by
  constructor
  · rintro ⟨raw, hraw, hextract, -⟩
    obtain ⟨hstatus, rfl⟩ := (toJSON_eq_some real hb hdump hvalid raw).mp hraw
    rw [extract_node_id] at hextract
    exact ⟨hstatus, (takeWhile_escape_iff hb.nodeId).mp hextract⟩
  · rintro ⟨hstatus, hplain⟩
    have hextract : extract (compact real hb.json) (text "node_id") = hb.nodeId := by
      rw [extract_node_id, takeWhile_escape_iff]
      exact hplain
    exact ⟨_, (toJSON_eq_some real hb hdump hvalid _).mpr ⟨hstatus, rfl⟩, hextract, _,
      heartbeatCall_of_extract hne hextract⟩

end receiver

/-- The JSON library, but for floating-point numbers. -/
def plainDump (j : Json) : Option Bytes :=
  if j.AllUtf8 then some (compact (fun _ => []) j) else none

/-- The heartbeat of a node whose id, the fourth argument of its command line, is
in quotes. -/
def quotedHeartbeat : HeartbeatMessage where
  nodeId := text "\"node-1\""
  timestamp := 1700000000
  alertsSent := 0
  status := text "ALIVE"

/-- The receiver takes a lone backslash for the node. -/
theorem quotedHeartbeat_lost : ¬∀ (dump : Json → Option Bytes) (real : ℚ → Bytes),
    Standard real dump → ∀ hb : HeartbeatMessage, hb.nodeId ≠ [] → IsUtf8 hb.nodeId →
      ReachesEntry dump hb := by
  intro h
  obtain ⟨raw, hraw, hextract, -⟩ := h plainDump (fun _ => []) (fun j => rfl) quotedHeartbeat
    (by decide) (by decide +kernel)
  have htext : quotedHeartbeat.toJSON plainDump = some (text "\x7b\"alerts_sent\":0," ++
      text "\"node_id\":\"\\\"node-1\\\"\",\"status\":\"ALIVE\"," ++
      text "\"timestamp\":1700000000,\"type\":\"heartbeat\"\x7d") := by decide +kernel
  rw [htext] at hraw
  cases hraw
  exact absurd hextract (by decide +kernel)

/-- A heartbeat of a node without quotes. -/
def defaultHeartbeat : HeartbeatMessage := { quotedHeartbeat with nodeId := text "node-1" }

theorem defaultHeartbeat_reaches : ReachesEntry plainDump defaultHeartbeat :=
  (heartbeat_reaches_iff (fun _ => []) defaultHeartbeat plainDump (fun j => rfl) (by decide)
    (by decide +kernel)).mpr ⟨by decide +kernel, by decide⟩

end Dlads.Heartbeats
