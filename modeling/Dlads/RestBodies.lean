import Dlads.AlertWire
import Dlads.Heartbeats
import Dlads.JsonByHand

/-!
# The bodies of the coordinator's REST API

The bodies of `/threats`, `/nodes`, `/status` and `/feed` are put together by
hand from what the alert store and the node registry hold. Their clients read
them with a JSON library. A body gives the stored texts back exactly if none
of them holds a byte that needs an escape.
-/

namespace Dlads.RestBodies

open ByteText Utf8Text Records Correlation AlertDatabase JsonValue AlertWire Registry Heartbeats
open JsonPrinting JsonReading JsonByHand

/-- What the REST API reads. -/
structure RestState where
  /-- The alert store. -/
  store : AlertStore
  /-- The node registry. -/
  registry : NodeRegistry

/-- An object of `/threats`. -/
def threatText (t : CorrelatedThreat) : Bytes :=
  text "\x7b\"threat_id\":\"" ++ t.threatId ++ text "\"," ++
    text "\"source_ip\":\"" ++ t.sourceIp ++ text "\"," ++
    text "\"rule_id\":\"" ++ t.ruleId ++ text "\"," ++
    text "\"severity\":\"" ++ t.severity.name ++ text "\"," ++
    text "\"evidence\":\"" ++ t.evidence ++ text "\"\x7d"

/-- The body of `/threats`. -/
def threatsBody (s : RestState) : Bytes :=
  text "[" ++ commaJoin (s.store.recentThreats.map threatText) ++ text "]"

/-- The status of a node as `/nodes` names it. -/
def statusText (status : NodeStatus) : Bytes :=
  if status = .alive then text "ALIVE" else text "DEAD"

/-- An object of `/nodes`. -/
def nodeText (n : NodeInfo) : Bytes :=
  text "\x7b\"node_id\":\"" ++ n.nodeId ++ text "\"," ++
    text "\"host_ip\":\"" ++ n.hostIp ++ text "\"," ++
    text "\"status\":\"" ++ statusText n.status ++ text "\"," ++
    text "\"last_seen\":" ++ dec n.lastSeenSec ++ text "," ++
    text "\"alerts_sent\":" ++ dec n.alertsSent ++ text "\x7d"

/-- The body of `/nodes`. -/
def nodesBody (s : RestState) : Bytes :=
  text "[" ++ commaJoin (s.registry.allNodes.map nodeText) ++ text "]"

/-- `node_id` of `/status`. -/
def statusNode (s : RestState) : Bytes :=
  match s.registry.allNodes with
  | [] => text "unknown"
  | n :: _ => n.nodeId

/-- `host_ip` of `/status`. -/
def statusHost (s : RestState) : Bytes :=
  match s.registry.allNodes with
  | [] => []
  | n :: _ => n.hostIp

/-- `zmq_connected` of `/status`. -/
def zmqConnected (s : RestState) : Bool :=
  match s.registry.allNodes with
  | [] => false
  | n :: _ => n.status = .alive

/-- The body of `/status`. -/
def statusBody (s : RestState) : Bytes :=
  text "\x7b\"node_id\":\"" ++ statusNode s ++ text "\"," ++
    text "\"watch_file\":\"\"," ++
    text "\"coordinator_ip\":\"" ++ statusHost s ++ text "\"," ++
    text "\"ids_mode\":\"builtin\"," ++
    text "\"uptime_sec\":0," ++
    text "\"zmq_connected\":" ++ (if zmqConnected s then text "true" else text "false") ++
    text "\x7d"

/-- `raw_line` of `/feed`. -/
def rawLine (a : AlertEvent) : Bytes :=
  a.sourceHost ++ text " " ++ emDash ++ text " " ++ a.description

/-- An object of `/feed`; `isoTime` is local time as `strftime` prints it. -/
def feedText (isoTime : ℤ → Bytes) (a : AlertEvent) : Bytes :=
  text "\x7b\"timestamp\":\"" ++ isoTime a.timestamp ++ text "\"," ++
    text "\"raw_line\":\"" ++ rawLine a ++ text "\"," ++
    text "\"stage\":\"alert\"," ++
    text "\"detail\":\"" ++ a.ruleId ++ text "\"," ++
    text "\"severity\":\"" ++ a.severity.name ++ text "\"\x7d"

/-- The body of `/feed`. -/
def feedBody (isoTime : ℤ → Bytes) (s : RestState) : Bytes :=
  text "[" ++ commaJoin (s.store.recentAlerts.map (feedText isoTime)) ++ text "]"

/-- What a client of `/threats` wants of a threat. -/
def threatValues (t : CorrelatedThreat) : List (Bytes × Json) :=
  [(text "threat_id", .str t.threatId), (text "source_ip", .str t.sourceIp),
    (text "rule_id", .str t.ruleId), (text "severity", .str t.severity.name),
    (text "evidence", .str t.evidence)]

/-- What a client of `/nodes` wants of a node. -/
def nodeValues (n : NodeInfo) : List (Bytes × Json) :=
  [(text "node_id", .str n.nodeId), (text "host_ip", .str n.hostIp),
    (text "status", .str (statusText n.status))]

/-- What a client of `/status` wants. -/
def statusValues (s : RestState) : List (Bytes × Json) :=
  [(text "node_id", .str (statusNode s)), (text "coordinator_ip", .str (statusHost s)),
    (text "zmq_connected", .bool (zmqConnected s))]

/-- What a client of `/feed` wants of an alert. -/
def feedValues (a : AlertEvent) : List (Bytes × Json) :=
  [(text "raw_line", .str (rawLine a)), (text "detail", .str a.ruleId),
    (text "severity", .str a.severity.name)]

/-- The bodies are valid JSON and give the stored values back. -/
structure Faithful (isoTime : ℤ → Bytes) (s : RestState) : Prop where
  /-- `/threats` does. -/
  threats : Decodes (threatsBody s) (s.store.recentThreats.map threatValues)
  /-- `/nodes` does. -/
  nodes : Decodes (nodesBody s) (s.registry.allNodes.map nodeValues)
  /-- `/status` does. -/
  status : ∃ item, readJson (statusBody s) = some item ∧ HasMembers item (statusValues s)
  /-- `/feed` does. -/
  feed : Decodes (feedBody isoTime s) (s.store.recentAlerts.map feedValues)

/-- What the bodies are put together from is valid UTF-8. -/
structure ValidTexts (s : RestState) : Prop where
  /-- Threats are. -/
  threats : ∀ t ∈ s.store.recentThreats,
    IsUtf8 t.threatId ∧ IsUtf8 t.sourceIp ∧ IsUtf8 t.ruleId ∧ IsUtf8 t.evidence
  /-- Nodes are. -/
  nodes : ∀ n ∈ s.registry.allNodes, IsUtf8 n.nodeId ∧ IsUtf8 n.hostIp
  /-- Alerts are. -/
  alerts : ∀ a ∈ s.store.recentAlerts,
    IsUtf8 a.sourceHost ∧ IsUtf8 a.description ∧ IsUtf8 a.ruleId

/-- Local time is printed in digits, minus signs, colons and a `T`. -/
def IsoTime (isoTime : ℤ → Bytes) : Prop :=
  ∀ t, ∀ c ∈ isoTime t, isDigit c = true ∨ c = 45 ∨ c = 58 ∨ c = 84

section shapes

/-- The fields of an object of `/threats`. -/
def threatFields (t : CorrelatedThreat) : List Field :=
  [⟨text "threat_id", .str t.threatId, true⟩, ⟨text "source_ip", .str t.sourceIp, true⟩,
    ⟨text "rule_id", .str t.ruleId, true⟩, ⟨text "severity", .str t.severity.name, true⟩,
    ⟨text "evidence", .str t.evidence, true⟩]

/-- The fields of an object of `/nodes`. -/
def nodeFields (n : NodeInfo) : List Field :=
  [⟨text "node_id", .str n.nodeId, true⟩, ⟨text "host_ip", .str n.hostIp, true⟩,
    ⟨text "status", .str (statusText n.status), true⟩,
    ⟨text "last_seen", .int n.lastSeenSec, false⟩, ⟨text "alerts_sent", .int n.alertsSent, false⟩]

/-- The fields of `/status`. -/
def statusFields (s : RestState) : List Field :=
  [⟨text "node_id", .str (statusNode s), true⟩, ⟨text "watch_file", .str [], false⟩,
    ⟨text "coordinator_ip", .str (statusHost s), true⟩,
    ⟨text "ids_mode", .str (text "builtin"), false⟩, ⟨text "uptime_sec", .int 0, false⟩,
    ⟨text "zmq_connected", .bool (zmqConnected s), true⟩]

/-- The fields of an object of `/feed`. -/
def feedFields (isoTime : ℤ → Bytes) (a : AlertEvent) : List Field :=
  [⟨text "timestamp", .str (isoTime a.timestamp), false⟩,
    ⟨text "raw_line", .str (rawLine a), true⟩, ⟨text "stage", .str (text "alert"), false⟩,
    ⟨text "detail", .str a.ruleId, true⟩, ⟨text "severity", .str a.severity.name, true⟩]

theorem threatText_eq (t : CorrelatedThreat) : threatText t = rawObject (threatFields t) := by
  simp only [threatText, threatFields, rawObject, List.map_cons, List.map_nil, commaJoin,
    Field.text, rawText, text, String.toList, List.cons_append, List.nil_append, List.append_assoc]
  rfl

theorem nodeText_eq (n : NodeInfo) : nodeText n = rawObject (nodeFields n) := by
  simp only [nodeText, nodeFields, rawObject, List.map_cons, List.map_nil, commaJoin,
    Field.text, rawText, text, String.toList, List.cons_append, List.nil_append, List.append_assoc]
  rfl

theorem statusBody_eq (s : RestState) : statusBody s = rawObject (statusFields s) := by
  have hbool : (if zmqConnected s then text "true" else text "false") =
      rawText (.bool (zmqConnected s)) := by
    cases zmqConnected s <;> rfl
  have hstr : ∀ t, rawText (.str t) = 34 :: (t ++ [34]) := fun _ => rfl
  rw [statusBody, hbool]
  simp only [statusFields, rawObject, List.map_cons, List.map_nil, commaJoin, Field.text, hstr,
    text, String.toList, List.cons_append, List.nil_append, List.append_assoc]
  rfl

theorem feedText_eq (isoTime : ℤ → Bytes) (a : AlertEvent) :
    feedText isoTime a = rawObject (feedFields isoTime a) := by
  simp only [feedText, feedFields, rawObject, List.map_cons, List.map_nil, commaJoin,
    Field.text, rawText, text, String.toList, List.cons_append, List.nil_append, List.append_assoc]
  rfl

/-- The names in an object of `/threats`. -/
def threatNames : List Bytes :=
  [text "threat_id", text "source_ip", text "rule_id", text "severity", text "evidence"]

/-- The names in an object of `/nodes`. -/
def nodeNames : List Bytes :=
  [text "node_id", text "host_ip", text "status", text "last_seen", text "alerts_sent"]

/-- The names in `/status`. -/
def statusNames : List Bytes :=
  [text "node_id", text "watch_file", text "coordinator_ip", text "ids_mode", text "uptime_sec",
    text "zmq_connected"]

/-- The names in an object of `/feed`. -/
def feedNames : List Bytes :=
  [text "timestamp", text "raw_line", text "stage", text "detail", text "severity"]

/-- The names of all fields differ, and are plain and ASCII. -/
theorem names_plain : ∀ names ∈ [threatNames, nodeNames, statusNames, feedNames],
    names.Nodup ∧ ∀ n ∈ names, Plain n ∧ IsAscii n := by decide +kernel

theorem plain_severity (severity : Severity) : Plain severity.name := by
  cases severity <;> decide

theorem plain_statusText (status : NodeStatus) : Plain (statusText status) := by
  cases status <;> decide

/-- Digits and minus signs weigh nothing where the marked byte is a letter. -/
theorem weight_dec (n : ℤ) : weight 117 (dec n) = 0 := by
  refine List.countP_eq_zero.mpr ?_
  intro c hc
  have h92 : c ≠ 92 := by
    rintro rfl
    exact not_mem_dec (by decide) (by decide) n hc
  have h117 : c ≠ 117 := by
    rintro rfl
    exact not_mem_dec (by decide) (by decide) n hc
  simp [h92, h117]

/-- Local time reads as it is written and weighs nothing. -/
theorem isoTime_light {isoTime : ℤ → Bytes} (h : IsoTime isoTime) (t : ℤ) :
    Plain (isoTime t) ∧ weight 117 (isoTime t) = 0 ∧ IsUtf8 (isoTime t) := by
  have hall : ∀ c : Fin 256, (isDigit (UInt8.ofNat c) = true ∨ UInt8.ofNat c = 45 ∨
      UInt8.ofNat c = 58 ∨ UInt8.ofNat c = 84) → isSpecial (UInt8.ofNat c) = false ∧
        (UInt8.ofNat c == 92 || UInt8.ofNat c == 117) = false ∧ UInt8.ofNat c < 128 := by
    decide +kernel
  have hbyte : ∀ c ∈ isoTime t, isSpecial c = false ∧ (c == 92 || c == 117) = false ∧
      c < 128 := by
    intro c hc
    simpa using hall ⟨c.toNat, c.toNat_lt⟩ (by simpa using h t c hc)
  have hascii : IsAscii (isoTime t) := fun c hc => (hbyte c hc).2.2
  refine ⟨fun c hc => (hbyte c hc).1, List.countP_eq_zero.mpr fun c hc => ?_, hascii.isUtf8⟩
  simp [(hbyte c hc).2.1]

theorem threatFields_shaped (t : CorrelatedThreat) : WellShaped 117 (threatFields t) := by
  have hnames := names_plain threatNames (by simp)
  refine ⟨List.cons_ne_nil _ _, hnames.1, ?_, ?_, ?_, ?_, ?_⟩
  · intro f hf
    exact (hnames.2 f.name (List.mem_map_of_mem (f := Field.name) hf)).1
  · simp [threatFields, Simple]
  · simp [threatFields]
  · simp [threatFields]
  · simp [threatFields, Json.strings]

theorem nodeFields_shaped (n : NodeInfo) : WellShaped 117 (nodeFields n) := by
  have hnames := names_plain nodeNames (by simp)
  have hlight : weight 117 (text "last_seen") = 0 ∧ weight 117 (text "alerts_sent") = 0 := by decide
  refine ⟨List.cons_ne_nil _ _, hnames.1, ?_, ?_, ?_, ?_, ?_⟩
  · intro f hf
    exact (hnames.2 f.name (List.mem_map_of_mem (f := Field.name) hf)).1
  · simp [nodeFields, Simple]
  · simp [nodeFields, Flat]
  · simp [nodeFields, hlight]
  · simp [nodeFields, Json.strings, rawText, weight_dec]

theorem statusFields_shaped (s : RestState) : WellShaped 53 (statusFields s) := by
  have hnames := names_plain statusNames (by simp)
  have hlight : weight 53 (text "watch_file") = 0 ∧ weight 53 (text "ids_mode") = 0 ∧
      weight 53 (text "uptime_sec") = 0 ∧ weight 53 (rawText (.str [])) = 0 ∧
      weight 53 (rawText (.str (text "builtin"))) = 0 ∧ weight 53 (rawText (.int 0)) = 0 ∧
      weight 53 (rawText (.bool (zmqConnected s))) = 0 := by
    cases zmqConnected s <;> decide
  obtain ⟨h1, h2, h3, h4, h5, h6, h7⟩ := hlight
  have hflat : Plain [] ∧ Plain (text "builtin") := by decide
  refine ⟨List.cons_ne_nil _ _, hnames.1, ?_, ?_, ?_, ?_, ?_⟩
  · intro f hf
    exact (hnames.2 f.name (List.mem_map_of_mem (f := Field.name) hf)).1
  · simp [statusFields, Simple]
  · simpa [statusFields, Flat] using hflat
  · simp [statusFields, h1, h2, h3]
  · simp [statusFields, Json.strings, h4, h5, h6, h7]

theorem feedFields_shaped {isoTime : ℤ → Bytes} (h : IsoTime isoTime) (a : AlertEvent) :
    WellShaped 117 (feedFields isoTime a) := by
  have hnames := names_plain feedNames (by simp)
  have hlight : weight 117 (text "timestamp") = 0 ∧ weight 117 (text "stage") = 0 ∧
      weight 117 (rawText (.str (text "alert"))) = 0 ∧ weight 117 [34] = 0 ∧
      Plain (text "alert") := by decide
  obtain ⟨hstamp, hstage, halert, hquote, hplain⟩ := hlight
  obtain ⟨hiso, hweight, -⟩ := isoTime_light h a.timestamp
  have hraw : weight 117 (rawText (.str (isoTime a.timestamp))) = 0 := by
    have hsplit : rawText (.str (isoTime a.timestamp)) = [34] ++ (isoTime a.timestamp ++ [34]) := rfl
    rw [hsplit, weight_append, weight_append, hweight, hquote]
  refine ⟨List.cons_ne_nil _ _, hnames.1, ?_, ?_, ?_, ?_, ?_⟩
  · intro f hf
    exact (hnames.2 f.name (List.mem_map_of_mem (f := Field.name) hf)).1
  · simp [feedFields, Simple]
  · simpa [feedFields, Flat] using ⟨hiso, hplain⟩
  · simp [feedFields, hstamp, hstage]
  · simp [feedFields, Json.strings, hraw, halert]

/-- An object of valid fields is valid. -/
theorem isUtf8_rawObject {fields : List Field} (hnames : ∀ f ∈ fields, IsUtf8 f.name)
    (hvalues : ∀ f ∈ fields, IsUtf8 (rawText f.value)) : IsUtf8 (rawObject fields) := by
  have hfields : ∀ t ∈ fields.map Field.text, IsUtf8 t := by
    intro t ht
    obtain ⟨f, hf, rfl⟩ := List.mem_map.mp ht
    have hvalue := (isUtf8_cons (c := 58) (by decide) _).mpr (hvalues f hf)
    exact (isUtf8_cons (by decide) _).mpr
      ((hnames f hf).append ((isUtf8_cons (by decide) _).mpr hvalue))
  exact (isUtf8_cons (by decide) _).mpr
    ((isUtf8_commaJoin hfields).append ((isUtf8_cons (by decide) _).mpr isUtf8_nil))

/-- A string of a valid text is valid between its quotes. -/
theorem isUtf8_rawText_str {t : Bytes} (h : IsUtf8 t) : IsUtf8 (rawText (.str t)) :=
  (isUtf8_cons (by decide) _).mpr (h.append ((isUtf8_cons (by decide) _).mpr isUtf8_nil))

theorem isUtf8_statusText (status : NodeStatus) : IsUtf8 (statusText status) := by
  cases status
  · exact isUtf8_text _ (by decide)
  · exact isUtf8_text _ (by decide)

/-- The names of fields are valid. -/
theorem isUtf8_names {fields : List Field} {names : List Bytes}
    (hmem : names ∈ [threatNames, nodeNames, statusNames, feedNames])
    (h : fields.map Field.name = names) : ∀ f ∈ fields, IsUtf8 f.name := by
  intro f hf
  have hname : f.name ∈ names := h ▸ List.mem_map_of_mem (f := Field.name) hf
  exact ((names_plain names hmem).2 f.name hname).2.isUtf8

end shapes

section results

variable {s : RestState}

/-- `/threats` is faithful exactly if all texts of threats are plain. -/
theorem threats_iff (hs : ValidTexts s) :
    Decodes (threatsBody s) (s.store.recentThreats.map threatValues) ↔
      ∀ t ∈ s.store.recentThreats,
        Plain t.threatId ∧ Plain t.sourceIp ∧ Plain t.ruleId ∧ Plain t.evidence := by
  have hvalid : ∀ t ∈ s.store.recentThreats, IsUtf8 (rawObject (threatFields t)) := by
    intro t ht
    obtain ⟨hid, hip, hrule, hev⟩ := hs.threats t ht
    refine isUtf8_rawObject (@isUtf8_names _ threatNames (by simp) rfl) ?_
    simp only [threatFields, List.forall_mem_cons]
    exact ⟨isUtf8_rawText_str hid, isUtf8_rawText_str hip, isUtf8_rawText_str hrule,
      isUtf8_rawText_str (isUtf8_severity _), isUtf8_rawText_str hev, by simp⟩
  rw [threatsBody, decodes_rows_iff (.inl rfl) threatValues threatText_eq (fun _ => rfl)
    threatFields_shaped hvalid]
  refine forall₂_congr fun t _ => ?_
  have hsev := plain_severity t.severity
  simp [threatValues, Flat, hsev]

/-- `/nodes` is faithful exactly if all texts of nodes are plain. -/
theorem nodes_iff (hs : ValidTexts s) :
    Decodes (nodesBody s) (s.registry.allNodes.map nodeValues) ↔
      ∀ n ∈ s.registry.allNodes, Plain n.nodeId ∧ Plain n.hostIp := by
  have hvalid : ∀ n ∈ s.registry.allNodes, IsUtf8 (rawObject (nodeFields n)) := by
    intro n hn
    obtain ⟨hid, hip⟩ := hs.nodes n hn
    refine isUtf8_rawObject (@isUtf8_names _ nodeNames (by simp) rfl) ?_
    simp only [nodeFields, List.forall_mem_cons]
    exact ⟨isUtf8_rawText_str hid, isUtf8_rawText_str hip,
      isUtf8_rawText_str (isUtf8_statusText _), (isAscii_dec _).isUtf8, (isAscii_dec _).isUtf8,
      by simp⟩
  rw [nodesBody, decodes_rows_iff (.inl rfl) nodeValues nodeText_eq (fun _ => rfl)
    nodeFields_shaped hvalid]
  refine forall₂_congr fun n _ => ?_
  have hstatus := plain_statusText n.status
  simp [nodeValues, Flat, hstatus]

/-- `/status` is faithful exactly if the texts of the first node are plain. -/
theorem status_iff (hs : ValidTexts s) :
    (∃ item, readJson (statusBody s) = some item ∧ HasMembers item (statusValues s)) ↔
      Plain (statusNode s) ∧ Plain (statusHost s) := by
  have hvalid : IsUtf8 (statusNode s) ∧ IsUtf8 (statusHost s) := by
    unfold statusNode statusHost
    cases hn : s.registry.allNodes with
    | nil => exact ⟨isUtf8_text _ (by decide), isUtf8_nil⟩
    | cons n rest => exact hs.nodes n (hn ▸ List.mem_cons_self)
  have hbool : IsUtf8 (rawText (.bool (zmqConnected s))) := by
    cases zmqConnected s
    · exact isUtf8_text _ (by decide)
    · exact isUtf8_text _ (by decide)
  have hbody : IsUtf8 (rawObject (statusFields s)) := by
    refine isUtf8_rawObject (@isUtf8_names _ statusNames (by simp) rfl) ?_
    simp only [statusFields, List.forall_mem_cons]
    exact ⟨isUtf8_rawText_str hvalid.1, isUtf8_rawText_str isUtf8_nil,
      isUtf8_rawText_str hvalid.2, isUtf8_rawText_str (isUtf8_text _ (by decide)),
      (isAscii_dec _).isUtf8, hbool, by simp⟩
  have hwanted : statusValues s = wantedOf (statusFields s) := rfl
  rw [statusBody_eq, hwanted, hasMembers_iff (.inr rfl) (statusFields_shaped s) hbody]
  simp [statusFields, wantedOf, Flat]

/-- `/feed` is faithful exactly if all texts of alerts that it shows are plain. -/
theorem feed_iff {isoTime : ℤ → Bytes} (hiso : IsoTime isoTime) (hs : ValidTexts s) :
    Decodes (feedBody isoTime s) (s.store.recentAlerts.map feedValues) ↔
      ∀ a ∈ s.store.recentAlerts, Plain a.sourceHost ∧ Plain a.description ∧ Plain a.ruleId := by
  have hvalid : ∀ a ∈ s.store.recentAlerts, IsUtf8 (rawObject (feedFields isoTime a)) := by
    intro a ha
    obtain ⟨hhost, hdesc, hrule⟩ := hs.alerts a ha
    have hline : IsUtf8 (rawLine a) := by
      have hblank : IsUtf8 (text " ") := isUtf8_text _ (by decide)
      have hdash : IsUtf8 emDash := by decide +kernel
      exact (((hhost.append hblank).append hdash).append hblank).append hdesc
    refine isUtf8_rawObject (@isUtf8_names _ feedNames (by simp) rfl) ?_
    simp only [feedFields, List.forall_mem_cons]
    exact ⟨isUtf8_rawText_str (isoTime_light hiso a.timestamp).2.2, isUtf8_rawText_str hline,
      isUtf8_rawText_str (isUtf8_text _ (by decide)), isUtf8_rawText_str hrule,
      isUtf8_rawText_str (isUtf8_severity _), by simp⟩
  rw [feedBody, decodes_rows_iff (.inl rfl) feedValues (feedText_eq isoTime) (fun _ => rfl)
    (feedFields_shaped hiso) hvalid]
  refine forall₂_congr fun a _ => ?_
  have hsev := plain_severity a.severity
  have hline : Plain (rawLine a) ↔ Plain a.sourceHost ∧ Plain a.description := by
    have happend : ∀ u v : Bytes, Plain (u ++ v) ↔ Plain u ∧ Plain v := fun u v =>
      List.forall_mem_append
    have hdash : Plain emDash ∧ Plain (text " ") := by decide
    simp only [rawLine, happend, hdash, and_true]
  simp [feedValues, Flat, hsev, hline, and_assoc]

/-- Each body is faithful exactly if the stored texts that it shows are plain. -/
theorem bodies_faithful_iff (isoTime : ℤ → Bytes) (hiso : IsoTime isoTime) (s : RestState)
    (hs : ValidTexts s) :
    (Decodes (threatsBody s) (s.store.recentThreats.map threatValues) ↔
      ∀ t ∈ s.store.recentThreats,
        Plain t.threatId ∧ Plain t.sourceIp ∧ Plain t.ruleId ∧ Plain t.evidence) ∧
    (Decodes (nodesBody s) (s.registry.allNodes.map nodeValues) ↔
      ∀ n ∈ s.registry.allNodes, Plain n.nodeId ∧ Plain n.hostIp) ∧
    ((∃ item, readJson (statusBody s) = some item ∧ HasMembers item (statusValues s)) ↔
      Plain (statusNode s) ∧ Plain (statusHost s)) ∧
    (Decodes (feedBody isoTime s) (s.store.recentAlerts.map feedValues) ↔
      ∀ a ∈ s.store.recentAlerts,
        Plain a.sourceHost ∧ Plain a.description ∧ Plain a.ruleId) ∧
    (Faithful isoTime s ↔
      (∀ t ∈ s.store.recentThreats,
        Plain t.threatId ∧ Plain t.sourceIp ∧ Plain t.ruleId ∧ Plain t.evidence) ∧
      (∀ n ∈ s.registry.allNodes, Plain n.nodeId ∧ Plain n.hostIp) ∧
      ∀ a ∈ s.store.recentAlerts,
        Plain a.sourceHost ∧ Plain a.description ∧ Plain a.ruleId) := by
  have hthreats := threats_iff hs
  have hnodes := nodes_iff hs
  have hstatus := status_iff hs
  have hfeed := feed_iff hiso hs
  refine ⟨hthreats, hnodes, hstatus, hfeed, ?_⟩
  constructor
  · intro h
    exact ⟨hthreats.mp h.threats, hnodes.mp h.nodes, hfeed.mp h.feed⟩
  · rintro ⟨ht, hn, ha⟩
    have hfirst : Plain (statusNode s) ∧ Plain (statusHost s) := by
      unfold statusNode statusHost
      cases hall : s.registry.allNodes with
      | nil => exact ⟨by decide, by decide⟩
      | cons n rest => exact hn n (hall ▸ List.mem_cons_self)
    exact ⟨hthreats.mpr ht, hnodes.mpr hn, hstatus.mpr hfirst, hfeed.mpr ha⟩

end results

section reachable

/-- The coordinator with its node registry. -/
structure System where
  /-- The engine and the store. -/
  coordinator : Coordinator
  /-- The registry. -/
  registry : NodeRegistry

/-- The coordinator's `main` on a new database. -/
def System.start : System := ⟨.start .init, .init 30⟩

/-- One pass of `zmq_alert_receiver` on an accepted alert. -/
def System.alert (s : System) (alert : AlertEvent) (nowSec now : ℤ) : System where
  coordinator := (s.coordinator.receive alert now).1
  registry := (s.registry.ping alert.sourceHost [] nowSec).recordAlert alert.sourceHost

/-- What the REST API reads. -/
def System.rest (s : System) : RestState := ⟨s.coordinator.store, s.registry⟩

/-- The states the coordinator comes to under messages; `parse` is the JSON
library's. -/
inductive Reachable (parse : Bytes → Option Json) : System → Prop
  /-- The start. -/
  | start : Reachable parse .start
  /-- An accepted alert. -/
  | alert {s : System} {raw : Bytes} {alert : AlertEvent} (h : Reachable parse s)
      (haccept : deserialize parse raw = some alert) (nowSec now : ℤ) :
      Reachable parse (s.alert alert nowSec now)
  /-- A heartbeat. -/
  | heartbeat {s : System} {raw : Bytes} {call : Call} (h : Reachable parse s)
      (hvalid : IsUtf8 raw) (hcall : heartbeatCall raw = some call) (nowSec : ℤ) :
      Reachable parse { s with registry := (registryMachine.step s.registry (call, nowSec)).1 }
  /-- A check of the watchdog. -/
  | check {s : System} (h : Reachable parse s) (nowSec : ℤ) :
      Reachable parse { s with registry := s.registry.checkDeadNodes nowSec }

end reachable

/-- An alert whose description quotes a word. -/
def quotedMessage : Bytes :=
  text "\x7b\"alert_id\":\"node-1-alert-1\",\"description\":\"login as \\\"root\\\"\"," ++
    text "\"rule_id\":\"SSH_BRUTE_FORCE\",\"severity\":\"HIGH\",\"source_host\":\"node-1\"," ++
    text "\"timestamp\":1700000000\x7d"

/-- The alert as it is accepted. -/
def quotedAlert : AlertEvent where
  alertId := text "node-1-alert-1"
  timestamp := 1700000000000000000
  sourceHost := text "node-1"
  ruleId := text "SSH_BRUTE_FORCE"
  severity := .high
  description := text "login as \"root\""

/-- A time as it is printed. -/
def someTime (_ : ℤ) : Bytes := text "2023-11-14T22:13:20"

theorem someTime_iso : IsoTime someTime := by
  intro t
  change ∀ c ∈ text "2023-11-14T22:13:20", _
  decide +kernel

/-- After the one alert the body of `/feed` is no JSON text. -/
theorem quoted_unfaithful : ¬∀ isoTime : ℤ → Bytes, IsoTime isoTime →
    ∀ s : System, Reachable readJson s → Faithful isoTime s.rest := by
  intro h
  have haccept : deserialize readJson quotedMessage = some quotedAlert := by decide +kernel
  have hreach : Reachable readJson (System.start.alert quotedAlert 1700000000 0) :=
    .alert .start haccept 1700000000 0
  obtain ⟨items, hread, -⟩ := (h someTime someTime_iso _ hreach).feed
  have hnone : (readJson (feedBody someTime
      (System.start.alert quotedAlert 1700000000 0).rest)).isNone = true := by decide +kernel
  rw [hread] at hnone
  cases hnone

/-- A store with an alert that holds no quote. -/
def plainState : RestState where
  store := { AlertStore.init with
    recentAlerts := [{ quotedAlert with description := text "login as root" }] }
  registry := .init 30

/-- Its `/feed` is faithful. -/
theorem plainState_feed :
    Decodes (feedBody someTime plainState) (plainState.store.recentAlerts.map feedValues) := by
  have hvalid : ValidTexts plainState := by
    have hempty : plainState.registry.allNodes = [] := by decide +kernel
    refine ⟨fun t ht => absurd ht List.not_mem_nil, fun n hn => ?_, ?_⟩
    · rw [hempty] at hn
      cases hn
    intro a ha
    rw [List.mem_singleton.mp ha]
    exact ⟨isUtf8_text _ (by decide), isUtf8_text _ (by decide), isUtf8_text _ (by decide)⟩
  refine (bodies_faithful_iff someTime someTime_iso plainState hvalid).2.2.2.1.mpr ?_
  intro a ha
  rw [List.mem_singleton.mp ha]
  decide

end Dlads.RestBodies
