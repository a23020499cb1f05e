import Dlads.EveExceptions
import Dlads.PrintedAlerts
import Dlads.RestBodies
import Dlads.StoreTotals

/-!
# The terminal dashboard

`/alerts` serves the stored alerts as the library prints them. The dashboard
asks for four bodies in each pass, takes its panels out of them one after the
other, and leaves a pass at the first member of a wrong type; what it has taken
by then stays. Bodies of a coordinator whose nodes have plain names take it
through to the threats, and its panels are what the coordinator holds.
-/

namespace Dlads.Dashboard

open ByteText Utf8Text StringMaps FloatFormat Records Correlation AlertDatabase Registry
open JsonValue JsonPrinting JsonReading JsonByHand JsonRoundTrip AlertWire WireRoundTrip
open EveLines (wrapInt32)
open EveExceptions (Thrown Throwing getString)
open Heartbeats (heartbeatCall)
open PrintedAlerts RestBodies StoreTotals

/-- The body of `/alerts`; it throws where `serialize` does. -/
def alertsBody (dump : Json → Option Bytes) (s : RestState) : Option Bytes :=
  (s.store.recentAlerts.mapM (serialize dump)).map fun texts =>
    text "[" ++ commaJoin texts ++ text "]"

/-- `value(key, fallback)`, with the library's conversion to its type. -/
def value {α : Type} (get : Json → Throwing α) (fallback : α) (j : Json) (key : Bytes) :
    Throwing α :=
  if j.isObject then
    match j.find key with
    | none => pure fallback
    | some member => get member
  else .error .typeError

/-- A floating-point number without its fraction. -/
def truncate (q : ℚ) : ℤ := if 0 ≤ q then ⌊q⌋ else ⌈q⌉

/-- `get` of an integer type that is not the library's own, with the conversion
to this type. -/
def getInteger (convert : ℤ → ℤ) : Json → Throwing ℤ
  | .int n => pure (convert n)
  | .real q => pure (convert (truncate q))
  | .bool b => pure (if b then 1 else 0)
  | _ => .error .typeError

/-- `get<double>()`. -/
def getDouble : Json → Throwing ℚ
  | .int n => pure n
  | .real q => pure q
  | _ => .error .typeError

/-- A row of the nodes panel. -/
structure NodeEntry where
  /-- The node. -/
  nodeId : Bytes
  /-- Its address. -/
  hostIp : Bytes
  /-- `ALIVE` or `DEAD`. -/
  status : Bytes
  /-- Number of its alerts. -/
  alertsSent : ℤ
  /-- Seconds since the epoch. -/
  lastSeen : ℤ

/-- A row of the alerts panel. -/
structure AlertEntry where
  /-- The alert. -/
  alertId : Bytes
  /-- The node that sent it. -/
  sourceHost : Bytes
  /-- Rule that fired. -/
  ruleId : Bytes
  /-- Name of the severity. -/
  severity : Bytes
  /-- Summary for operators. -/
  description : Bytes
  /-- Score of the alert. -/
  anomalyScore : ℚ
  /-- Seconds since the epoch. -/
  timestamp : ℤ
  /-- Address in the metadata. -/
  sourceIp : Bytes

/-- A row of the threats panel. -/
structure ThreatEntry where
  /-- The threat. -/
  threatId : Bytes
  /-- Address the nodes agree on. -/
  sourceIp : Bytes
  /-- Rule of the completing alert. -/
  ruleId : Bytes
  /-- Name of the severity. -/
  severity : Bytes
  /-- Summary for operators. -/
  evidence : Bytes

/-- `DashboardState` but for its mutex. -/
structure DashboardState where
  /-- `total_alerts`. -/
  totalAlerts : ℤ := 0
  /-- `total_threats`. -/
  totalThreats : ℤ := 0
  /-- `active_nodes`. -/
  activeNodes : ℤ := 0
  /-- `nodes`. -/
  nodes : List NodeEntry := []
  /-- `alerts`, the most recent one first. -/
  alerts : List AlertEntry := []
  /-- `threats`, the most recent one first. -/
  threats : List ThreatEntry := []
  /-- `last_updated`. -/
  lastUpdated : Bytes := []

/-- What `http_get` returned in a pass: nothing, or as much as came in time. -/
structure Responses where
  /-- Of `/stats`. -/
  stats : Bytes
  /-- Of `/nodes`. -/
  nodes : Bytes
  /-- Of `/alerts`. -/
  alerts : Bytes
  /-- Of `/threats`. -/
  threats : Bytes

/-- The row of an item of `/nodes`. -/
def nodeEntry (n : Json) : Throwing NodeEntry := do
  return {
    nodeId := ← value getString [] n (text "node_id")
    hostIp := ← value getString [] n (text "host_ip")
    status := ← value getString [] n (text "status")
    alertsSent := ← value (getInteger wrapInt32) 0 n (text "alerts_sent")
    lastSeen := ← value (getInteger wrapInt64) 0 n (text "last_seen") }

/-- `source_ip` in the metadata of an item, if it is there. -/
def metadataIp (a : Json) : Throwing Bytes :=
  match (a.find (text "metadata")).bind fun m => m.find (text "source_ip") with
  | some ip => getString ip
  | none => pure []

/-- The row of an item of `/alerts`. -/
def alertEntry (a : Json) : Throwing AlertEntry := do
  return {
    alertId := ← value getString [] a (text "alert_id")
    sourceHost := ← value getString [] a (text "source_host")
    ruleId := ← value getString [] a (text "rule_id")
    severity := ← value getString [] a (text "severity")
    description := ← value getString [] a (text "description")
    anomalyScore := ← value getDouble 0 a (text "anomaly_score")
    timestamp := ← value (getInteger wrapInt64) 0 a (text "timestamp")
    sourceIp := ← metadataIp a }

/-- The row of an item of `/threats`. -/
def threatEntry (t : Json) : Throwing ThreatEntry := do
  return {
    threatId := ← value getString [] t (text "threat_id")
    sourceIp := ← value getString [] t (text "source_ip")
    ruleId := ← value getString [] t (text "rule_id")
    severity := ← value getString [] t (text "severity")
    evidence := ← value getString [] t (text "evidence") }

/-- A loop over the items of an array: the rows up to the first exception, and
whether there was none. -/
def collect {α : Type} (entry : Json → Throwing α) : List Json → List α × Bool
  | [] => ([], true)
  | item :: rest =>
    match entry item with
    | .error _ => ([], false)
    | .ok row => (row :: (collect entry rest).1, (collect entry rest).2)

/-- `std::reverse`, then a cut to the size of the panel. -/
def newestFirst {α : Type} (size : ℕ) (rows : List α) : List α := rows.reverse.take size

section pass

variable (parse : Bytes → Option Json)

/-- An array that was served; anything else changes nothing. -/
def servedItems (raw : Bytes) : Option (List Json) :=
  if raw.isEmpty then none
  else
    match parse raw with
    | some (.arr items) => some items
    | _ => none

/-- The totals, and whether the pass goes on. -/
def fetchStats (raw : Bytes) (s : DashboardState) : DashboardState × Bool :=
  if raw.isEmpty then (s, true)
  else
    match parse raw with
    | none => (s, true)
    | some j =>
      match value (getInteger wrapInt32) 0 j (text "total_alerts") with
      | .error _ => (s, false)
      | .ok totalAlerts =>
        let s := { s with totalAlerts := totalAlerts }
        match value (getInteger wrapInt32) 0 j (text "total_threats") with
        | .error _ => (s, false)
        | .ok totalThreats =>
          let s := { s with totalThreats := totalThreats }
          match value (getInteger wrapInt32) 0 j (text "active_nodes") with
          | .error _ => (s, false)
          | .ok activeNodes => ({ s with activeNodes := activeNodes }, true)

/-- The nodes panel. -/
def fetchNodes (raw : Bytes) (s : DashboardState) : DashboardState × Bool :=
  match servedItems parse raw with
  | none => (s, true)
  | some items =>
    let (rows, complete) := collect nodeEntry items
    ({ s with nodes := rows }, complete)

/-- The alerts panel. -/
def fetchAlerts (raw : Bytes) (s : DashboardState) : DashboardState × Bool :=
  match servedItems parse raw with
  | none => (s, true)
  | some items =>
    let (rows, complete) := collect alertEntry items
    ({ s with alerts := if complete then newestFirst 20 rows else rows }, complete)

/-- The threats panel. -/
def fetchThreats (raw : Bytes) (s : DashboardState) : DashboardState × Bool :=
  match servedItems parse raw with
  | none => (s, true)
  | some items =>
    let (rows, complete) := collect threatEntry items
    ({ s with threats := if complete then newestFirst 10 rows else rows }, complete)

/-- A pass of `fetch_data` at a time of day; an exception leaves it. -/
def fetchData (clock : Bytes) (r : Responses) (s : DashboardState) : DashboardState :=
  let (s, complete) := fetchStats parse r.stats s
  if !complete then s
  else
    let (s, complete) := fetchNodes parse r.nodes s
    if !complete then s
    else
      let (s, complete) := fetchAlerts parse r.alerts s
      if !complete then s
      else
        let (s, complete) := fetchThreats parse r.threats s
        if !complete then s else { s with lastUpdated := clock }

end pass

section bodies

variable {lib : JsonLibrary} {real : ℚ → Bytes}

/-- The printed items of an array are their texts, separated by commas. -/
theorem commaJoin_compact (items : List Json) :
    commaJoin (items.map (compact real)) = compactItems real items := by
  induction items with
  | nil => rfl
  | cons item rest ih =>
    cases rest with
    | nil => rfl
    | cons next rest =>
      have hsplit : compactItems real (item :: next :: rest) =
          compact real item ++ 44 :: compactItems real (next :: rest) := rfl
      rw [hsplit, ← ih]
      rfl

theorem allUtf8_arr (items : List Json) :
    (Json.arr items).AllUtf8 ↔ ∀ item ∈ items, item.AllUtf8 := by
  induction items with
  | nil => exact iff_of_true (fun t ht => absurd ht List.not_mem_nil) (by simp)
  | cons item rest ih =>
    have hcons : (Json.arr (item :: rest)).AllUtf8 ↔ item.AllUtf8 ∧ (Json.arr rest).AllUtf8 :=
      List.forall_mem_append
    rw [hcons, ih, List.forall_mem_cons]

/-- An alert that can be served. -/
def Servable (a : AlertEvent) : Prop := AlertUtf8 a ∧ Sendable a

/-- Of alerts that can be served `/alerts` is what the library prints for one
array, which it reads back. -/
theorem alertsBody_reads (hlib : StandardLibrary lib real) {s : RestState}
    (h : ∀ a ∈ s.store.recentAlerts, Servable a) : ∃ body, alertsBody lib.dump s = some body ∧
      lib.dump (.arr (s.store.recentAlerts.map alertJson)) = some body ∧ body ≠ [] ∧
      lib.parse body = some (.arr (s.store.recentAlerts.map alertJson)) := by
  have htexts : ∀ alerts : List AlertEvent, (∀ a ∈ alerts, Servable a) →
      alerts.mapM (serialize lib.dump) = some ((alerts.map alertJson).map (compact real)) := by
    intro alerts halerts
    induction alerts with
    | nil => rfl
    | cons a rest ih =>
      obtain ⟨ha, hrest⟩ := List.forall_mem_cons.mp halerts
      have hone : serialize lib.dump a = some (compact real (alertJson a)) :=
        (hlib.dump _).trans (if_pos ((allUtf8_alertJson a).mpr ha.1))
      rw [List.mapM_cons, hone, ih hrest]
      rfl
  have hportable : Portable (.arr (s.store.recentAlerts.map alertJson)) := by
    refine formedItems_iff.mpr fun item hitem => ?_
    obtain ⟨a, ha, rfl⟩ := List.mem_map.mp hitem
    exact portable_alertJson (h a ha).2
  have hvalid : (Json.arr (s.store.recentAlerts.map alertJson)).AllUtf8 := by
    refine (allUtf8_arr _).mpr fun item hitem => ?_
    obtain ⟨a, ha, rfl⟩ := List.mem_map.mp hitem
    exact (allUtf8_alertJson a).mpr (h a ha).1
  obtain ⟨body, hdump, hne, hparse⟩ := hlib.sane.inverts _ hportable hvalid
  refine ⟨body, ?_, hdump, hne, hparse⟩
  rw [alertsBody, htexts _ h, Option.map_some, commaJoin_compact, ← hdump, hlib.dump, if_pos hvalid]
  rfl

/-- An array of objects that read as they are written, with integers in 64
bits. -/
theorem parse_rows (hlib : StandardLibrary lib real) {α : Type*} {mark : UInt8} {rows : List α}
    {rowText : α → Bytes} {fields : α → List Field} (htext : ∀ x, rowText x = rawObject (fields x))
    (hs : ∀ x, WellShaped mark (fields x)) (hflat : ∀ x ∈ rows, ∀ f ∈ fields x, Flat f.value)
    (hvalid : ∀ x ∈ rows, IsUtf8 (rawObject (fields x)))
    (hwhole : ∀ x ∈ rows, ∀ f ∈ fields x, Whole f.value) :
    lib.parse (text "[" ++ commaJoin (rows.map rowText) ++ text "]") =
      some (.arr (rows.map fun x => .obj (fieldsObject (fields x) []))) := by
  have hbody : text "[" ++ commaJoin (rows.map rowText) ++ text "]" =
      rawArray ((rows.map fields).map rawObject) := by
    rw [List.map_map, List.map_congr_left fun x _ => htext x]
    rfl
  have harray : IsUtf8 (rawArray ((rows.map fields).map rawObject)) := by
    refine isUtf8_rawArray fun t ht => ?_
    rw [List.map_map] at ht
    obtain ⟨x, hx, rfl⟩ := List.mem_map.mp ht
    exact hvalid x hx
  refine hlib.reads _ _ ?_ (formedItems_iff.mpr fun item hitem => ?_)
  · rw [hbody, readJson_rawArray (fun f hf => ?_) harray, List.map_map]
    · rfl
    · obtain ⟨x, hx, rfl⟩ := List.mem_map.mp hf
      exact ⟨(hs x).nonempty, (hs x).plain, hflat x hx⟩
  · obtain ⟨x, hx, rfl⟩ := List.mem_map.mp hitem
    exact formed_fieldsObject (hwhole x hx) ⟨List.Pairwise.nil, trivial⟩

end bodies

section rows

variable {α : Type}

theorem collect_map {β : Type} {entry : Json → Throwing α} {item : β → Json} {row : β → α}
    {xs : List β} (h : ∀ x ∈ xs, entry (item x) = .ok (row x)) :
    collect entry (xs.map item) = (xs.map row, true) := by
  induction xs with
  | nil => rfl
  | cons x rest ih =>
    obtain ⟨hx, hrest⟩ := List.forall_mem_cons.mp h
    rw [List.map_cons, collect, hx, ih hrest]
    rfl

/-- A member that is there is converted. -/
theorem value_of_find {get : Json → Throwing α} {fallback : α} {members : List (Bytes × Json)}
    {key : Bytes} {member : Json} (h : (Json.obj members).find key = some member) :
    value get fallback (.obj members) key = get member := by
  rw [value, h]
  rfl

/-- The row of a node. -/
def shownNode (n : NodeInfo) : NodeEntry where
  nodeId := n.nodeId
  hostIp := n.hostIp
  status := statusText n.status
  alertsSent := wrapInt32 n.alertsSent
  lastSeen := wrapInt64 n.lastSeenSec

/-- The number of a score. -/
def scoreValue : Binary32 → ℚ
  | .finite v => v
  | _ => 0

/-- The row of an alert. -/
def shownAlert (a : AlertEvent) : AlertEntry where
  alertId := a.alertId
  sourceHost := a.sourceHost
  ruleId := a.ruleId
  severity := a.severity.name
  description := a.description
  anomalyScore := scoreValue (sentScore a.anomalyScore)
  timestamp := wrapInt64 (wholeSeconds a.timestamp)
  sourceIp := (a.metadata.lookup (text "source_ip")).getD []

/-- The row of a threat. -/
def shownThreat (t : CorrelatedThreat) : ThreatEntry where
  threatId := t.threatId
  sourceIp := t.sourceIp
  ruleId := t.ruleId
  severity := t.severity.name
  evidence := t.evidence

theorem nodeEntry_nodeFields (n : NodeInfo) :
    nodeEntry (.obj (fieldsObject (nodeFields n) [])) = .ok (shownNode n) := by
  have hfind : ∀ f ∈ nodeFields n, (Json.obj (fieldsObject (nodeFields n) [])).find f.name =
      some f.value := fun f hf => find_fieldsObject (nodeFields_shaped n).nodup [] hf
  simp only [nodeFields, List.forall_mem_cons] at hfind
  obtain ⟨hid, hip, hstatus, hseen, hsent, -⟩ := hfind
  unfold nodeEntry
  rw [nodeFields, value_of_find hid, value_of_find hip, value_of_find hstatus,
    value_of_find hsent, value_of_find hseen]
  rfl

theorem threatEntry_threatFields (t : CorrelatedThreat) :
    threatEntry (.obj (fieldsObject (threatFields t) [])) = .ok (shownThreat t) := by
  have hfind : ∀ f ∈ threatFields t, (Json.obj (fieldsObject (threatFields t) [])).find f.name =
      some f.value := fun f hf => find_fieldsObject (threatFields_shaped t).nodup [] hf
  simp only [threatFields, List.forall_mem_cons] at hfind
  obtain ⟨hid, hip, hrule, hsev, hevidence, -⟩ := hfind
  unfold threatEntry
  rw [threatFields, value_of_find hid, value_of_find hip, value_of_find hrule,
    value_of_find hsev, value_of_find hevidence]
  rfl

/-- A key of the metadata is found in their object. -/
theorem find_metadataJson (m : StringMap Bytes) (key : Bytes) :
    (metadataJson m).find key = (m.lookup key).map .str := by
  have hfound : ∀ keys : List Bytes,
      (Json.obj (keys.map fun k => (k, .str ((m.lookup k).getD [])))).find key =
        if key ∈ keys then some (.str ((m.lookup key).getD [])) else none := by
    intro keys
    induction keys with
    | nil => rfl
    | cons k rest ih =>
      by_cases hk : k = key
      · simp [Json.find, hk]
      · simpa [Json.find, hk, Ne.symm hk] using ih
  have hmem : key ∈ m.keys.sort (· ≤ ·) ↔ key ∈ m := by rw [Finset.mem_sort, Finmap.mem_keys]
  rw [metadataJson, hfound]
  cases hlookup : m.lookup key with
  | none => rw [if_neg fun h => Finmap.lookup_eq_none.mp hlookup (hmem.mp h), Option.map_none]
  | some v =>
    rw [if_pos (hmem.mpr (Finmap.mem_iff.mpr ⟨v, hlookup⟩)), Option.getD_some, Option.map_some]

theorem alertEntry_alertJson {a : AlertEvent} (hscore : a.anomalyScore.WellFormed) :
    alertEntry (alertJson a) = .ok (shownAlert a) := by
  obtain ⟨v, hv, -⟩ := sentScore_spec hscore
  have hmeta : (alertJson a).find (text "metadata") = some (metadataJson a.metadata) := rfl
  have hnumber : value getDouble 0 (alertJson a) (text "anomaly_score") =
      .ok (scoreValue (sentScore a.anomalyScore)) := by
    have hmember : value getDouble 0 (alertJson a) (text "anomaly_score") =
      getDouble (scoreJson (sentScore a.anomalyScore)) := rfl
    rw [hmember, hv]
    rfl
  have hip : metadataIp (alertJson a) = .ok ((a.metadata.lookup (text "source_ip")).getD []) := by
    rw [metadataIp, hmeta, Option.bind_some, find_metadataJson]
    cases a.metadata.lookup (text "source_ip") <;> rfl
  unfold alertEntry
  rw [hnumber, hip]
  rfl

end rows

section panels

variable {lib : JsonLibrary} {real : ℚ → Bytes}

theorem servedItems_of_read {parse : Bytes → Option Json} {raw : Bytes} {items : List Json}
    (hne : raw ≠ []) (h : parse raw = some (.arr items)) : servedItems parse raw = some items := by
  have hempty : raw.isEmpty = false := by simpa using hne
  rw [servedItems, hempty, h]
  rfl

/-- Texts of nodes that read as they are written. -/
def PlainNodes (s : RestState) : Prop := ∀ n ∈ s.registry.allNodes,
  (IsUtf8 n.nodeId ∧ Plain n.nodeId) ∧ IsUtf8 n.hostIp ∧ Plain n.hostIp

/-- Numbers of nodes that fit in 64 bits. -/
def FitNodes (s : RestState) : Prop :=
  ∀ n ∈ s.registry.allNodes, IsInt64 n.lastSeenSec ∧ IsInt64 n.alertsSent

/-- Texts of threats that read as they are written. -/
def PlainThreats (s : RestState) : Prop := ∀ t ∈ s.store.recentThreats,
  (IsUtf8 t.threatId ∧ Plain t.threatId) ∧ (IsUtf8 t.sourceIp ∧ Plain t.sourceIp) ∧
    (IsUtf8 t.ruleId ∧ Plain t.ruleId) ∧ IsUtf8 t.evidence ∧ Plain t.evidence

/-- The members of `/stats`. -/
def totalsFields (a t n : ℤ) : List Field :=
  [⟨text "total_alerts", .int a, true⟩, ⟨text "total_threats", .int t, true⟩,
    ⟨text "active_nodes", .int n, true⟩]

theorem statsText_eq (a t n : ℤ) : statsText a t n = rawObject (totalsFields a t n) := by
  simp only [statsText, totalsFields, rawObject, List.map_cons, List.map_nil, commaJoin,
    Field.text, rawText, text, String.toList, List.cons_append, List.append_assoc]
  rfl

/-- `/stats` is read whatever its numbers are. -/
theorem readJson_statsText (a t n : ℤ) :
    readJson (statsText a t n) = some (.obj (fieldsObject (totalsFields a t n) [])) := by
  have hnames : ∀ f ∈ totalsFields a t n, Plain f.name ∧ IsAscii f.name := by
    have hall : ∀ name ∈ [text "total_alerts", text "total_threats", text "active_nodes"],
        Plain name ∧ IsAscii name := by decide
    exact fun f hf => hall f.name (List.mem_map_of_mem (f := Field.name) hf)
  rw [statsText_eq]
  refine readJson_rawObject (List.cons_ne_nil _ _) (fun f hf => (hnames f hf).1) ?_
    (isUtf8_rawObject (fun f hf => (hnames f hf).2.isUtf8) ?_)
  · simp [totalsFields, Flat]
  · simp only [totalsFields, List.forall_mem_cons]
    exact ⟨(isAscii_dec a).isUtf8, (isAscii_dec t).isUtf8, (isAscii_dec n).isUtf8, by simp⟩

/-- The totals are taken from a body of `/stats`. -/
theorem fetchStats_statsText (hlib : StandardLibrary lib real) {a t n : ℤ} (ha : IsInt64 a)
    (ht : IsInt64 t) (hn : IsInt64 n) (d : DashboardState) :
    fetchStats lib.parse (statsText a t n) d =
      ({ d with
          totalAlerts := wrapInt32 a
          totalThreats := wrapInt32 t
          activeNodes := wrapInt32 n }, true) := by
  have hnodup : ((totalsFields a t n).map Field.name).Nodup := by
    change [text "total_alerts", text "total_threats", text "active_nodes"].Nodup
    decide
  have hfind : ∀ f ∈ totalsFields a t n,
      (Json.obj (fieldsObject (totalsFields a t n) [])).find f.name = some f.value :=
    fun f hf => find_fieldsObject hnodup [] hf
  have hwhole : ∀ f ∈ totalsFields a t n, Whole f.value := by
    simp only [totalsFields, List.forall_mem_cons]
    exact ⟨ha, ht, hn, fun f hf => absurd hf List.not_mem_nil⟩
  have hread : lib.parse (statsText a t n) = some (.obj (fieldsObject (totalsFields a t n) [])) :=
    hlib.reads _ _ (readJson_statsText a t n)
      (formed_fieldsObject hwhole ⟨List.Pairwise.nil, trivial⟩)
  have hne : (statsText a t n).isEmpty = false := rfl
  rw [fetchStats, hne, hread]
  simp only [totalsFields, List.forall_mem_cons] at hfind ⊢
  obtain ⟨halerts, hthreats, hnodes, -⟩ := hfind
  rw [value_of_find halerts, value_of_find hthreats, value_of_find hnodes]
  rfl

theorem fetchNodes_nodesBody (hlib : StandardLibrary lib real) {s : RestState} (h : PlainNodes s)
    (hfit : FitNodes s) (d : DashboardState) : fetchNodes lib.parse (nodesBody s) d =
      ({ d with nodes := s.registry.allNodes.map shownNode }, true) := by
  have hread : lib.parse (nodesBody s) =
      some (.arr (s.registry.allNodes.map fun n => .obj (fieldsObject (nodeFields n) []))) := by
    refine parse_rows hlib nodeText_eq nodeFields_shaped (fun n hn => ?_) (fun n hn => ?_)
      fun n hn => ?_
    · obtain ⟨⟨-, hid⟩, -, hip⟩ := h n hn
      have hstatus := plain_statusText n.status
      simp [nodeFields, Flat, hid, hip, hstatus]
    · obtain ⟨⟨hid, -⟩, hip, -⟩ := h n hn
      refine isUtf8_rawObject (@isUtf8_names _ nodeNames (by simp) rfl) ?_
      simp only [nodeFields, List.forall_mem_cons]
      exact ⟨isUtf8_rawText_str hid, isUtf8_rawText_str hip,
        isUtf8_rawText_str (isUtf8_statusText _), (isAscii_dec _).isUtf8, (isAscii_dec _).isUtf8,
        by simp⟩
    · simp only [nodeFields, List.forall_mem_cons]
      exact ⟨trivial, trivial, trivial, (hfit n hn).1, (hfit n hn).2,
        fun f hf => absurd hf List.not_mem_nil⟩
  have hne : nodesBody s ≠ [] := List.cons_ne_nil _ _
  rw [fetchNodes, servedItems_of_read hne hread]
  dsimp only
  rw [collect_map fun n _ => nodeEntry_nodeFields n]

theorem fetchAlerts_alertsBody {parse : Bytes → Option Json} {s : RestState}
    (h : ∀ a ∈ s.store.recentAlerts, Servable a) {body : Bytes} (hne : body ≠ [])
    (hread : parse body = some (.arr (s.store.recentAlerts.map alertJson)))
    (d : DashboardState) : fetchAlerts parse body d =
      ({ d with alerts := newestFirst 20 (s.store.recentAlerts.map shownAlert) }, true) := by
  rw [fetchAlerts, servedItems_of_read hne hread]
  dsimp only
  rw [collect_map fun a ha => alertEntry_alertJson (h a ha).2.score]
  rfl

theorem fetchThreats_threatsBody (hlib : StandardLibrary lib real) {s : RestState}
    (h : PlainThreats s) (d : DashboardState) : fetchThreats lib.parse (threatsBody s) d =
      ({ d with threats := newestFirst 10 (s.store.recentThreats.map shownThreat) }, true) := by
  have hread : lib.parse (threatsBody s) =
      some (.arr (s.store.recentThreats.map fun t => .obj (fieldsObject (threatFields t) []))) := by
    refine parse_rows hlib threatText_eq threatFields_shaped (fun t ht => ?_) (fun t ht => ?_)
      fun t ht => ?_
    · obtain ⟨⟨-, hid⟩, ⟨-, hip⟩, ⟨-, hrule⟩, -, hevidence⟩ := h t ht
      have hsev := plain_severity t.severity
      simp [threatFields, Flat, hid, hip, hrule, hsev, hevidence]
    · obtain ⟨⟨hid, -⟩, ⟨hip, -⟩, ⟨hrule, -⟩, hevidence, -⟩ := h t ht
      refine isUtf8_rawObject (@isUtf8_names _ threatNames (by simp) rfl) ?_
      simp only [threatFields, List.forall_mem_cons]
      exact ⟨isUtf8_rawText_str hid, isUtf8_rawText_str hip, isUtf8_rawText_str hrule,
        isUtf8_rawText_str (isUtf8_severity _), isUtf8_rawText_str hevidence, by simp⟩
    · simp only [threatFields, List.forall_mem_cons]
      exact ⟨trivial, trivial, trivial, trivial, trivial, fun f hf => absurd hf List.not_mem_nil⟩
  have hne : threatsBody s ≠ [] := List.cons_ne_nil _ _
  rw [fetchThreats, servedItems_of_read hne hread]
  dsimp only
  rw [collect_map fun t _ => threatEntry_threatFields t]
  rfl

/-- The threats are fetched into their panel. -/
theorem fetchThreats_frame (parse : Bytes → Option Json) (raw : Bytes) (d : DashboardState) :
    ∃ threats, (fetchThreats parse raw d).1 = { d with threats := threats } := by
  unfold fetchThreats
  split
  · exact ⟨d.threats, rfl⟩
  · exact ⟨_, rfl⟩

/-- A pass that comes to the threats. -/
theorem fetchData_of_complete {parse : Bytes → Option Json} {r : Responses}
    {d d₁ d₂ d₃ : DashboardState} (hstats : fetchStats parse r.stats d = (d₁, true))
    (hnodes : fetchNodes parse r.nodes d₁ = (d₂, true))
    (halerts : fetchAlerts parse r.alerts d₂ = (d₃, true)) (clock : Bytes) :
    fetchData parse clock r d =
      if !(fetchThreats parse r.threats d₃).2 then (fetchThreats parse r.threats d₃).1
      else { (fetchThreats parse r.threats d₃).1 with lastUpdated := clock } := by
  rw [fetchData, hstats]
  dsimp only
  rw [hnodes]
  dsimp only
  rw [halerts]
  rfl

/-- The panels are those of a coordinator, each at the moment of its request. -/
structure Shows (atStats atNodes atAlerts : RestState) (d : DashboardState) : Prop where
  /-- The totals. -/
  totals : d.totalAlerts = wrapInt32 (alertCount atStats.store) ∧
    d.totalThreats = wrapInt32 (threatCount atStats.store) ∧
    d.activeNodes = wrapInt32 atStats.registry.aliveCount
  /-- The nodes. -/
  nodes : d.nodes = atNodes.registry.allNodes.map shownNode
  /-- The last twenty alerts. -/
  alerts : d.alerts = newestFirst 20 (atAlerts.store.recentAlerts.map shownAlert)

/-- Whatever comes of the threats, the other panels stay. -/
theorem Shows.fetchThreats {atStats atNodes atAlerts : RestState} {d : DashboardState}
    (h : Shows atStats atNodes atAlerts d) (parse : Bytes → Option Json) (raw clock : Bytes) :
    Shows atStats atNodes atAlerts
      (if !(fetchThreats parse raw d).2 then (fetchThreats parse raw d).1
      else { (fetchThreats parse raw d).1 with lastUpdated := clock }) := by
  obtain ⟨threats, hframe⟩ := fetchThreats_frame parse raw d
  rw [hframe]
  split <;> exact ⟨h.totals, h.nodes, h.alerts⟩

/-- What `http_get` returns in a pass if the coordinator answers in full. -/
structure Answered (dump : Json → Option Bytes) (atStats atNodes atAlerts : RestState)
    (r : Responses) : Prop where
  /-- Of `/stats`. -/
  stats : r.stats = statsBody atStats.store atStats.registry
  /-- Of `/nodes`. -/
  nodes : r.nodes = nodesBody atNodes
  /-- Of `/alerts`. -/
  alerts : alertsBody dump atAlerts = some r.alerts

/-- Totals that fit in 64 bits. -/
def FitTotals (s : RestState) : Prop :=
  IsInt64 (alertCount s.store) ∧ IsInt64 (threatCount s.store) ∧ IsInt64 s.registry.aliveCount

/-- A pass on the bodies of a coordinator with plain nodes shows what it holds,
and its threats if their texts are plain. -/
theorem fetchData_shows (hlib : StandardLibrary lib real) {atStats atNodes atAlerts : RestState}
    {r : Responses} (h : Answered lib.dump atStats atNodes atAlerts r)
    (htotals : FitTotals atStats) (hnodes : PlainNodes atNodes) (hfit : FitNodes atNodes)
    (halerts : ∀ a ∈ atAlerts.store.recentAlerts, Servable a) (clock : Bytes)
    (d : DashboardState) : Shows atStats atNodes atAlerts (fetchData lib.parse clock r d) ∧
      ∀ atThreats, r.threats = threatsBody atThreats → PlainThreats atThreats →
        (fetchData lib.parse clock r d).threats =
            newestFirst 10 (atThreats.store.recentThreats.map shownThreat) ∧
          (fetchData lib.parse clock r d).lastUpdated = clock := by
  obtain ⟨body, hbody, -, hne, hread⟩ := alertsBody_reads hlib halerts
  rw [h.alerts] at hbody
  cases hbody
  obtain ⟨ha, ht, hn⟩ := htotals
  have hstats := fetchStats_statsText hlib ha ht hn d
  rw [← statsBody, ← h.stats] at hstats
  have hnodes := fetchNodes_nodesBody hlib hnodes hfit { d with
    totalAlerts := wrapInt32 (alertCount atStats.store)
    totalThreats := wrapInt32 (threatCount atStats.store)
    activeNodes := wrapInt32 atStats.registry.aliveCount }
  rw [← h.nodes] at hnodes
  rw [fetchData_of_complete hstats hnodes (fetchAlerts_alertsBody halerts hne hread _)]
  constructor
  · refine Shows.fetchThreats ?_ lib.parse r.threats clock
    refine ⟨?_, rfl, rfl⟩
    dsimp only
    exact ⟨rfl, rfl, rfl⟩
  · intro atThreats hthreats hplain
    rw [hthreats, fetchThreats_threatsBody hlib hplain]
    exact ⟨rfl, rfl⟩

end panels

section stored

theorem mem_pushRecent {α : Type*} {limit : ℕ} {recent : List α} {x y : α}
    (h : x ∈ pushRecent limit recent y) : x ∈ recent ∨ x = y := by
  have hall : x ∈ recent ++ [y] := by
    unfold pushRecent at h
    split at h
    · exact List.mem_of_mem_drop h
    · exact h
  simpa using hall

/-- A receive keeps the alert among the recent ones. -/
theorem recentAlerts_receive (c : Coordinator) (alert : AlertEvent) (now : ℤ) :
    (c.receive alert now).1.store.recentAlerts = pushRecent 100 c.store.recentAlerts alert := by
  unfold Coordinator.receive
  dsimp only
  split <;> rfl

/-- What comes to the coordinator. -/
inductive Message
  /-- `zmq_alert_receiver` gets some bytes. -/
  | alert (raw : Bytes) (nowSec now : ℤ)
  /-- `zmq_heartbeat_receiver` gets some bytes. -/
  | heartbeat (raw : Bytes) (nowSec : ℤ)
  /-- The watchdog checks the nodes. -/
  | check (nowSec : ℤ)
  /-- The process is replaced by a new one on the same database. -/
  | restart

/-- The coordinator takes what comes; `parse` is the JSON library's. -/
def take (parse : Bytes → Option Json) (s : System) : Message → System
  | .alert raw nowSec now =>
    match deserialize parse raw with
    | none => s
    | some alert => s.alert alert nowSec now
  | .heartbeat raw nowSec =>
    match heartbeatCall raw with
    | none => s
    | some call => { s with registry := (registryMachine.step s.registry (call, nowSec)).1 }
  | .check nowSec => { s with registry := s.registry.checkDeadNodes nowSec }
  | .restart => ⟨.start s.coordinator.store.reopen, .init 30⟩

/-- The coordinator after some messages. -/
def afterAll (parse : Bytes → Option Json) (messages : List Message) : System :=
  messages.foldl (take parse) .start

variable {lib : JsonLibrary} {real : ℚ → Bytes}

/-- An alert that was accepted can be served. -/
theorem servable_of_deserialize (hlib : StandardLibrary lib real) {raw : Bytes} {alert : AlertEvent}
    (h : deserialize lib.parse raw = some alert) : Servable alert := by
  unfold deserialize at h
  split at h
  · cases h
  · obtain ⟨j, hread, hmade⟩ := Option.bind_eq_some_iff.mp h
    exact ⟨alertUtf8_of_json hmade (hlib.valid raw j hread), sendable_of_json hmade⟩

/-- A message keeps what is stored servable. -/
theorem servable_take (hlib : StandardLibrary lib real) {s : System}
    (h : ∀ a ∈ s.rest.store.recentAlerts, Servable a) (message : Message) :
    ∀ a ∈ (take lib.parse s message).rest.store.recentAlerts, Servable a := by
  cases message with
  | alert raw nowSec now =>
    dsimp only [take]
    split
    · exact h
    · next alert haccept =>
      intro a ha
      have ha := (recentAlerts_receive _ _ _).symm ▸ ha
      rcases mem_pushRecent ha with hold | rfl
      · exact h a hold
      · exact servable_of_deserialize hlib haccept
  | heartbeat raw nowSec =>
    dsimp only [take]
    split <;> exact h
  | check nowSec => exact h
  | restart => exact fun a ha => absurd ha List.not_mem_nil

/-- Whatever was sent to a coordinator, what it stored can be served. -/
theorem servable_afterAll (hlib : StandardLibrary lib real) (messages : List Message) :
    ∀ a ∈ (afterAll lib.parse messages).rest.store.recentAlerts, Servable a := by
  induction messages using List.reverseRecOn with
  | nil => exact fun a ha => absurd ha List.not_mem_nil
  | append_singleton messages message ih =>
    rw [afterAll, List.foldl_append]
    exact servable_take hlib ih message

/-- Whatever was sent to a coordinator, `/alerts` is what the library prints
for one JSON array, and the stored alerts are taken out of it in order, quotes
and all. -/
theorem alerts_served (hlib : StandardLibrary lib real) (messages : List Message) :
    ∃ body items, alertsBody lib.dump (afterAll lib.parse messages).rest = some body ∧
      lib.dump (.arr items) = some body ∧ lib.parse body = some (.arr items) ∧
      items.map alertOfJson = (afterAll lib.parse messages).rest.store.recentAlerts.map
        fun a => some (asReceived a) := by
  obtain ⟨body, hbody, hdump, -, hread⟩ :=
    alertsBody_reads hlib (servable_afterAll hlib messages)
  refine ⟨body, _, hbody, hdump, hread, ?_⟩
  rw [List.map_map]
  exact List.map_congr_left fun a _ => alertOfJson_sent a

/-- An alert that `/feed` cannot show, a text that is none, and a heartbeat that
is no UTF-8. -/
def oddMessages : List Message :=
  [.alert quotedMessage 1700000000 0, .alert (text "\x7b") 1700000001 0,
    .heartbeat [255] 1700000002]

theorem alerts_served_quoted :
    (afterAll standardLibrary.parse oddMessages).rest.store.recentAlerts = [quotedAlert] ∧
      ∃ body items,
        alertsBody standardLibrary.dump (afterAll standardLibrary.parse oddMessages).rest =
            some body ∧
          standardLibrary.dump (.arr items) = some body ∧
          standardLibrary.parse body = some (.arr items) ∧
          items.map alertOfJson =
            (afterAll standardLibrary.parse oddMessages).rest.store.recentAlerts.map
              fun a => some (asReceived a) := by
  have haccept : deserialize standardLibrary.parse quotedMessage = some quotedAlert := by
    decide +kernel
  have hreject : deserialize standardLibrary.parse (text "\x7b") = none := by decide +kernel
  have hsilent : heartbeatCall [255] = none := by decide +kernel
  refine ⟨?_, alerts_served standard_standardLibrary oddMessages⟩
  simp only [afterAll, oddMessages, List.foldl_cons, List.foldl_nil, take, haccept, hreject,
    hsilent]
  rfl

end stored

end Dlads.Dashboard
