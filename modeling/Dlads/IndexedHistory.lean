import Dlads.YamlConfig

/-!
# Source addresses and the event index

How a log event is attributed to an address, and the index that
`RuleEngine::process` builds over a snapshot before it runs the rules. A
pointer into the snapshot is represented by the event it points at. Each view
of the index is a filtered snapshot, in snapshot order.
-/

namespace Dlads.IndexedHistory

open ByteText StringMaps Records

/-- `icontains(haystack, needle)`. -/
def icontains (haystack needle : Bytes) : Bool := isearch needle haystack

/-- `parse_from_ip`: the text between the first `from ` and the next blank. -/
def parseFromIp (msg : Bytes) : Bytes :=
  match find (text "from ") msg with
  | none => []
  | some pos => (msg.drop (pos + 5)).takeWhile (· != 32)

/-- `parse_kv_field`: the text after the first key up to white space. -/
def parseKvField (msg key : Bytes) : Bytes :=
  match find key msg with
  | none => []
  | some pos => (msg.drop (pos + key.length)).takeWhile (!(text " \t\x0d\n").contains ·)

/-- `parse_dpt`: the destination port of a packet-filter line, or -1. -/
def parseDpt (msg : Bytes) : ℤ :=
  let val := parseKvField msg (text "DPT=")
  if val.isEmpty then -1 else (fromChars val).getD (-1)

/-- `parse_sudo_user`: the word after the last ` by `. -/
def parseSudoUser (msg : Bytes) : Bytes :=
  match rfind (text " by ") msg with
  | none => []
  | some pos => (msg.drop (pos + 4)).takeWhile (!(text " \t(").contains ·)

/-- `extract_src_ip`: three fields in order, then `SRC=`, then `from `. -/
def extractSrcIp (ev : LogEvent) : Bytes :=
  match ev.fields.lookup (text "src_ip") with
  | some ip => ip
  | none =>
    match ev.fields.lookup (text "client") with
    | some ip => ip
    | none =>
      match ev.fields.lookup (text "src") with
      | some ip => ip
      | none =>
        let src := parseKvField ev.message (text "SRC=")
        if !src.isEmpty then src else parseFromIp ev.message

/-- `EventIndex`. -/
structure EventIndex where
  /-- Events by extracted address. -/
  byIp : StringMap (List LogEvent) := ∅
  /-- Events by log source. -/
  bySource : StringMap (List LogEvent) := ∅
  /-- Events of the last minute. -/
  last60s : List LogEvent := []
  /-- Events of the last five minutes. -/
  last300s : List LogEvent := []

/-- One iteration of the loop in `build_index`. -/
def indexEvent (now : ℤ) (idx : EventIndex) (ev : LogEvent) : EventIndex :=
  if ev.timestamp < now - hours 24 then idx
  else
    let idx := { idx with
      byIp := pushBack idx.byIp (extractSrcIp ev) ev
      bySource := pushBack idx.bySource ev.logSource ev }
    if now - seconds 300 ≤ ev.timestamp then
      let idx := { idx with last300s := idx.last300s ++ [ev] }
      if now - seconds 60 ≤ ev.timestamp then { idx with last60s := idx.last60s ++ [ev] } else idx
    else idx

/-- `RuleEngine::build_index`. -/
def buildIndex (snapshot : List LogEvent) (now : ℤ) : EventIndex :=
  snapshot.foldl (indexEvent now) {}

/-- Events not older than a day, the only ones the index admits. -/
def ofLastDay (now : ℤ) (ev : LogEvent) : Bool := now - hours 24 ≤ ev.timestamp

/-- An iteration pushes an admitted event into both groupings. -/
theorem indexEvent_groups (now : ℤ) (idx : EventIndex) (ev : LogEvent) :
    (indexEvent now idx ev).byIp =
        (if ofLastDay now ev then pushBack idx.byIp (extractSrcIp ev) ev else idx.byIp) ∧
      (indexEvent now idx ev).bySource =
        (if ofLastDay now ev then pushBack idx.bySource ev.logSource ev else idx.bySource) := by
  by_cases hold : ev.timestamp < now - hours 24
  · have hday : ofLastDay now ev = false := decide_eq_false (by omega)
    rw [indexEvent, if_pos hold, hday]
    exact ⟨rfl, rfl⟩
  · have hday : ofLastDay now ev = true := decide_eq_true (by omega)
    rw [indexEvent, if_neg hold, hday]
    dsimp only
    split
    · split <;> exact ⟨rfl, rfl⟩
    · exact ⟨rfl, rfl⟩

/-- A view of the index that each admitted event is pushed into is the
grouping of the admitted events. -/
theorem foldl_indexEvent_view (view : EventIndex → StringMap (List LogEvent))
    (key : LogEvent → Bytes) (now : ℤ)
    (hview : ∀ idx ev, view (indexEvent now idx ev) =
      if ofLastDay now ev then pushBack (view idx) (key ev) ev else view idx)
    (snapshot : List LogEvent) (idx : EventIndex) :
    view (snapshot.foldl (indexEvent now) idx) =
      (snapshot.filter (ofLastDay now)).foldl (fun m ev => pushBack m (key ev) ev) (view idx) := by
  induction snapshot generalizing idx with
  | nil => rfl
  | cons ev rest ih =>
    rw [List.foldl_cons, ih, hview]
    by_cases hday : ofLastDay now ev = true
    · rw [if_pos hday, List.filter_cons_of_pos hday, List.foldl_cons]
    · rw [if_neg hday, List.filter_cons_of_neg hday]

/-- The address bucket holds the events of the last day from that address, in
snapshot order. -/
theorem bucket_byIp_buildIndex (snapshot : List LogEvent) (now : ℤ) (ip : Bytes) :
    bucket (buildIndex snapshot now).byIp ip =
      (snapshot.filter (ofLastDay now)).filter fun e => extractSrcIp e = ip := by
  have hv := foldl_indexEvent_view EventIndex.byIp extractSrcIp now
    (fun idx ev => (indexEvent_groups now idx ev).1) snapshot {}
  rw [buildIndex, hv, bucket_foldl_pushBack, bucket_empty, List.nil_append]

/-- The source bucket holds the events of the last day from that source, in
snapshot order. -/
theorem bucket_bySource_buildIndex (snapshot : List LogEvent) (now : ℤ) (src : Bytes) :
    bucket (buildIndex snapshot now).bySource src =
      (snapshot.filter (ofLastDay now)).filter fun e => e.logSource = src := by
  have hv := foldl_indexEvent_view EventIndex.bySource LogEvent.logSource now
    (fun idx ev => (indexEvent_groups now idx ev).2) snapshot {}
  rw [buildIndex, hv, bucket_foldl_pushBack, bucket_empty, List.nil_append]

end Dlads.IndexedHistory
