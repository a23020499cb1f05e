import Dlads.Dashboard
import Dlads.ThreatProvenance

/-!
# What the operator sees

Agents, network, coordinator and dashboard together. If the ids of the nodes
need no escape, a pass of the dashboard shows the last twenty alerts that the
coordinator's process has accepted, the most recent one first, and a row for
each node with the number of its alerts, whatever texts the alerts hold. The
column for their address stays empty: the agents send it under another key
than the dashboard reads.
-/

namespace Dlads.OperatorView

open ByteText Utf8Text TextSearch StringMaps FloatFormat Records AlertDatabase Registry Heartbeats
open JsonValue JsonPrinting AlertWire WireRoundTrip LossyChannel PrintedAlerts
open AgentProcesses DistributedRuns ThreatProvenance Dashboard StoreTotals RaisedAlerts
open EveLines (wrapInt32 eveAlert eveMetadata putField)
open AgentPipeline (stampAlert)

section heartbeats

/-- The name under which a heartbeat pings its node: what is printed for the id,
up to a quote. -/
def beatName (nodeId : Bytes) : Bytes := (escape nodeId).takeWhile (· != 34)

variable (real : ℚ → Bytes) (hb : HeartbeatMessage)

/-- No heartbeat tells an address. -/
theorem extract_host_ip : extract (compact real hb.json) (text "host_ip") = [] := by
  have hneedle : ∀ needleRest ∈ [text " \"", text "\""],
      44 ∉ 34 :: (text "host_ip" ++ 34 :: 58 :: needleRest) ∧
        ∀ member ∈ [text "\"node_id\":", text "\"status\":"],
          Apart (34 :: (text "host_ip" ++ 34 :: 58 :: needleRest)) member := by decide
  have hnone : ∀ needleRest ∈ [text " \"", text "\""],
      after (34 :: (text "host_ip" ++ 34 :: 58 :: needleRest)) (compact real hb.json) = none := by
    intro needleRest hrest
    obtain ⟨hcomma, hapart⟩ := hneedle needleRest hrest
    have hnode : ∀ t, text "\"node_id\":\"" ++ t = text "\"node_id\":" ++ 34 :: t := fun _ => rfl
    have hstatus : ∀ t, text "\"status\":\"" ++ t = text "\"status\":" ++ 34 :: t := fun _ => rfl
    have ho : 111 ∈ 34 :: (text "host_ip" ++ 34 :: 58 :: needleRest) :=
      List.mem_cons_of_mem _ (List.mem_append_left _ (by decide))
    rw [compact_json, after_headText hb (List.cons_ne_nil _ _) ho hcomma, hnode,
      after_append_of_apart (hapart _ (by simp)), after_string (by decide) (by decide) (by decide),
      hstatus, after_append_of_apart (hapart _ (by simp)),
      after_string (by decide) (by decide) (by decide), after_eq_none ho (no_o_tailText hb)]
  have hspaced : text "\"" ++ text "host_ip" ++ text "\": \"" =
      34 :: (text "host_ip" ++ 34 :: 58 :: text " \"") := by decide
  have hclose : text "\"" ++ text "host_ip" ++ text "\":\"" =
      34 :: (text "host_ip" ++ 34 :: 58 :: text "\"") := by decide
  rw [extract, extractBehind, extractBehind, hspaced, hclose, hnone _ (by simp), hnone _ (by simp)]
  rfl

end heartbeats

section steps

variable {ι : Type*} [DecidableEq ι] (d : Deployed ι) (s : Network ι)

/-- Every heartbeat on its way was printed by its process. -/
theorem beats_step (action : DistributedRuns.Action ι) {i : ι} {raw : Bytes}
    (h : raw ∈ ((s.step d action).1.beats i).inFlight) : raw ∈ (s.beats i).inFlight ∨
      ∃ timestamp, (heartbeatOf (d.site i) (s.agents i) timestamp).toJSON d.lib.dump = some raw := by
  have hkept : ∀ {c : Channel Bytes} (j : ι), c.inFlight ⊆ (s.beats j).inFlight →
      raw ∈ (Function.update s.beats j c i).inFlight → raw ∈ (s.beats i).inFlight := by
    intro c j hc hraw
    by_cases hj : i = j
    · rw [hj, Function.update_self] at hraw
      exact hj ▸ hc hraw
    · rwa [Function.update_of_ne hj] at hraw
  cases action with
  | deliver j nowSec now =>
    dsimp only [Network.step, Network.deliver] at h
    split at h
    · exact .inl h
    · split at h <;> exact .inl h
  | beat j timestamp =>
    dsimp only [Network.step, Network.beat] at h
    split at h
    · exact .inl h
    · split at h
      · exact .inl h
      · next json hjson =>
        dsimp only at h
        by_cases hj : i = j
        · subst hj
          rw [Function.update_self] at h
          rcases List.mem_append.mp h with hold | hnew
          · exact .inl hold
          · exact .inr ⟨timestamp, List.mem_singleton.mp hnew ▸ hjson⟩
        · rw [Function.update_of_ne hj] at h
          exact .inl h
  | loseBeat j k => exact .inl (hkept j (Channel.inFlight_lose_subset _ k) h)
  | deliverBeat j nowSec =>
    dsimp only [Network.step, Network.deliverBeat] at h
    split at h
    · exact .inl h
    · split at h <;> exact .inl (hkept j (Channel.inFlight_take_subset _) h)
  | agent | lose | check | restart => exact .inl h

end steps

section numbers

variable {registry : NodeRegistry} {nodes alerts : ℕ}

/-- A registry has at most so many entries, each with at most so many alerts,
and its times fit in 64 bits. -/
structure Bounded (registry : NodeRegistry) (nodes alerts : ℕ) : Prop where
  /-- Number of entries. -/
  card : registry.nodes.keys.card ≤ nodes
  /-- What an entry tells. -/
  entry : ∀ id info, registry.nodes.lookup id = some info →
    IsInt64 info.lastSeenSec ∧ 0 ≤ info.alertsSent ∧ info.alertsSent ≤ alerts

theorem bounded_init (deadThreshold : ℤ) : Bounded (.init deadThreshold) 0 0 where
  card := Nat.le_refl 0
  entry := fun id info h => by
    have hempty : (NodeRegistry.init deadThreshold).nodes.lookup id = none := Finmap.lookup_empty id
    rw [hempty] at h
    cases h

theorem Bounded.mono (h : Bounded registry nodes alerts) {nodes' alerts' : ℕ}
    (hnodes : nodes ≤ nodes') (halerts : alerts ≤ alerts') : Bounded registry nodes' alerts' where
  card := h.card.trans hnodes
  entry := fun id info hinfo => by
    obtain ⟨hseen, hzero, hsent⟩ := h.entry id info hinfo
    exact ⟨hseen, hzero, hsent.trans (by exact_mod_cast halerts)⟩

theorem Bounded.ping (h : Bounded registry nodes alerts) (id hostIp : Bytes) {now : ℤ}
    (hnow : IsInt64 now) : Bounded (registry.ping id hostIp now) (nodes + 1) alerts where
  card := by
    have hkeys : (registry.ping id hostIp now).nodes.keys = insert id registry.nodes.keys := by
      ext key
      rw [Finset.mem_insert, Finmap.mem_keys, Finmap.mem_keys]
      exact Finmap.mem_insert
    rw [hkeys]
    exact (Finset.card_insert_le _ _).trans (Nat.succ_le_succ h.card)
  entry := fun key info hinfo => by
    rw [NodeRegistry.ping, lookup_assign] at hinfo
    split at hinfo
    · cases hinfo
      unfold pinged
      split
      · exact ⟨hnow, le_refl 0, Int.natCast_nonneg alerts⟩
      · next known hknown => exact ⟨hnow, (h.entry id known hknown).2⟩
    · exact h.entry key info hinfo

theorem Bounded.recordAlert (h : Bounded registry nodes alerts) (id : Bytes) :
    Bounded (registry.recordAlert id) nodes (alerts + 1) where
  card := by
    have hkeys : (registry.recordAlert id).nodes.keys = registry.nodes.keys := by
      ext key
      rw [Finmap.mem_keys, Finmap.mem_keys, ← Finmap.lookup_isSome, ← Finmap.lookup_isSome,
        NodeRegistry.recordAlert, lookup_update]
      split <;> simp
    rw [hkeys]
    exact h.card
  entry := fun key info hinfo => by
    rw [NodeRegistry.recordAlert, lookup_update] at hinfo
    split at hinfo
    · obtain ⟨old, hold, rfl⟩ := Option.map_eq_some_iff.mp hinfo
      obtain ⟨hseen, hzero, hsent⟩ := h.entry key old hold
      refine ⟨hseen, ?_, ?_⟩ <;> simp only [NodeInfo.countAlert] <;> push_cast <;> omega
    · exact (h.mono (Nat.le_refl nodes) (Nat.le_succ alerts)).entry key info hinfo

theorem Bounded.checkDeadNodes (h : Bounded registry nodes alerts) (now : ℤ) :
    Bounded (registry.checkDeadNodes now) nodes alerts where
  card := by
    have hkeys : (registry.checkDeadNodes now).nodes.keys = registry.nodes.keys := by
      ext key
      rw [Finmap.mem_keys, Finmap.mem_keys, ← Finmap.lookup_isSome, ← Finmap.lookup_isSome,
        NodeRegistry.checkDeadNodes, lookup_updateAll, Option.isSome_map]
    rw [hkeys]
    exact h.card
  entry := fun key info hinfo => by
    rw [NodeRegistry.checkDeadNodes, lookup_updateAll] at hinfo
    obtain ⟨old, hold, rfl⟩ := Option.map_eq_some_iff.mp hinfo
    unfold NodeInfo.judge
    split <;> exact h.entry key old hold

/-- The registry counts its entries that are alive. -/
theorem Bounded.aliveCount (h : Bounded registry nodes alerts) :
    0 ≤ registry.aliveCount ∧ registry.aliveCount ≤ nodes := by
  rw [aliveCount_eq]
  exact ⟨Int.natCast_nonneg _, by exact_mod_cast (Finset.card_filter_le _ _).trans h.card⟩

theorem length_pushRecent {α : Type*} {limit : ℕ} {recent : List α} (h : recent.length ≤ limit)
    (x : α) : (pushRecent limit recent x).length ≤ limit := by
  unfold pushRecent
  split
  · rw [List.length_drop, List.length_append, List.length_singleton]
    omega
  · next hshort => exact Nat.not_lt.mp hshort

end numbers

section runs

variable {ι : Type*} [DecidableEq ι] (run : Run ι)

/-- The alerts that the present process of the coordinator has accepted before
a step, in order. -/
def arrivals : ℕ → List AlertEvent
  | 0 => []
  | n + 1 =>
    match run.actions n with
    | .restart => []
    | _ => arrivals n ++ (run.eventAt n).arrival?.toList

/-- What the REST API reads before a step. -/
def restAt (n : ℕ) : RestBodies.RestState := (run.stateAt n).coordinator.rest

theorem arrivals_of_restart {n : ℕ} (h : run.actions n = .restart) : arrivals run (n + 1) = [] := by
  rw [arrivals, h]

theorem arrivals_of_ne {n : ℕ} (h : run.actions n ≠ .restart) :
    arrivals run (n + 1) = arrivals run n ++ (run.eventAt n).arrival?.toList := by
  rw [arrivals]
  split
  · next hr => exact absurd hr h
  · rfl

/-- The ids of the nodes need no escape. -/
def PlainIds : Prop := ∀ i, Plain (run.site i).nodeId

/-- How many of the accepted alerts are from a node. -/
def acceptedFrom (n : ℕ) (id : Bytes) : ℕ := (arrivals run n).countP fun a => a.sourceHost = id

/-- The entry of a node in the registry. -/
structure Entered (n : ℕ) (id : Bytes) (info : NodeInfo) : Prop where
  /-- It has its id, and no address. -/
  named : info.nodeId = id ∧ info.hostIp = []
  /-- It is a node of the run. -/
  known : IsUtf8 id ∧ ∃ i, id = (run.site i).nodeId
  /-- Its alerts are counted. -/
  counted : info.alertsSent = acceptedFrom run n id

/-- What the coordinator holds. -/
structure Held (n : ℕ) : Prop where
  /-- The last hundred alerts. -/
  recent : (restAt run n).store.recentAlerts = (arrivals run n).rtake 100
  /-- All that it accepted can be served. -/
  servable : ∀ a ∈ arrivals run n, Servable a
  /-- Nodes have the entries they should have. -/
  entered : ∀ id info, (restAt run n).registry.nodes.lookup id = some info →
    Entered run n id info
  /-- Nodes without an entry have sent nothing. -/
  absent : ∀ id, (restAt run n).registry.nodes.lookup id = none → acceptedFrom run n id = 0

variable {run} {real : ℚ → Bytes} {n : ℕ}

/-- Every heartbeat on its way was printed by its process. -/
theorem beats_printed (n : ℕ) {i : ι} {raw : Bytes} (h : raw ∈ ((run.stateAt n).beats i).inFlight) :
    ∃ (p : AgentProcess) (timestamp : ℤ),
      (heartbeatOf (run.site i) p timestamp).toJSON run.lib.dump = some raw := by
  induction n with
  | zero => exact absurd h List.not_mem_nil
  | succ n ih =>
    rcases beats_step run.toDeployed (run.stateAt n) (run.actions n) h with hold | ⟨timestamp, hnew⟩
    · exact ih hold
    · exact ⟨_, timestamp, hnew⟩

omit [DecidableEq ι] in
/-- A heartbeat pings its node under its name, without an address. -/
theorem heartbeatCall_printed (hdump : Standard real run.lib.dump) {i : ι} {p : AgentProcess}
    {timestamp : ℤ} {raw : Bytes}
    (hraw : (heartbeatOf (run.site i) p timestamp).toJSON run.lib.dump = some raw) :
    IsUtf8 (run.site i).nodeId ∧
      heartbeatCall raw = if beatName (run.site i).nodeId = [] then none
        else some (.ping (beatName (run.site i).nodeId) []) := by
  have hvalid : (heartbeatOf (run.site i) p timestamp).json.AllUtf8 := by
    by_contra hnot
    rw [HeartbeatMessage.toJSON, hdump, if_neg hnot] at hraw
    cases hraw
  have hid := ((allUtf8_json _).mp hvalid).1
  obtain ⟨-, rfl⟩ := (toJSON_eq_some real _ hdump hid raw).mp hraw
  have hextract : extract (compact real (heartbeatOf (run.site i) p timestamp).json)
      (text "node_id") = beatName (run.site i).nodeId := extract_node_id real _
  refine ⟨hid, ?_⟩
  rw [heartbeatCall, hextract, extract_host_ip]
  cases beatName (run.site i).nodeId with
  | nil => rfl
  | cons c rest => rfl

omit [DecidableEq ι] in
/-- A heartbeat of a node with a plain id pings its node. -/
theorem heartbeat_pings (hlib : StandardLibrary run.lib real) (hplain : PlainIds run)
    {i : ι} {p : AgentProcess} {timestamp : ℤ} {raw : Bytes} {call : Call}
    (hraw : (heartbeatOf (run.site i) p timestamp).toJSON run.lib.dump = some raw)
    (hcall : heartbeatCall raw = some call) :
    call = .ping (run.site i).nodeId [] ∧ IsUtf8 (run.site i).nodeId := by
  obtain ⟨hid, hprinted⟩ := heartbeatCall_printed hlib.dump hraw
  have hname : beatName (run.site i).nodeId = (run.site i).nodeId :=
    (takeWhile_escape_iff _).mpr (hplain i)
  rw [hprinted, hname] at hcall
  split at hcall
  · cases hcall
  · cases hcall
    exact ⟨rfl, hid⟩

/-- Entries after a ping that tells no address. -/
theorem lookup_ping (registry : NodeRegistry) (id key : Bytes) (now : ℤ) :
    (registry.ping id [] now).nodes.lookup key =
      if key = id then some (pinged (registry.nodes.lookup id) id [] now)
      else registry.nodes.lookup key :=
  lookup_assign _ _ _ _

/-- A ping of a node of the run keeps its entry right. -/
theorem Held.pinged (h : Held run n) {id : Bytes} (hid : IsUtf8 id)
    (hknown : ∃ i, id = (run.site i).nodeId) (now : ℤ) :
    Entered run n id (pinged ((restAt run n).registry.nodes.lookup id) id [] now) := by
  cases hlookup : (restAt run n).registry.nodes.lookup id with
  | none => exact ⟨⟨rfl, rfl⟩, ⟨hid, hknown⟩, by rw [h.absent id hlookup]; rfl⟩
  | some info =>
    obtain ⟨hnamed, hknown, hcounted⟩ := h.entered id info hlookup
    exact ⟨hnamed, hknown, hcounted⟩

theorem acceptedFrom_append {alert : AlertEvent} {id : Bytes}
    (h : arrivals run (n + 1) = arrivals run n ++ [alert]) :
    acceptedFrom run (n + 1) id = acceptedFrom run n id + if alert.sourceHost = id then 1 else 0 := by
  rw [acceptedFrom, h, List.countP_append, List.countP_singleton]
  simp [acceptedFrom]

/-- An alert comes in. -/
theorem Held.alert (h : Held run n) {alert : AlertEvent} (nowSec now : ℤ)
    (harrivals : arrivals run (n + 1) = arrivals run n ++ [alert])
    (hrest : restAt run (n + 1) = ((run.stateAt n).coordinator.alert alert nowSec now).rest)
    (hservable : Servable alert) (hknown : ∃ i, alert.sourceHost = (run.site i).nodeId) :
    Held run (n + 1) := by
  have hlookup : ∀ id, (restAt run (n + 1)).registry.nodes.lookup id =
      if id = alert.sourceHost then
        some (Registry.pinged ((restAt run n).registry.nodes.lookup alert.sourceHost)
          alert.sourceHost [] nowSec).countAlert
      else (restAt run n).registry.nodes.lookup id := by
    intro id
    rw [hrest]
    change (((run.stateAt n).coordinator.registry.ping alert.sourceHost [] nowSec).recordAlert
      alert.sourceHost).nodes.lookup id = _
    rw [NodeRegistry.recordAlert, lookup_update, lookup_ping]
    by_cases hid : id = alert.sourceHost
    · rw [if_pos hid, if_pos hid, if_pos hid]
      rfl
    · rw [if_neg hid, if_neg hid, if_neg hid]
      rfl
  refine ⟨?_, ?_, fun id info hinfo => ?_, fun id hnone => ?_⟩
  · have hpush : (restAt run (n + 1)).store.recentAlerts =
        pushRecent 100 (restAt run n).store.recentAlerts alert := by
      rw [hrest]
      exact recentAlerts_receive _ _ _
    rw [hpush, h.recent, harrivals, pushRecent_rtake]
  · rw [harrivals]
    intro a ha
    rcases List.mem_append.mp ha with hold | hnew
    · exact h.servable a hold
    · exact List.mem_singleton.mp hnew ▸ hservable
  · rw [hlookup] at hinfo
    split at hinfo
    · next hid =>
      subst hid
      cases hinfo
      obtain ⟨hnamed, hknown', hcounted⟩ := h.pinged hservable.1.sourceHost hknown nowSec
      refine ⟨hnamed, hknown', ?_⟩
      rw [acceptedFrom_append harrivals, if_pos rfl, Nat.cast_add, ← hcounted]
      rfl
    · next hid =>
      obtain ⟨hnamed, hknown', hcounted⟩ := h.entered id info hinfo
      refine ⟨hnamed, hknown', ?_⟩
      rw [acceptedFrom_append harrivals, if_neg (Ne.symm hid), Nat.add_zero, hcounted]
  · rw [hlookup] at hnone
    split at hnone
    · cases hnone
    · next hid => rw [acceptedFrom_append harrivals, if_neg (Ne.symm hid), h.absent id hnone]

/-- A step that brings no alert. -/
theorem Held.quiet (h : Held run n) (hlib : StandardLibrary run.lib real) (hplain : PlainIds run)
    (harrivals : arrivals run (n + 1) = arrivals run n)
    (hstore : (restAt run (n + 1)).store = (restAt run n).store) (hregistry :
      RegistryMoves (run.stateAt n) (run.actions n) (restAt run (n + 1)).registry) :
    Held run (n + 1) := by
  have hcount : ∀ id, acceptedFrom run (n + 1) id = acceptedFrom run n id := by
    intro id
    rw [acceptedFrom, harrivals]
    rfl
  have hentered : ∀ {id info}, Entered run n id info → Entered run (n + 1) id info := fun he =>
    ⟨he.named, he.known, by rw [hcount, he.counted]⟩
  refine ⟨by rw [hstore, harrivals, h.recent], by rw [harrivals]; exact h.servable,
    fun id info hinfo => ?_, fun id hnone => ?_⟩
  · rcases hregistry with hsame | ⟨i, raw, call, nowSec, -, hraw, hcall, hmoved⟩ | ⟨nowSec, hchecked⟩
    · rw [hsame] at hinfo
      exact hentered (h.entered id info hinfo)
    · obtain ⟨p, timestamp, hprinted⟩ := beats_printed n hraw
      obtain ⟨rfl, hid⟩ := heartbeat_pings hlib hplain hprinted hcall
      rw [hmoved] at hinfo
      change ((run.stateAt n).coordinator.registry.ping (run.site i).nodeId [] nowSec).nodes.lookup
        id = some info at hinfo
      rw [lookup_ping] at hinfo
      split at hinfo
      · next hsame =>
        subst hsame
        cases hinfo
        exact hentered (h.pinged hid ⟨i, rfl⟩ nowSec)
      · exact hentered (h.entered id info hinfo)
    · rw [hchecked, NodeRegistry.checkDeadNodes, lookup_updateAll] at hinfo
      obtain ⟨old, hold, rfl⟩ := Option.map_eq_some_iff.mp hinfo
      obtain ⟨hnamed, hknown, hcounted⟩ := hentered (h.entered id old hold)
      unfold NodeInfo.judge
      split
      · exact ⟨hnamed, hknown, hcounted⟩
      · exact ⟨hnamed, hknown, hcounted⟩
  · rw [hcount]
    rcases hregistry with hsame | ⟨i, raw, call, nowSec, -, hraw, hcall, hmoved⟩ | ⟨nowSec, hchecked⟩
    · rw [hsame] at hnone
      exact h.absent id hnone
    · obtain ⟨p, timestamp, hprinted⟩ := beats_printed n hraw
      obtain ⟨rfl, -⟩ := heartbeat_pings hlib hplain hprinted hcall
      rw [hmoved] at hnone
      change ((run.stateAt n).coordinator.registry.ping (run.site i).nodeId [] nowSec).nodes.lookup
        id = none at hnone
      rw [lookup_ping] at hnone
      split at hnone
      · cases hnone
      · exact h.absent id hnone
    · rw [hchecked, NodeRegistry.checkDeadNodes, lookup_updateAll, Option.map_eq_none_iff] at hnone
      exact h.absent id hnone

/-- In every run the coordinator holds what it should. -/
theorem held_stateAt (hlib : StandardLibrary run.lib real) (hclock : run.Clocked)
    (hplain : PlainIds run) (n : ℕ) : Held run n := by
  induction n with
  | zero =>
    refine ⟨rfl, fun a ha => absurd ha List.not_mem_nil, fun id info h => ?_, fun id h => rfl⟩
    have hempty : (restAt run 0).registry.nodes.lookup id = none := Finmap.lookup_empty id
    rw [hempty] at h
    cases h
  | succ n ih =>
    have hstep : (run.stateAt (n + 1)) = ((run.stateAt n).step run.toDeployed (run.actions n)).1 :=
      rfl
    have hevent : run.eventAt n = ((run.stateAt n).step run.toDeployed (run.actions n)).2 := rfl
    rcases coordinator_step run.toDeployed (run.stateAt n) (run.actions n) with
      ⟨i, raw, alert, nowSec, now, hact, hreceived, hraw, hcoordinator⟩ |
        ⟨hnone, ⟨hrestart, hcoordinator⟩ | ⟨hno, hsame, hregistry⟩⟩
    · rw [← hevent] at hreceived
      obtain ⟨m, -, made, hmade, rfl⟩ := raised_of_received hlib.sane hclock hreceived
      have hservable : Servable (asReceived made) := servable_of_deserialize hlib hraw
      have hhost := sourceHost_raised hmade
      refine ih.alert nowSec now ?_ ?_ hservable ⟨i, hhost⟩
      · rw [arrivals_of_ne run (by simp [hact]), hreceived]
        rfl
      · rw [restAt, hstep, hcoordinator]
    · have hempty := arrivals_of_restart run hrestart
      have hregistry : (restAt run (n + 1)).registry = .init 30 := by
        rw [restAt, hstep, hcoordinator]
        rfl
      refine ⟨?_, ?_, fun id info h => ?_, fun id h => ?_⟩
      · rw [hempty, restAt, hstep, hcoordinator]
        rfl
      · rw [hempty]
        exact fun a ha => absurd ha List.not_mem_nil
      · have hgone : (NodeRegistry.init 30).nodes.lookup id = none := Finmap.lookup_empty id
        rw [hregistry, hgone] at h
        cases h
      · rw [acceptedFrom, hempty]
        rfl
    · refine ih.quiet hlib hplain ?_ ?_ hregistry
      · rw [arrivals_of_ne run hno, hevent, hnone]
        exact List.append_nil _
      · rw [restAt, hstep, RestBodies.System.rest, hsame]
        rfl

/-- What the coordinator counts is at most the number of steps, and its times
fit in 64 bits. -/
theorem bounded_stateAt (hclock : run.Clocked) (n : ℕ) :
    Bounded (restAt run n).registry n n ∧ (restAt run n).store.recentThreats.length ≤ 50 := by
  induction n with
  | zero => exact ⟨bounded_init 30, Nat.zero_le 50⟩
  | succ n ih =>
    obtain ⟨hregistry, hthreats⟩ := ih
    have hlater := hregistry.mono (Nat.le_succ n) (Nat.le_succ n)
    have hstep : (run.stateAt (n + 1)) = ((run.stateAt n).step run.toDeployed (run.actions n)).1 :=
      rfl
    have htime := hclock n
    rcases coordinator_step run.toDeployed (run.stateAt n) (run.actions n) with
      ⟨i, raw, alert, nowSec, now, hact, -, -, hcoordinator⟩ |
        ⟨-, ⟨-, hcoordinator⟩ | ⟨-, hsame, hmoves⟩⟩
    · rw [hact] at htime
      rw [restAt, hstep, hcoordinator]
      refine ⟨(hregistry.ping alert.sourceHost [] htime).recordAlert alert.sourceHost, ?_⟩
      change ((run.stateAt n).coordinator.coordinator.receive alert now).1.store.recentThreats.length
        ≤ 50
      unfold AlertDatabase.Coordinator.receive
      dsimp only
      split
      · exact hthreats
      · exact length_pushRecent hthreats _
    · rw [restAt, hstep, hcoordinator]
      exact ⟨(bounded_init 30).mono (Nat.zero_le _) (Nat.zero_le _), Nat.zero_le 50⟩
    · refine ⟨?_, ?_⟩
      · rcases hmoves with hkept | ⟨i, raw, call, nowSec, hact, -, hcall, hmoved⟩ |
          ⟨nowSec, hchecked⟩
        · rw [restAt, hstep, RestBodies.System.rest, hkept]
          exact hlater
        · rw [hact] at htime
          rw [restAt, hstep, RestBodies.System.rest, hmoved]
          unfold heartbeatCall at hcall
          dsimp only at hcall
          split at hcall
          · cases hcall
            exact (hregistry.ping _ _ htime).mono (Nat.le_refl _) (Nat.le_succ n)
          · cases hcall
        · rw [restAt, hstep, RestBodies.System.rest, hchecked]
          exact hlater.checkDeadNodes nowSec
      · rw [restAt, hstep, RestBodies.System.rest, hsame]
        exact hthreats

end runs

section view

variable {ι : Type*} [DecidableEq ι] {run : Run ι} {real : ℚ → Bytes}

theorem lookup_putField (m : StringMap Bytes) {name key : Bytes} (hne : key ≠ name)
    (value : Bytes) : (putField m name value).lookup key = m.lookup key := by
  unfold putField
  split
  · rfl
  · rw [lookup_assign, if_neg hne]

/-- No alert of an agent has an address under the key that the dashboard reads. -/
theorem no_source_ip {n : ℕ} {i : ι} {alert : AlertEvent} (h : Raised run n i alert) :
    alert.metadata.lookup (text "source_ip") = none := by
  obtain ⟨alerts, hevent, hmem⟩ := h
  obtain ⟨action, -, rfl⟩ := agent_of_raised hevent
  rcases mem_raises run.lib (run.site i) (run.agentAt n i) hmem with
    ⟨_, _, _, rule, subject, -, -, ev, engine, drawn, -, -, -, rfl⟩ |
      ⟨now, bytes, made, counter, -, -, hconverted, rfl⟩
  · cases rule with
    | sshBruteForce => simp [stampAlert, draft, DetectionRules.SshBruteForceRule.alert, text]
    | portScan => simp [stampAlert, draft, DetectionRules.PortScanRule.alert, text]
    | privEsc => simp [stampAlert, draft, DetectionRules.PrivEscRule.alert, text]
    | multiServiceAuth => simp [stampAlert, draft, DetectionRules.MultiServiceAuthRule.alert, text]
  · obtain ⟨j, signature, -, -, rfl⟩ := parseEveLine_converted hconverted
    have hnames : text "source_ip" ≠ text "ids_source" ∧ text "source_ip" ≠ text "proto" ∧
        text "source_ip" ≠ text "dest_port" ∧ text "source_ip" ≠ text "src_port" ∧
        text "source_ip" ≠ text "dest_ip" ∧ text "source_ip" ≠ text "src_ip" ∧
        text "source_ip" ≠ text "category" := by decide
    obtain ⟨hids, hproto, hdport, hsport, hdip, hsip, hcategory⟩ := hnames
    change (eveMetadata j signature).lookup (text "source_ip") = none
    dsimp only [eveMetadata]
    rw [lookup_assign, if_neg hids, lookup_putField _ hproto, lookup_putField _ hdport,
      lookup_putField _ hsport, lookup_putField _ hdip, lookup_putField _ hsip]
    split
    · rw [lookup_assign, if_neg hcategory, Finmap.lookup_empty]
    · exact Finmap.lookup_empty _

/-- The last rows of a window that is long enough. -/
theorem newestFirst_rtake {α : Type} {size limit : ℕ} (h : size ≤ limit) (xs : List α) :
    newestFirst size (xs.rtake limit) = newestFirst size xs := by
  rw [newestFirst, newestFirst, List.rtake_eq_reverse_take_reverse, List.reverse_reverse,
    List.take_take, min_eq_left h]

/-- The panels of a pass whose answers were given before three steps. -/
structure OperatorSees (run : Run ι) (atStats atNodes atAlerts : ℕ) (d : DashboardState) : Prop where
  /-- The last twenty alerts that were accepted, the most recent one first. -/
  alerts : d.alerts = newestFirst 20 ((arrivals run atAlerts).map shownAlert)
  /-- None of them has an address. -/
  addresses : ∀ row ∈ d.alerts, row.sourceIp = []
  /-- The number of alerts stops at a hundred. -/
  total : d.totalAlerts = (min (arrivals run atStats).length 100 : ℕ)
  /-- A row is that of a node, with the number of its alerts. -/
  nodes : ∀ row ∈ d.nodes, (∃ i, row.nodeId = (run.site i).nodeId) ∧ row.hostIp = [] ∧
    row.alertsSent = wrapInt32 (acceptedFrom run atNodes row.nodeId)
  /-- Each node that sent an alert has a row. -/
  complete : ∀ a ∈ arrivals run atNodes, ∃ row ∈ d.nodes, row.nodeId = a.sourceHost

theorem arrival_raised (hlib : Sane run.lib) (hclock : run.Clocked) {n : ℕ} {a : AlertEvent}
    (h : a ∈ arrivals run n) : ∃ m i made, Raised run m i made ∧ a = asReceived made := by
  induction n with
  | zero => cases h
  | succ n ih =>
    by_cases hrestart : run.actions n = .restart
    · rw [arrivals_of_restart run hrestart] at h
      cases h
    · rw [arrivals_of_ne run hrestart] at h
      rcases List.mem_append.mp h with hold | hnew
      · exact ih hold
      · cases hevent : run.eventAt n with
        | received i alert now threat =>
          rw [hevent] at hnew
          obtain ⟨m, -, made, hmade, rfl⟩ := raised_of_received hlib hclock hevent
          exact ⟨m, i, made, hmade, by simpa [Event.arrival?] using hnew⟩
        | quiet | raised =>
          rw [hevent] at hnew
          cases hnew

section answers

variable (hlib : StandardLibrary run.lib real) (hclock : run.Clocked) (hplain : PlainIds run)

include hlib hclock hplain

/-- Each node of the registry is entered under its id. -/
theorem entered_of_mem {time : ℕ} {n : NodeInfo} (hn : n ∈ (restAt run time).registry.allNodes) :
    Entered run time n.nodeId n := by
  obtain ⟨id, hid⟩ := mem_values.mp hn
  have hentered := (held_stateAt hlib hclock hplain time).entered id n hid
  exact hentered.named.1.symm ▸ hentered

theorem plainNodes_stateAt (time : ℕ) : PlainNodes (restAt run time) := by
  intro n hn
  obtain ⟨hnamed, ⟨hvalid, i, hi⟩, -⟩ := entered_of_mem hlib hclock hplain hn
  refine ⟨⟨hvalid, hi ▸ hplain i⟩, ?_⟩
  rw [hnamed.2]
  exact ⟨isUtf8_nil, fun c hc => absurd hc List.not_mem_nil⟩

theorem servable_stateAt (time : ℕ) : ∀ a ∈ (restAt run time).store.recentAlerts, Servable a := by
  intro a ha
  have hheld := held_stateAt hlib hclock hplain time
  rw [hheld.recent] at ha
  exact hheld.servable a (List.mem_of_mem_drop ha)

/-- The total of alerts stops at a hundred. -/
theorem alertCount_stateAt (time : ℕ) :
    alertCount (restAt run time).store = (min (arrivals run time).length 100 : ℕ) := by
  rw [alertCount, (held_stateAt hlib hclock hplain time).recent, length_rtake]

theorem fitTotals_stateAt {time : ℕ} (hfew : time < 2 ^ 63) : FitTotals (restAt run time) := by
  obtain ⟨hbound, hthreats⟩ := bounded_stateAt hclock time
  obtain ⟨hzero, halive⟩ := hbound.aliveCount
  refine ⟨?_, ?_, by omega, by omega⟩
  · rw [alertCount_stateAt hlib hclock hplain time]
    constructor <;> omega
  · unfold threatCount
    constructor <;> omega

end answers

theorem fitNodes_stateAt (hclock : run.Clocked) {time : ℕ} (hfew : time < 2 ^ 63) :
    FitNodes (restAt run time) := by
  intro n hn
  obtain ⟨id, hid⟩ := mem_values.mp hn
  obtain ⟨hseen, hzero, hsent⟩ := (bounded_stateAt hclock time).1.entry id n hid
  exact ⟨hseen, by omega, by omega⟩

/-- Whatever has happened, a pass of the dashboard on full answers shows what
the coordinator's process has accepted, if the ids of the nodes are plain. -/
theorem operator_sees (run : Run ι) (hlib : StandardLibrary run.lib real) (hclock : run.Clocked)
    (hplain : PlainIds run) {atStats atNodes atAlerts : ℕ} (hstats : atStats < 2 ^ 63)
    (hnodes : atNodes < 2 ^ 63) {r : Responses}
    (h : Answered run.lib.dump (restAt run atStats) (restAt run atNodes) (restAt run atAlerts) r)
    (clock : Bytes) (d : DashboardState) :
    OperatorSees run atStats atNodes atAlerts (fetchData run.lib.parse clock r d) := by
  have hnodesHeld := held_stateAt hlib hclock hplain atNodes
  have halertsHeld := held_stateAt hlib hclock hplain atAlerts
  obtain ⟨hshows, -⟩ := fetchData_shows hlib h (fitTotals_stateAt hlib hclock hplain hstats)
    (plainNodes_stateAt hlib hclock hplain atNodes) (fitNodes_stateAt hclock hnodes)
    (servable_stateAt hlib hclock hplain atAlerts) clock d
  have hpanel : (fetchData run.lib.parse clock r d).alerts =
      newestFirst 20 ((arrivals run atAlerts).map shownAlert) := by
    rw [hshows.alerts, halertsHeld.recent, ← RingStorage.map_rtake, newestFirst_rtake (by decide)]
  refine ⟨hpanel, fun row hrow => ?_, ?_, fun row hrow => ?_, fun a ha => ?_⟩
  · rw [hpanel] at hrow
    have hmem := List.mem_reverse.mp (List.mem_of_mem_take hrow)
    obtain ⟨a, ha, rfl⟩ := List.mem_map.mp hmem
    obtain ⟨m, i, made, hmade, rfl⟩ := arrival_raised hlib.sane hclock ha
    exact congrArg (Option.getD · []) (no_source_ip hmade)
  · rw [hshows.totals.1, alertCount_stateAt hlib hclock hplain atStats]
    exact Int.bmod_eq_of_le (by omega) (by omega)
  · rw [hshows.nodes] at hrow
    obtain ⟨n, hn, rfl⟩ := List.mem_map.mp hrow
    obtain ⟨hnamed, ⟨-, hknown⟩, hcounted⟩ := entered_of_mem hlib hclock hplain hn
    exact ⟨hknown, hnamed.2, congrArg wrapInt32 hcounted⟩
  · rw [hshows.nodes]
    cases hlookup : (restAt run atNodes).registry.nodes.lookup a.sourceHost with
    | none =>
      have hnot := List.countP_eq_zero.mp (hnodesHeld.absent a.sourceHost hlookup) a ha
      exact absurd (decide_eq_true rfl) hnot
    | some n =>
      exact ⟨shownNode n, List.mem_map_of_mem (mem_values.mpr ⟨_, hlookup⟩),
        (hnodesHeld.entered _ n hlookup).named.1⟩

/-- What the operator sees after the two alerts. -/
theorem operator_sees_twoNodes :
    ∃ r, OperatorSees twoNodes 10 10 10 (fetchData twoNodes.lib.parse [] r {}) := by
  have hlib : StandardLibrary twoNodes.lib DecimalPrinting.decimal := standard_standardLibrary
  have hplain : PlainIds twoNodes := by
    intro i
    cases i <;> decide
  obtain ⟨body, hbody, -⟩ := alertsBody_reads hlib
    (servable_stateAt hlib clocked_twoNodes hplain 10)
  exact ⟨⟨_, _, body, []⟩, operator_sees twoNodes hlib clocked_twoNodes hplain (by decide)
    (by decide) ⟨rfl, rfl, hbody⟩ [] {}⟩

end view

end Dlads.OperatorView
