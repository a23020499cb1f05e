import Dlads.Heartbeats
import Dlads.JsonValidity
import Dlads.ProcessPipeline
import Dlads.WireRoundTrip

/-!
# What ends a process

Three exceptions leave a thread of the agent: the adapter takes the type of an
event out of a value that is no string, a callback publishes an alert with an
invalid text, and a heartbeat is made of an invalid node id. A process crashes
exactly at one of them. What the JSON library has read is valid, and so is what
the parser and the rules make of valid lines, so with a valid node id and valid
lines only an event of the first kind is left.
-/

namespace Dlads.ProcessCrashes

open ByteText Utf8Text StringMaps Records DetectionRules RuleDriver AgentPipeline LineParsing
open LineEncoding RingStorage RaisedAlerts JsonValue JsonReading AlertWire WireRoundTrip EveLines
open Heartbeats PrintedAlerts AgentProcesses DistributedRuns ProcessPipeline
open PublishedTexts

section throws

/-- A worker throws in a step of a process. -/
inductive Throws (lib : JsonLibrary) (site : Site) (p : AgentProcess) :
    AgentProcesses.Action → Prop
  /-- The adapter takes an event whose type is no string. -/
  | event {now : ℤ} {bytes : Bytes} {j eventType : Json} (ready : p.ids = some .suricata)
      (idle : p.pending = []) (read : lib.parse bytes = some j)
      (found : j.find (text "event_type") = some eventType) (other : eventType.str? = none) :
      Throws lib site p (.eveLine now bytes)
  /-- A callback publishes an alert with an invalid text. -/
  | publish {alert : AlertEvent} {rest : List AlertEvent} (pending : p.pending = alert :: rest)
      (reachable : p.globals.publisher = true)
      (invalid : ¬AlertUtf8 (stampAlert site.nodeId alert)) : Throws lib site p .publish

variable {lib : JsonLibrary} {site : Site} {p : AgentProcess}

/-- The adapter throws exactly on an event whose type is no string. -/
theorem parseEveLine_thrown (host : EveHost) (now : ℤ) (counter : UInt64) (line : Bytes) :
    (parseEveLine host now counter line).1 = .thrown ↔ ∃ j eventType, host.parse line = some j ∧
      j.find (text "event_type") = some eventType ∧ eventType.str? = none := by
  unfold parseEveLine
  cases host.parse line with
  | none => simp
  | some j =>
    cases hfind : j.find (text "event_type") with
    | none => simp [hfind]
    | some eventType =>
      have hiff : (∃ j' e, some j = some j' ∧ j'.find (text "event_type") = some e ∧
          e.str? = none) ↔ eventType.str? = none := by
        constructor
        · rintro ⟨_, _, ⟨⟩, he, hnone⟩
          rw [hfind] at he
          cases he
          exact hnone
        · exact fun hnone => ⟨j, eventType, rfl, hfind, hnone⟩
      rw [hiff]
      simp only [hfind]
      cases hkind : eventType.str? with
      | none => simp
      | some kind =>
        refine iff_of_false ?_ (by simp)
        dsimp only
        split
        · simp
        · split
          · simp
          · split <;> simp

/-- The text of an alert is refused exactly if the alert is invalid. -/
theorem serialize_none (hdump : Strict lib.dump) (alert : AlertEvent) :
    serialize lib.dump alert = none ↔ ¬AlertUtf8 alert := by
  rw [← allUtf8_alertJson, ← hdump, serialize, Option.not_isSome_iff_eq_none]

/-- A process that runs crashes exactly if its worker throws. -/
theorem crashed_step (hdump : Strict lib.dump) (hup : p.crashed = false)
    (action : AgentProcesses.Action) :
    (p.step lib site action).crashed = true ↔ Throws lib site p action := by
  have hfalse : ∀ {action}, (∀ now bytes, action ≠ .eveLine now bytes) → action ≠ .publish →
      ¬Throws lib site p action := by
    intro action heve hpublish hthrows
    cases hthrows with
    | event => exact heve _ _ rfl
    | publish => exact hpublish rfl
  have hstill : ¬p.crashed = true := by simp [hup]
  unfold AgentProcess.step
  rw [if_neg hstill]
  cases action with
  | eveLine now bytes =>
    dsimp only [AgentProcess.takeEveLine]
    by_cases hready : p.ids = some .suricata ∧ p.pending = []
    · rw [if_pos hready]
      have hthrown := parseEveLine_thrown (site.eveHost lib) now p.globals.counter bytes
      constructor
      · intro hcrashed
        split at hcrashed
        · exact absurd hcrashed hstill
        · next heve =>
          rw [heve] at hthrown
          obtain ⟨j, eventType, hread, hfound, hother⟩ := hthrown.mp rfl
          exact .event hready.1 hready.2 hread hfound hother
        · exact absurd hcrashed hstill
      · intro hthrows
        cases hthrows with
        | event _ _ hread hfound hother =>
          have heve := hthrown.mpr ⟨_, _, hread, hfound, hother⟩
          split
          · next hsame =>
            rw [hsame] at heve
            cases heve
          · rfl
          · next hsame =>
            rw [hsame] at heve
            cases heve
    · rw [if_neg hready]
      refine iff_of_false hstill fun hthrows => ?_
      cases hthrows with
      | event hids hidle => exact hready ⟨hids, hidle⟩
  | publish =>
    dsimp only [AgentProcess.publishNext]
    by_cases hready : p.globals.publisher = true ∧ p.pending ≠ []
    · obtain ⟨alert, rest, hpending⟩ := List.exists_cons_of_ne_nil hready.2
      have hrefused := serialize_none hdump (stampAlert site.nodeId alert)
      simp only [hpending, hready.1, if_true]
      constructor
      · intro hcrashed
        split at hcrashed
        · next hnone => exact .publish hpending hready.1 (hrefused.mp hnone)
        · exact absurd hcrashed hstill
      · intro hthrows
        cases hthrows with
        | publish hcons _ hinvalid =>
          rw [hpending] at hcons
          cases hcons
          rw [hrefused.mpr hinvalid]
    · refine iff_of_false ?_ fun hthrows => ?_
      · split
        · exact hstill
        · next hcons =>
          rw [if_neg fun hopen => hready ⟨hopen, by rw [hcons]; exact List.cons_ne_nil _ _⟩]
          exact hstill
      · cases hthrows with
        | publish hcons hopen =>
          exact hready ⟨hopen, by rw [hcons]; exact List.cons_ne_nil _ _⟩
  | swap ids fresh =>
    dsimp only [AgentProcess.swap]
    refine iff_of_false ?_ (hfalse (by simp) (by simp))
    split <;> exact hstill
  | line clock bytes readings =>
    dsimp only [AgentProcess.takeLine]
    refine iff_of_false ?_ (hfalse (by simp) (by simp))
    split <;> exact hstill
  | send | shutdown | proceed => exact iff_of_false hstill (hfalse (by simp) (by simp))

end throws

section validity

variable {lib : JsonLibrary} {site : Site} {p : AgentProcess}

/-- A member of a valid value is valid. -/
theorem isUtf8_getStr {j : Json} (hj : j.AllUtf8) (key : Bytes) :
    IsUtf8 ((getStr j key).getD []) := by
  cases hs : getStr j key with
  | none => exact isUtf8_nil
  | some s => exact hj s (mem_strings_of_getStr hs)

theorem mapUtf8_putField {m : StringMap Bytes} (hm : MapUtf8 m) (key : String)
    (hkey : (text key).all (fun c => decide (c < 128)) = true) {value : Bytes}
    (hv : IsUtf8 value) : MapUtf8 (putField m (text key) value) := by
  unfold putField
  split
  · exact hm
  · exact hm.assign key hkey hv

/-- The context of an event alert is valid if the event is. -/
theorem mapUtf8_eveMetadata {j signature : Json} (hj : j.AllUtf8) (hs : signature.AllUtf8) :
    MapUtf8 (eveMetadata j signature) := by
  have hint : ∀ key, IsUtf8 (intField j key) := by
    intro key
    unfold intField
    split
    · exact (isAscii_dec _).isUtf8
    · exact isUtf8_nil
  -- the fields of the event are put on top of its category
  have hfields : ∀ {m}, MapUtf8 m → MapUtf8 (assign (putField (putField (putField (putField
      (putField m (text "src_ip") (strField j (text "src_ip")))
      (text "dest_ip") (strField j (text "dest_ip")))
      (text "src_port") (intField j (text "src_port")))
      (text "dest_port") (intField j (text "dest_port")))
      (text "proto") (strField j (text "proto"))) (text "ids_source") (text "suricata")) := by
    intro m hm
    have hsource := mapUtf8_putField hm "src_ip" (by decide) (isUtf8_getStr hj (text "src_ip"))
    have hdest := mapUtf8_putField hsource "dest_ip" (by decide)
      (isUtf8_getStr hj (text "dest_ip"))
    have hfrom := mapUtf8_putField hdest "src_port" (by decide) (hint (text "src_port"))
    have hto := mapUtf8_putField hfrom "dest_port" (by decide) (hint (text "dest_port"))
    have hproto := mapUtf8_putField hto "proto" (by decide) (isUtf8_getStr hj (text "proto"))
    exact hproto.assign "ids_source" (by decide) (isUtf8_text "suricata" (by decide))
  unfold eveMetadata
  dsimp only
  split
  · next category hfound =>
    exact hfields (mapUtf8_empty.assign _ (by decide) (hs category (mem_strings_of_getStr hfound)))
  · exact hfields mapUtf8_empty

/-- An alert made of a valid event is valid. -/
theorem alertUtf8_eveAlert {host : EveHost} (hhost : IsUtf8 host.sourceHost) (now : ℤ)
    {j signature : Json} (hj : j.AllUtf8) (hs : signature.AllUtf8) {id : Bytes} (hid : IsUtf8 id) :
    AlertUtf8 (eveAlert host now j signature id) where
  alertId := hid
  sourceHost := hhost
  ruleId := by
    dsimp only [eveAlert]
    split
    · exact (isUtf8_text "suricata-" (by decide)).append (isAscii_dec _).isUtf8
    · exact isUtf8_text _ (by decide)
  description := isUtf8_getStr hs _
  contributingLogIds := fun id h => absurd h List.not_mem_nil
  metadata := mapUtf8_eveMetadata hj hs

/-- A process that has met valid texts only. -/
structure Clean (p : AgentProcess) : Prop where
  /-- The events in its ring are clean. -/
  ring : ∃ events, Holds p.globals.ring events ∧ ∀ ev ∈ events, CleanEvent ev
  /-- What it has raised is valid. -/
  raised : ∀ alert ∈ p.raised, AlertUtf8 alert

theorem clean_init (site : Site) : Clean (.init site) where
  ring := ⟨[], holds_init ({} : LogEvent) (by unfold ringCapacity; decide),
    fun ev h => absurd h List.not_mem_nil⟩
  raised := fun alert h => absurd h List.not_mem_nil

/-- Detection pushes what was parsed. -/
theorem ring_detect (nodeId : Bytes) (parsed : Option LogEvent) (readings : Rule → Reading)
    (s : AgentState) : (detect nodeId parsed readings s).1.ring =
      parsed.elim s.ring fun ev => s.ring.push (stampEvent nodeId ev) := by
  unfold detect
  cases parsed with
  | none => rfl
  | some ev => cases s.engine <;> rfl

/-- The event of a valid line is clean, with the node id on it. -/
theorem clean_stampEvent (nodeId : Bytes) {clock : Clock} {bytes : Bytes} {ev : LogEvent}
    (hbytes : IsUtf8 bytes) (h : parse clock bytes = some ev) : CleanEvent (stampEvent nodeId ev) :=
  (parse_clean _ hbytes h).congr rfl rfl rfl

/-- One more clean event in the ring. -/
theorem Clean.push (h : Clean p) {ev : LogEvent} (hev : CleanEvent ev) :
    ∃ events, Holds (p.globals.ring.push ev) events ∧ ∀ e ∈ events, CleanEvent e := by
  obtain ⟨events, hring, hclean⟩ := h.ring
  refine ⟨_, holds_push hring ev, fun e hmem => ?_⟩
  rcases List.mem_append.mp (List.mem_of_mem_drop hmem) with hold | hnew
  · exact hclean e hold
  · rwa [List.mem_singleton.mp hnew]

/-- A callback that gets an alert from the rules was called on the line. -/
theorem takes_of_raises {clock : Clock} {bytes : Bytes} {readings : Rule → Reading}
    {alert : AlertEvent} (h : alert ∈ p.raises lib site (.line clock bytes readings)) :
    takes p (.line clock bytes readings) = some (clock, bytes, readings) := by
  unfold AgentProcess.raises at h
  split at h
  · cases h
  · next hup =>
    dsimp only at h
    split at h
    · next hready => exact if_pos ⟨by simpa using hup, hready⟩
    · cases h

/-- What a callback gets is valid if its line is, and always in Suricata's
mode. -/
theorem Clean.raises (h : Clean p) (hnode : IsUtf8 site.nodeId)
    (hparse : ∀ bytes j, lib.parse bytes = some j → j.AllUtf8) {action : AgentProcesses.Action}
    (hline : ∀ line ∈ takes p action, IsUtf8 line.2.1) {alert : AlertEvent}
    (halert : alert ∈ p.raises lib site action) : AlertUtf8 alert := by
  rcases mem_raises lib site p halert with
    ⟨clock, bytes, readings, rule, subject, rfl, -, ev, engine, drawn, hparsed, -, hraised, rfl⟩ |
      ⟨now, bytes, made, counter, -, -, hconverted, rfl⟩
  · have hbytes : IsUtf8 bytes := hline (clock, bytes, readings) (takes_of_raises halert)
    have hevent : CleanEvent (stampEvent site.nodeId ev) := clean_stampEvent _ hbytes hparsed
    obtain ⟨events, hring, hclean⟩ := h.push hevent
    obtain ⟨hsubject, -⟩ := Option.filter_eq_some_iff.mp hraised
    have hcopied := @copied_clean _ _ engine.cfg rule subject hevent
      (snapshot_eq hring ▸ hclean) hsubject
    refine (alertUtf8_stampAlert hnode ?_ ?_).mpr
      ((alertUtf8_draft hnode (isUtf8_nextId drawn) rule).mpr hcopied)
    · cases rule <;> exact isUtf8_nextId drawn
    · cases rule <;> exact hnode
  · obtain ⟨j, signature, hread, hfound, rfl⟩ := parseEveLine_converted hconverted
    have hj : j.AllUtf8 := hparse bytes j hread
    exact (alertUtf8_stampAlert hnode (isUtf8_nextId _) hnode).mpr
      (alertUtf8_eveAlert hnode now hj (fun s hs => hj s (strings_find hfound s hs))
        (isUtf8_nextId _))

/-- Valid lines keep a process clean. -/
theorem Clean.step (h : Clean p) (hnode : IsUtf8 site.nodeId)
    (hparse : ∀ bytes j, lib.parse bytes = some j → j.AllUtf8) {action : AgentProcesses.Action}
    (hline : ∀ line ∈ takes p action, IsUtf8 line.2.1) : Clean (p.step lib site action) := by
  constructor
  · unfold AgentProcess.step
    split
    · exact h.ring
    · next hup =>
      cases action with
      | line clock bytes readings =>
        dsimp only [AgentProcess.takeLine]
        split
        · next hready =>
          dsimp only [AgentProcess.begin]
          rw [ring_detect]
          cases hparsed : parse clock bytes with
          | none => exact h.ring
          | some ev =>
            have hbytes : IsUtf8 bytes :=
              hline (clock, bytes, readings) (if_pos ⟨by simpa using hup, hready⟩)
            exact h.push (clean_stampEvent _ hbytes hparsed)
        · exact h.ring
      | eveLine now bytes =>
        dsimp only [AgentProcess.takeEveLine]
        split
        · split <;> exact h.ring
        · exact h.ring
      | publish =>
        dsimp only [AgentProcess.publishNext]
        split
        · exact h.ring
        · split
          · split <;> exact h.ring
          · exact h.ring
      | swap ids fresh =>
        dsimp only [AgentProcess.swap]
        split <;> exact h.ring
      | send | shutdown | proceed => exact h.ring
  · rw [raised_step]
    exact List.forall_mem_append.mpr ⟨h.raised, fun alert => h.raises hnode hparse hline⟩

end validity

section runs

variable {ι : Type*} [DecidableEq ι] {run : Run ι} {n : ℕ} {i : ι}

/-- What ends a process in a step. -/
inductive Ends (run : Run ι) (n : ℕ) (i : ι) : Prop
  /-- Its worker throws. -/
  | worker {action : AgentProcesses.Action} (turn : run.actions n = .agent i action)
      (throws : Throws run.lib (run.site i) (run.agentAt n i) action)
  /-- A heartbeat is made of an invalid node id. -/
  | heartbeat {timestamp : ℤ} (turn : run.actions n = .beat i timestamp)
      (beating : (run.agentAt n i).globals.publisher = true)
      (invalid : ¬IsUtf8 (run.site i).nodeId)

omit [DecidableEq ι] in
/-- A heartbeat is refused exactly if the node id is invalid. -/
theorem toJSON_none (hdump : Strict run.lib.dump) (p : AgentProcess) (timestamp : ℤ) :
    (heartbeatOf (run.site i) p timestamp).toJSON run.lib.dump = none ↔
      ¬IsUtf8 (run.site i).nodeId := by
  have hstatus : IsUtf8 (text "ALIVE") := isUtf8_text _ (by decide)
  rw [HeartbeatMessage.toJSON, ← Option.not_isSome_iff_eq_none, hdump, allUtf8_json]
  exact not_congr (and_iff_left hstatus)

/-- A process that a step ends was ended before or is ended by it. -/
theorem crashed_succ (hdump : Strict run.lib.dump) :
    (run.agentAt (n + 1) i).crashed = true ↔ (run.agentAt n i).crashed = true ∨ Ends run n i := by
  rcases agent_moves run n i with ⟨action, hact, hmove⟩ | ⟨hno, hmove⟩
  · rw [hmove]
    cases hup : (run.agentAt n i).crashed with
    | true =>
      refine iff_of_true ?_ (.inl rfl)
      unfold AgentProcess.step
      rw [if_pos hup]
      exact hup
    | false =>
      rw [crashed_step hdump hup]
      constructor
      · exact fun hthrows => .inr (.worker hact hthrows)
      · rintro (hcrashed | hends)
        · cases hcrashed
        · cases hends with
          | worker hturn hthrows =>
            rw [hact] at hturn
            cases hturn
            exact hthrows
          | heartbeat hturn =>
            rw [hact] at hturn
            cases hturn
  · have hends : (run.agentAt n i).crashed = false → (Ends run n i ↔ BeatThrows run n i) := by
      intro hup
      constructor
      · intro h
        cases h with
        | worker hturn => exact absurd hturn (hno _)
        | heartbeat hturn hbeating hinvalid =>
          exact ⟨_, hturn, hup, hbeating, (toJSON_none hdump _ _).mpr hinvalid⟩
      · rintro ⟨timestamp, hturn, -, hbeating, hnone⟩
        exact .heartbeat hturn hbeating ((toJSON_none hdump _ timestamp).mp hnone)
    rcases hmove with ⟨hquiet, hmove⟩ | ⟨hthrows, hmove⟩
    · rw [hmove]
      refine ⟨.inl, ?_⟩
      rintro (hcrashed | h)
      · exact hcrashed
      · by_contra hup
        exact hquiet ((hends (by simpa using hup)).mp h)
    · rw [hmove]
      have hup : (run.agentAt n i).crashed = false := hthrows.elim fun _ h => h.2.1
      exact iff_of_true rfl (.inr ((hends hup).mpr hthrows))

/-- A process has crashed exactly if a step has ended it. -/
theorem crashed_iff (hdump : Strict run.lib.dump) :
    (run.agentAt n i).crashed = true ↔ ∃ k < n, Ends run k i := by
  induction n with
  | zero =>
    refine iff_of_false (fun h => ?_) fun ⟨k, hk, _⟩ => absurd hk (Nat.not_lt_zero k)
    exact Bool.false_ne_true h
  | succ n ih =>
    rw [crashed_succ hdump, ih]
    constructor
    · rintro (⟨k, hk, hends⟩ | hends)
      · exact ⟨k, Nat.lt_succ_of_lt hk, hends⟩
      · exact ⟨n, Nat.lt_succ_self n, hends⟩
    · rintro ⟨k, hk, hends⟩
      rcases Nat.lt_succ_iff_lt_or_eq.mp hk with hlt | rfl
      · exact .inl ⟨k, hlt, hends⟩
      · exact .inr hends

/-- A process on valid lines is clean. -/
theorem clean_agentAt (hparse : ∀ bytes j, run.lib.parse bytes = some j → j.AllUtf8)
    (hnode : IsUtf8 (run.site i).nodeId) (hlines : ∀ line ∈ taken run n i, IsUtf8 line.2.1) :
    Clean (run.agentAt n i) := by
  induction n with
  | zero => exact clean_init _
  | succ n ih =>
    rw [taken_succ, List.forall_mem_append] at hlines
    have hprevious := ih hlines.1
    rcases agent_moves run n i with ⟨action, hact, hmove⟩ | ⟨-, ⟨-, hmove⟩ | ⟨-, hmove⟩⟩
    · rw [hmove]
      refine hprevious.step hnode hparse fun line hline => hlines.2 line ?_
      rw [takenAt_of_agent hact]
      exact Option.mem_toList.mpr hline
    · exact hmove ▸ hprevious
    · rw [hmove]
      exact ⟨hprevious.ring, hprevious.raised⟩

/-- A process has crashed exactly if its worker has thrown or a heartbeat was
made of an invalid node id. With a valid node id and valid lines it can print
all that it raises, so only an event whose type is no string has ended it. -/
theorem crashes_exactly (run : Run ι) (hdump : Strict run.lib.dump)
    (hparse : ∀ bytes j, run.lib.parse bytes = some j → j.AllUtf8) (n : ℕ) (i : ι) :
    ((run.agentAt n i).crashed = true ↔ ∃ k < n, Ends run k i) ∧
      (IsUtf8 (run.site i).nodeId → (∀ line ∈ taken run n i, IsUtf8 line.2.1) →
        (∀ alert ∈ run.raisedBefore n i, (serialize run.lib.dump alert).isSome) ∧
        ((run.agentAt n i).crashed = true ↔ ∃ k < n, ∃ now bytes,
          run.actions k = .agent i (.eveLine now bytes) ∧
            Throws run.lib (run.site i) (run.agentAt k i) (.eveLine now bytes))) := by
  refine ⟨crashed_iff hdump, fun hnode hlines => ⟨fun alert halert => ?_, ?_⟩⟩
  · have hvalid := (clean_agentAt hparse hnode hlines).raised alert ((histories run n i).1 ▸ halert)
    rw [serialize, hdump, allUtf8_alertJson]
    exact hvalid
  · rw [crashed_iff hdump]
    refine exists_congr fun k => and_congr_right fun hk => ⟨fun hends => ?_, ?_⟩
    · cases hends with
      | heartbeat _ _ hinvalid => exact absurd hnode hinvalid
      | worker hturn hthrows =>
        cases hthrows with
        | event hids hidle hread hfound hother =>
          exact ⟨_, _, hturn, .event hids hidle hread hfound hother⟩
        | publish hpending _ hinvalid =>
          refine absurd ?_ hinvalid
          have hbefore : ∀ line ∈ taken run k i, IsUtf8 line.2.1 := fun line hline =>
            hlines line ((taken_mono run hk.le i).subset hline)
          obtain ⟨published, hsplit, -⟩ := ((consistent_stateAt run k).sound i).history
          refine (clean_agentAt hparse hnode hbefore).raised _ ?_
          rw [Run.agentAt, hsplit]
          have hpending' : ((run.stateAt k).agents i).pending = _ := hpending
          rw [hpending']
          exact List.mem_append_right _ (List.mem_map_of_mem List.mem_cons_self)
    · rintro ⟨now, bytes, hturn, hthrows⟩
      exact .worker hturn hthrows

/-- An event whose type is a number. -/
def mistypedJson : Json := .obj [(text "event_type", .int 1)]

/-- A process that takes it over and over. -/
def mistyped : Run Unit where
  lib := standardLibrary
  site := fun _ => { nodeId := text "node-1", cfg := {}, ids := .suricata, utcSeconds := fun _ => none }
  actions := fun _ => .agent () (.eveLine 0 (JsonPrinting.compact DecimalPrinting.decimal mistypedJson))

theorem crashes_exactly_mistyped : (mistyped.agentAt 1 ()).crashed = true := by
  have hread : readJson (JsonPrinting.compact DecimalPrinting.decimal mistypedJson) =
      some mistypedJson :=
    JsonRoundTrip.readJson_compact ⟨by decide, trivial, trivial⟩ (by decide +kernel)
  refine (crashes_exactly mistyped sane_standardLibrary.strict
    (fun _ _ h => JsonValidity.allUtf8_readJson h) 1 ()).1.mpr
      ⟨0, Nat.one_pos, .worker rfl (.event rfl rfl hread rfl rfl)⟩

end runs

end Dlads.ProcessCrashes
