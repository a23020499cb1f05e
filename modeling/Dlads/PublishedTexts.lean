import Dlads.AgentPipeline
import Dlads.AlertWire
import Dlads.LineEncoding
import Dlads.RaisedAlerts

/-!
# The texts of published alerts

The agent is fed with raw lines. What an alert says of the line and of the
history is the subject of its rule and, for the service rule, the log sources
of the failures; everything else in it is ASCII or the node id. A printer that
refuses invalid UTF-8 therefore makes `publish` throw exactly when a rule
raises an alert about an invalid text, which no run of valid lines does.
-/

namespace Dlads.PublishedTexts

open ByteText StringMaps Records YamlConfig IndexedHistory DetectionRules StepMachine RingStorage
open RuleDriver AgentPipeline RaisedAlerts LineParsing Utf8Text LineEncoding JsonValue AlertWire

/-- The texts that a rule copies from the event and its history into the alert. -/
def copied (event : LogEvent) (index : EventIndex) (cfg : RuleConfig) (subject : Bytes) :
    Rule → List Bytes
  | .multiServiceAuth =>
    subject :: (MultiServiceAuthRule.servicesHit event index cfg subject).sort (· ≤ ·)
  | _ => [subject]

/-- The callback on raw lines. -/
def tailer (nodeId : Bytes) : Machine AgentState (Clock × Bytes × (Rule → Reading))
    (List AlertEvent) where
  step := fun s input => onLine nodeId (parse input.1 input.2.1) input.2.2 s

/-- A sequence of raw lines arriving at a new agent. -/
structure LineRun where
  /-- `g_node_id`. -/
  nodeId : Bytes
  /-- Configuration of the rule engine. -/
  cfg : RuleConfig
  /-- Lines in arrival order. -/
  lines : ℕ → Bytes
  /-- Clock and calendar at each call of `parse`. -/
  clocks : ℕ → Clock
  /-- Clock readings of each call of `process`. -/
  readings : ℕ → Rule → Reading

namespace LineRun

variable (run : LineRun)

/-- What each call of the callback is given. -/
def input (n : ℕ) : Clock × Bytes × (Rule → Reading) := (run.clocks n, run.lines n, run.readings n)

/-- The agent before a line. -/
def stateAt (n : ℕ) : AgentState := (tailer run.nodeId).stateAt (.init run.cfg) run.input n

/-- The alerts handed to `publish` at a line. -/
def publishedAt (n : ℕ) : List AlertEvent :=
  (tailer run.nodeId).outputAt (.init run.cfg) run.input n

/-- No call of `publish` throws. -/
def NeverThrows (dump : Json → Option Bytes) : Prop :=
  ∀ n, ∀ alert ∈ run.publishedAt n, (serialize dump alert).isSome

/-- The event of a line, with the node id on it. -/
def eventAt (n : ℕ) : Option LogEvent :=
  (parse (run.clocks n) (run.lines n)).map (stampEvent run.nodeId)

/-- The snapshot that is taken for the event of a line. -/
def snapshotAt (n : ℕ) (event : LogEvent) : List LogEvent :=
  ((run.stateAt n).ring.push event).snapshot

/-- The texts that a rule copies into the alert it raises at a line; none when
it raises no alert. -/
def copiedAt (n : ℕ) (rule : Rule) : List Bytes :=
  match run.eventAt n, (run.stateAt n).engine with
  | some event, some engine =>
    match raised engine event (run.snapshotAt n event) (run.readings n) rule with
    | some subject =>
      copied event (buildIndex (run.snapshotAt n event) event.timestamp) engine.cfg subject rule
    | none => []
  | _, _ => []

end LineRun

/-- A printer that throws exactly on strings that are not valid UTF-8. -/
def Strict (dump : Json → Option Bytes) : Prop := ∀ j, (dump j).isSome ↔ j.AllUtf8

section drafts

/-- A list of services is valid if each of them is. -/
theorem isUtf8_foldl_services (services : List Bytes) (list : Bytes) :
    IsUtf8 (services.foldl
      (fun list s => (if !list.isEmpty then list ++ text "," else list) ++ s) list) ↔
      IsUtf8 list ∧ ∀ s ∈ services, IsUtf8 s := by
  induction services generalizing list with
  | nil => simp
  | cons s rest ih =>
    have hstep : IsUtf8 ((if !list.isEmpty then list ++ text "," else list) ++ s) ↔
        IsUtf8 list ∧ IsUtf8 s := by
      cases list with
      | nil => exact (and_iff_right isUtf8_nil).symm
      | cons c tail =>
        change IsUtf8 ((c :: tail) ++ [44] ++ s) ↔ _
        rw [List.append_assoc]
        exact isUtf8_cut (by decide) (c :: tail) s
    rw [List.foldl_cons, ih, hstep, List.forall_mem_cons, and_assoc]

/-- A map of valid texts under valid names. -/
def MapUtf8 (m : StringMap Bytes) : Prop := ∀ k v, m.lookup k = some v → IsUtf8 k ∧ IsUtf8 v

theorem mapUtf8_empty : MapUtf8 ∅ := fun k v h => by cases h

theorem MapUtf8.assign {m : StringMap Bytes} (hm : MapUtf8 m) (key : String)
    (hkey : (text key).all (fun c => decide (c < 128)) = true) {value : Bytes}
    (hv : IsUtf8 value) : MapUtf8 (assign m (text key) value) := by
  intro k v h
  rw [lookup_assign] at h
  split at h
  · next heq =>
    rw [heq, ← Option.some.inj h]
    exact ⟨isUtf8_text key hkey, hv⟩
  · exact hm k v h

variable {event : LogEvent} {index : EventIndex} {cfg : RuleConfig} {subject id : Bytes}

/-- A drafted alert is valid exactly if the copied texts are. -/
theorem alertUtf8_draft (hhost : IsUtf8 event.sourceHost) (hid : IsUtf8 id) (rule : Rule) :
    AlertUtf8 (draft event index cfg subject id rule) ↔
      ∀ t ∈ copied event index cfg subject rule, IsUtf8 t := by
  have hdec : ∀ n, IsUtf8 (dec n) := fun n => (isAscii_dec n).isUtf8
  have hnone : ∀ id ∈ ([] : List Bytes), IsUtf8 id := fun id h => by cases h
  cases rule with
  | sshBruteForce =>
    change AlertUtf8 _ ↔ ∀ t ∈ [subject], IsUtf8 t
    rw [List.forall_mem_singleton]
    constructor
    · intro h
      exact (h.metadata _ subject (lookup_draft event index cfg subject id (by decide))).2
    · intro hs
      refine ⟨hid, hhost, isUtf8_text _ (by decide), ?_, hnone, ?_⟩
      · have hcount := (isUtf8_text "SSH brute force: " (by decide)).append
          (hdec (SshBruteForceRule.count event index cfg subject))
        have hfrom := (hcount.append_text " failed logins from " (by decide)).append hs
        exact ((hfrom.append_text _ (by decide)).append (hdec _)).append_text _ (by decide)
      · exact (mapUtf8_empty.assign _ (by decide) hs).assign _ (by decide) (hdec _)
  | portScan =>
    change AlertUtf8 _ ↔ ∀ t ∈ [subject], IsUtf8 t
    rw [List.forall_mem_singleton]
    constructor
    · intro h
      exact (h.metadata _ subject (lookup_draft event index cfg subject id (by decide))).2
    · intro hs
      refine ⟨hid, hhost, isUtf8_text _ (by decide), ?_, hnone, ?_⟩
      · have hfrom := (isUtf8_text "Port scan: " (by decide)).append hs
        have hcount := (hfrom.append_text " hit " (by decide)).append
          (hdec (PortScanRule.portsSeen event index cfg subject).card)
        exact ((hcount.append_text _ (by decide)).append (hdec _)).append_text _ (by decide)
      · exact (mapUtf8_empty.assign _ (by decide) hs).assign _ (by decide) (hdec _)
  | privEsc =>
    change AlertUtf8 _ ↔ ∀ t ∈ [subject], IsUtf8 t
    rw [List.forall_mem_singleton]
    constructor
    · intro h
      exact (h.metadata (text "username") subject (by simp [draft, PrivEscRule.alert])).2
    · intro hs
      refine ⟨hid, hhost, isUtf8_text _ (by decide), ?_, hnone, ?_⟩
      · exact ((isUtf8_text _ (by decide)).append hs).append_text _ (by decide)
      · exact mapUtf8_empty.assign _ (by decide) hs
  | multiServiceAuth =>
    rw [copied, List.forall_mem_cons]
    constructor
    · intro h
      have hlist := (h.metadata (text "services") _
        (by simp [draft, MultiServiceAuthRule.alert, text]; rfl)).2
      have haddress := lookup_draft event index cfg subject id
        (by decide : Rule.multiServiceAuth ≠ .privEsc)
      exact ⟨(h.metadata _ subject haddress).2, ((isUtf8_foldl_services _ []).mp hlist).2⟩
    · rintro ⟨hs, hservices⟩
      have hlist : IsUtf8 (MultiServiceAuthRule.serviceList
          (MultiServiceAuthRule.servicesHit event index cfg subject)) :=
        (isUtf8_foldl_services _ []).mpr ⟨isUtf8_nil, hservices⟩
      refine ⟨hid, hhost, isUtf8_text _ (by decide), ?_, hnone, ?_⟩
      · have hfrom := (isUtf8_text "Multi-service auth failure: " (by decide)).append hs
        exact ((hfrom.append_text _ (by decide)).append hlist).append_text _ (by decide)
      · have haddress := mapUtf8_empty.assign "src_ip" (by decide) hs
        exact (haddress.assign _ (by decide) hlist).assign _ (by decide) (hdec _)

/-- Stamping keeps an alert valid or invalid. -/
theorem alertUtf8_stampAlert {nodeId : Bytes} (hnode : IsUtf8 nodeId) {alert : AlertEvent}
    (hid : IsUtf8 alert.alertId) (hhost : IsUtf8 alert.sourceHost) :
    AlertUtf8 (stampAlert nodeId alert) ↔ AlertUtf8 alert := by
  have hdash : IsUtf8 (text "-") := isUtf8_text _ (by decide)
  constructor
  · rintro ⟨-, -, hrule, hdesc, hlogs, hmeta⟩
    exact ⟨hid, hhost, hrule, hdesc, hlogs, hmeta⟩
  · rintro ⟨-, -, hrule, hdesc, hlogs, hmeta⟩
    exact ⟨(hnode.append hdash).append hid, hnode, hrule, hdesc, hlogs, hmeta⟩

end drafts

section runs

variable (run : LineRun)

theorem stateAt_succ (n : ℕ) : run.stateAt (n + 1) =
    (onLine run.nodeId (parse (run.clocks n) (run.lines n)) (run.readings n) (run.stateAt n)).1 :=
  rfl

theorem publishedAt_eq (n : ℕ) : run.publishedAt n =
    (onLine run.nodeId (parse (run.clocks n) (run.lines n)) (run.readings n) (run.stateAt n)).2 :=
  rfl

/-- The engine stays and keeps its configuration, and there is a publisher. -/
theorem exists_engine (n : ℕ) : (run.stateAt n).publisher = true ∧
    ∃ engine, (run.stateAt n).engine = some engine ∧ engine.cfg = run.cfg := by
  induction n with
  | zero => exact ⟨rfl, .init run.cfg, rfl, rfl⟩
  | succ n ih =>
    obtain ⟨hp, engine, he, hc⟩ := ih
    rw [stateAt_succ]
    cases parse (run.clocks n) (run.lines n) with
    | none => exact ⟨hp, engine, he, hc⟩
    | some ev =>
      obtain ⟨-, hengine, -, hpub, -⟩ := onLine_some run.nodeId (run.readings n) _ he ev
      rw [hpub, hengine]
      exact ⟨hp, _, rfl, by rw [process_cfg, hc]⟩

/-- The alerts published at a line are the stamped drafts of the rules that
raise one. -/
theorem mem_publishedAt (n : ℕ) (alert : AlertEvent) : alert ∈ run.publishedAt n →
    ∃ event engine rule subject drawn, run.eventAt n = some event ∧
      (run.stateAt n).engine = some engine ∧
      raised engine event (run.snapshotAt n event) (run.readings n) rule = some subject ∧
      alert = stampAlert run.nodeId
        (draft event (buildIndex (run.snapshotAt n event) event.timestamp) engine.cfg subject
          (nextId drawn).1 rule) := by
  intro h
  obtain ⟨hp, engine, he, -⟩ := exists_engine run n
  rw [publishedAt_eq] at h
  cases hparse : parse (run.clocks n) (run.lines n) with
  | none =>
    rw [hparse] at h
    cases h
  | some ev =>
    obtain ⟨-, -, -, -, hout⟩ := onLine_some run.nodeId (run.readings n) _ he ev
    rw [hparse, hout, hp, if_pos rfl] at h
    obtain ⟨made, hmade, rfl⟩ := List.mem_map.mp h
    obtain ⟨rule, -, hresult⟩ := List.mem_filterMap.mp hmade
    obtain ⟨drawn, hdraft⟩ := process_result engine (run.stateAt n).counter
      (stampEvent run.nodeId ev) (run.snapshotAt n (stampEvent run.nodeId ev)) (run.readings n)
      rule
    obtain ⟨subject, hraised, rfl⟩ := Option.map_eq_some_iff.mp (hdraft.symm.trans hresult)
    have hev : run.eventAt n = some (stampEvent run.nodeId ev) := by
      rw [LineRun.eventAt, hparse, Option.map_some]
    exact ⟨_, engine, rule, subject, drawn, hev, he, hraised, rfl⟩

/-- What a rule raises at a line is published. -/
theorem exists_published {n : ℕ} {event : LogEvent} {engine : RuleEngine} {rule : Rule}
    {subject : Bytes} (hev : run.eventAt n = some event) (he : (run.stateAt n).engine = some engine)
    (hr : raised engine event (run.snapshotAt n event) (run.readings n) rule = some subject) :
    ∃ drawn, stampAlert run.nodeId
      (draft event (buildIndex (run.snapshotAt n event) event.timestamp) engine.cfg subject
        (nextId drawn).1 rule) ∈ run.publishedAt n := by
  obtain ⟨hp, -⟩ := exists_engine run n
  obtain ⟨ev, hparse, rfl⟩ := Option.map_eq_some_iff.mp hev
  obtain ⟨drawn, hdraft⟩ := process_result engine (run.stateAt n).counter
    (stampEvent run.nodeId ev) (run.snapshotAt n (stampEvent run.nodeId ev)) (run.readings n) rule
  obtain ⟨-, -, -, -, hout⟩ := onLine_some run.nodeId (run.readings n) _ he ev
  refine ⟨drawn, ?_⟩
  rw [publishedAt_eq, hparse, hout, hp, if_pos rfl]
  refine List.mem_map.mpr ⟨_, List.mem_filterMap.mpr ⟨rule, ?_, ?_⟩, rfl⟩
  · cases rule <;> decide
  · rw [hr] at hdraft
    exact hdraft

end runs

section texts

variable {run : LineRun}

theorem isUtf8_nextId (drawn : UInt64) : IsUtf8 (nextId drawn).1 := by
  have hfront : IsUtf8 (text "alert-") := isUtf8_text _ (by decide)
  have hnumber := isAscii_dec (drawn.toNat : ℤ)
  rw [dec_natCast] at hnumber
  exact hfront.append hnumber.isUtf8

theorem sourceHost_eventAt {n : ℕ} {event : LogEvent} (h : run.eventAt n = some event) :
    event.sourceHost = run.nodeId := by
  obtain ⟨ev, -, rfl⟩ := Option.map_eq_some_iff.mp h
  rfl

/-- No call throws exactly if all copied texts are valid. -/
theorem neverThrows_iff_copied {dump : Json → Option Bytes} (hd : Strict dump)
    (hnode : IsUtf8 run.nodeId) :
    run.NeverThrows dump ↔ ∀ n rule, ∀ t ∈ run.copiedAt n rule, IsUtf8 t := by
  have hvalid : ∀ {n event engine rule subject drawn}, run.eventAt n = some event →
      ((serialize dump (stampAlert run.nodeId
        (draft event (buildIndex (run.snapshotAt n event) event.timestamp) engine subject
          (nextId drawn).1 rule))).isSome ↔
        ∀ t ∈ copied event (buildIndex (run.snapshotAt n event) event.timestamp) engine subject
          rule, IsUtf8 t) := by
    intro n event engine rule subject drawn hev
    have hhost : IsUtf8 event.sourceHost := (sourceHost_eventAt hev).symm ▸ hnode
    have hid : ∀ cfg, (draft event (buildIndex (run.snapshotAt n event) event.timestamp) cfg subject
        (nextId drawn).1 rule).alertId = (nextId drawn).1 ∧
        (draft event (buildIndex (run.snapshotAt n event) event.timestamp) cfg subject
          (nextId drawn).1 rule).sourceHost = event.sourceHost := by
      intro cfg
      cases rule <;> exact ⟨rfl, rfl⟩
    rw [serialize, hd, allUtf8_alertJson, alertUtf8_stampAlert hnode
      ((hid engine).1.symm ▸ isUtf8_nextId drawn) ((hid engine).2.symm ▸ hhost),
      alertUtf8_draft hhost (isUtf8_nextId drawn)]
  constructor
  · intro h n rule t ht
    unfold LineRun.copiedAt at ht
    split at ht
    · next event engine hev he =>
      split at ht
      · next subject hr =>
        obtain ⟨drawn, hmem⟩ := exists_published run hev he hr
        exact (hvalid hev).mp (h n _ hmem) t ht
      · cases ht
    · cases ht
  · intro h n alert hmem
    obtain ⟨event, engine, rule, subject, drawn, hev, he, hr, rfl⟩ :=
      mem_publishedAt run n alert hmem
    refine (hvalid hev).mpr fun t ht => h n rule t ?_
    simp only [LineRun.copiedAt, hev, he, hr]
    exact ht

/-- The services that a rule counts are log sources of the event and its
history. -/
theorem mem_servicesHit {event : LogEvent} {snapshot : List LogEvent} {now : ℤ} {cfg : RuleConfig}
    {srcIp t : Bytes}
    (h : t ∈ MultiServiceAuthRule.servicesHit event (buildIndex snapshot now) cfg srcIp) :
    t = event.logSource ∨ ∃ ev ∈ snapshot, t = ev.logSource := by
  have hinsert : ∀ (services : Finset Bytes) (source : Bytes),
      t ∈ MultiServiceAuthRule.insertService services source → t ∈ services ∨ t = source := by
    intro services source ht
    unfold MultiServiceAuthRule.insertService at ht
    split at ht
    · exact (Finset.mem_insert.mp ht).symm
    · exact .inl ht
  have hfold : ∀ (events : List LogEvent) (services : Finset Bytes),
      t ∈ events.foldl (fun services ev =>
        if MultiServiceAuthRule.counts (MultiServiceAuthRule.cutoff event cfg) ev then
          MultiServiceAuthRule.insertService services ev.logSource else services) services →
      t ∈ services ∨ ∃ ev ∈ events, t = ev.logSource := by
    intro events
    induction events with
    | nil => exact fun services ht => .inl ht
    | cons ev rest ih =>
      intro services ht
      rcases ih _ ht with ht | ⟨other, hmem, heq⟩
      · dsimp only at ht
        split at ht
        · rcases hinsert _ _ ht with ht | heq
          · exact .inl ht
          · exact .inr ⟨ev, List.mem_cons_self, heq⟩
        · exact .inl ht
      · exact .inr ⟨other, List.mem_cons_of_mem ev hmem, heq⟩
  rcases hfold _ _ h with ht | ⟨ev, hmem, heq⟩
  · rcases hinsert _ _ ht with ht | heq
    · exact absurd ht (Finset.notMem_empty t)
    · exact .inl heq
  · rw [bucket_byIp_buildIndex] at hmem
    exact .inr ⟨ev, List.mem_of_mem_filter (List.mem_of_mem_filter hmem), heq⟩

/-- What a rule copies from clean events is valid. -/
theorem copied_clean {event : LogEvent} {snapshot : List LogEvent} {cfg : RuleConfig} {rule : Rule}
    {subject : Bytes} (hev : CleanEvent event) (hs : ∀ ev ∈ snapshot, CleanEvent ev)
    (hsub : ruleSubject rule event = some subject) :
    ∀ t ∈ copied event (buildIndex snapshot event.timestamp) cfg subject rule, IsUtf8 t := by
  have hsubject : IsUtf8 subject := by
    by_cases hrule : rule = .privEsc
    · subst hrule
      rw [ruleSubject, PrivEscRule.subject] at hsub
      simp only [Option.ite_none_left_eq_some, Option.some.injEq] at hsub
      rw [← hsub.2.2.2]
      exact parseSudoUser_utf8 hev.message
    · rw [(subject_eq_extractSrcIp event hrule hsub).1]
      exact hev.extractSrcIp
  intro t ht
  cases rule with
  | sshBruteForce => rwa [List.mem_singleton.mp ht]
  | portScan => rwa [List.mem_singleton.mp ht]
  | privEsc => rwa [List.mem_singleton.mp ht]
  | multiServiceAuth =>
    rcases List.mem_cons.mp ht with rfl | ht
    · exact hsubject
    · rcases mem_servicesHit ((Finset.mem_sort _).mp ht) with rfl | ⟨ev, hmem, rfl⟩
      · exact hev.logSource
      · exact (hs ev hmem).logSource

/-- The events in the ring of a run of valid lines are clean. -/
theorem ring_clean (hl : ∀ n, IsUtf8 (run.lines n)) (n : ℕ) :
    ∃ events, Holds (run.stateAt n).ring events ∧ ∀ ev ∈ events, CleanEvent ev := by
  induction n with
  | zero =>
    have hC : 0 < ringCapacity := by
      unfold ringCapacity
      decide
    exact ⟨[], holds_init ({} : LogEvent) hC, fun ev h => by cases h⟩
  | succ n ih =>
    obtain ⟨events, hring, hclean⟩ := ih
    obtain ⟨-, engine, he, -⟩ := exists_engine run n
    rw [stateAt_succ]
    cases hparse : parse (run.clocks n) (run.lines n) with
    | none => exact ⟨events, hring, hclean⟩
    | some ev =>
      obtain ⟨hpush, -⟩ := onLine_some run.nodeId (run.readings n) _ he ev
      rw [hpush]
      refine ⟨_, holds_push hring (stampEvent run.nodeId ev), fun e hmem => ?_⟩
      have hsuffix : e ∈ events ++ [stampEvent run.nodeId ev] := List.mem_of_mem_drop hmem
      rcases List.mem_append.mp hsuffix with h | h
      · exact hclean e h
      · rw [List.mem_singleton.mp h]
        exact (parse_clean _ (hl n) hparse).congr rfl rfl rfl

/-- Valid lines only lead to valid texts. -/
theorem copiedAt_utf8 (hl : ∀ n, IsUtf8 (run.lines n)) (n : ℕ) (rule : Rule) :
    ∀ t ∈ run.copiedAt n rule, IsUtf8 t := by
  intro t ht
  unfold LineRun.copiedAt at ht
  split at ht
  · next event engine hev _ =>
    split at ht
    · next subject hr =>
      obtain ⟨ev, hparse, rfl⟩ := Option.map_eq_some_iff.mp hev
      obtain ⟨hsub, -⟩ := Option.filter_eq_some_iff.mp hr
      obtain ⟨events, hring, hclean⟩ := ring_clean hl n
      have hevent : CleanEvent (stampEvent run.nodeId ev) :=
        (parse_clean _ (hl n) hparse).congr rfl rfl rfl
      have hsnapshot : ∀ e ∈ run.snapshotAt n (stampEvent run.nodeId ev), CleanEvent e := by
        intro e hmem
        rw [LineRun.snapshotAt, snapshot_eq (holds_push hring _)] at hmem
        rcases List.mem_append.mp (List.mem_of_mem_drop hmem) with h | h
        · exact hclean e h
        · rwa [List.mem_singleton.mp h]
      exact copied_clean hevent hsnapshot hsub t ht
    · cases ht
  · cases ht

/-- Publishing never throws in exactly the runs in which no rule raises an
alert about an invalid text, and in every run of valid lines. -/
theorem neverThrows_iff (dump : Json → Option Bytes) (hd : Strict dump) (run : LineRun)
    (hnode : IsUtf8 run.nodeId) :
    (run.NeverThrows dump ↔ ∀ n rule, ∀ t ∈ run.copiedAt n rule, IsUtf8 t) ∧
      ((∀ n, IsUtf8 (run.lines n)) → run.NeverThrows dump) := by
  have hiff : run.NeverThrows dump ↔ _ := neverThrows_iff_copied hd hnode
  exact ⟨hiff, fun hl => hiff.mpr (copiedAt_utf8 hl)⟩

end texts

/-- The calendar of a host that knows no time. -/
def noCalendar : Clock where
  time := 0
  now := 0
  gmtimeYear := fun _ => 70
  mktime := fun _ => -1

/-- A sudo session opened by a user, again and again. -/
def sudoLines (user : Bytes) : LineRun where
  nodeId := text "node"
  cfg := {}
  lines := fun _ => text "Jan  1 00:00:00 web sudo: session opened for root by " ++ user
  clocks := fun _ => noCalendar
  readings := fun _ _ => ⟨0, 0⟩

/-- A printer that refuses invalid texts; on others it prints the alert about
a session that user `bob` opens. -/
def bobPrinter (j : Json) : Option Bytes :=
  if j.AllUtf8 then
    some (text "\x7b\"alert_id\":\"node-alert-1\",\"anomaly_score\":0.8999999761581421," ++
      text "\"contributing_log_ids\":[],\"description\":\"Privilege escalation: first-time " ++
      text "sudo session opened by user 'bob'\",\"metadata\":\x7b\"username\":\"bob\"\x7d," ++
      text "\"rule_id\":\"PRIV_ESC_001\",\"severity\":\"CRITICAL\"," ++
      text "\"source_host\":\"node\",\"timestamp\":0\x7d")
  else none

theorem strict_bobPrinter : Strict bobPrinter := by
  intro j
  unfold bobPrinter
  split
  · next h => exact iff_of_true rfl h
  · next h => exact iff_of_false Bool.false_ne_true h

theorem bobLines_neverThrow :
    ((sudoLines (text "bob")).NeverThrows bobPrinter ↔
      ∀ n rule, ∀ t ∈ (sudoLines (text "bob")).copiedAt n rule, IsUtf8 t) ∧
    ((∀ n, IsUtf8 ((sudoLines (text "bob")).lines n)) →
      (sudoLines (text "bob")).NeverThrows bobPrinter) :=
  neverThrows_iff bobPrinter strict_bobPrinter (sudoLines (text "bob"))
    (isUtf8_text _ (by decide))

/-- A user name of one byte that no character holds makes `publish` throw. -/
theorem sudoLines_throw : ¬∀ dump : Json → Option Bytes, Strict dump → ∀ run : LineRun,
    IsUtf8 run.nodeId → run.NeverThrows dump := by
  intro h
  have hnode : IsUtf8 (sudoLines [255]).nodeId := isUtf8_text _ (by decide)
  have hnever := h bobPrinter strict_bobPrinter (sudoLines [255]) hnode
  have hcopied : (sudoLines [255]).copiedAt 0 .privEsc = [[255]] := by decide +kernel
  have hvalid : IsUtf8 [255] :=
    (neverThrows_iff_copied strict_bobPrinter hnode).mp hnever 0 .privEsc [255]
      (by rw [hcopied]; exact List.mem_singleton_self _)
  exact not_isUtf8_of_mem (by decide) List.mem_cons_self hvalid

end Dlads.PublishedTexts
