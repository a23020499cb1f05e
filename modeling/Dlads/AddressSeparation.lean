import Dlads.AgentPipeline
import Dlads.ErasedInputs
import Dlads.RaisedAlerts

/-!
# Detection separates addresses

The ring, the index and the cooldown map are shared by all addresses. As long
as the ring has room, what they hold of one address is what they would hold
had no other address sent anything: the events from the address in order and
the cooldowns under its keys. The three rules that look at an address read no
more than that, and so the alerts about it are those of the run in which the
events of all other addresses are missing.
-/

namespace Dlads.AddressSeparation

open ByteText StringMaps Records YamlConfig IndexedHistory DetectionRules NaiveScan StepMachine
open RingStorage RuleDriver AgentPipeline RaisedAlerts

/-- What a call of the callback is given: the event of its line, if the line
was parsed, and the clock readings of the rules. -/
abbrev Arrival := Option LogEvent × (Rule → Reading)

/-- The callback on arrivals. -/
def callback (nodeId : Bytes) : Machine AgentState Arrival (List AlertEvent) where
  step := fun s arrival => onLine nodeId arrival.1 arrival.2 s

/-- Number of events that arrivals push. -/
def pushes (arrivals : List Arrival) : ℕ := arrivals.countP fun arrival => arrival.1.isSome

/-- Every arrival but an event from another address. -/
def keeps (x : Bytes) (arrival : Arrival) : Bool := arrival.1.all fun ev => extractSrcIp ev = x

/-- An alert of a rule that looks at an address, with the address in `src_ip`. -/
def concerns (x : Bytes) (alert : AlertEvent) : Bool :=
  alert.ruleId ∈
      [text "SSH_BRUTE_FORCE_001", text "PORT_SCAN_001", text "MULTI_SERVICE_AUTH_001"] ∧
    alert.metadata.lookup (text "src_ip") = some x

/-- The alerts about an address, without their identifiers. -/
def alertsAbout (x : Bytes) (alerts : List AlertEvent) : List AlertEvent :=
  (alerts.filter (concerns x)).map contents

/-- The events from an address. -/
def eventsFrom (x : Bytes) (events : List LogEvent) : List LogEvent :=
  events.filter fun ev => extractSrcIp ev = x

/-- Engines with one configuration that hold the same cooldowns for an address. -/
structure SameCooldowns (x : Bytes) (e f : RuleEngine) : Prop where
  /-- `cfg_`. -/
  cfg : e.cfg = f.cfg
  /-- `cooldown_map_` under the keys of the address. -/
  cooldown : ∀ rule, rule ≠ .privEsc →
    e.cooldownMap.lookup (ruleKey rule x) = f.cooldownMap.lookup (ruleKey rule x)

theorem SameCooldowns.trans {x : Bytes} {e f g : RuleEngine} (h : SameCooldowns x e f)
    (h' : SameCooldowns x f g) : SameCooldowns x e g :=
  ⟨h.cfg.trans h'.cfg, fun rule hrule => (h.cooldown rule hrule).trans (h'.cooldown rule hrule)⟩

/-- Agents that hold the same of an address, with room for the arrivals to come. -/
structure SameOf (x : Bytes) (arrivals : List Arrival) (s t : AgentState) : Prop where
  /-- `g_engine`. -/
  engines : ∃ e f, s.engine = some e ∧ t.engine = some f ∧ SameCooldowns x e f
  /-- `g_publisher`. -/
  publishers : s.publisher = t.publisher
  /-- `g_ring`. -/
  rings : ∃ xs ys, Holds s.ring xs ∧ Holds t.ring ys ∧ eventsFrom x xs = eventsFrom x ys ∧
    ys.length ≤ xs.length ∧ xs.length + pushes arrivals ≤ ringCapacity

section calls

variable {x : Bytes} {event : LogEvent}

theorem eventsFrom_concat (xs : List LogEvent) (ev : LogEvent) : eventsFrom x (xs ++ [ev]) =
    if extractSrcIp ev = x then eventsFrom x xs ++ [ev] else eventsFrom x xs := by
  rw [eventsFrom, List.filter_append]
  split
  · next h => rw [List.filter_cons_of_pos (by simpa using h), List.filter_nil]; rfl
  · next h => rw [List.filter_cons_of_neg (by simpa using h), List.filter_nil, List.append_nil]; rfl

/-- The address bucket of an index depends on the events from the address. -/
theorem bucket_congr {xs ys : List LogEvent} (h : eventsFrom x xs = eventsFrom x ys) (now : ℤ) :
    bucket (buildIndex xs now).byIp x = bucket (buildIndex ys now).byIp x := by
  have hcomm : ∀ zs : List LogEvent, bucket (buildIndex zs now).byIp x =
      (eventsFrom x zs).filter (ofLastDay now) := by
    intro zs
    rw [bucket_byIp_buildIndex, eventsFrom, List.filter_filter, List.filter_filter]
    congr 1
    funext ev
    rw [Bool.and_comm]
  rw [hcomm, hcomm, h]

/-- An address rule decides and drafts on the bucket of its address. -/
theorem draft_congr {index index' : EventIndex} {cfg : RuleConfig} {rule : Rule}
    (hrule : rule ≠ .privEsc) (h : bucket index.byIp x = bucket index'.byIp x) :
    reached event index cfg x rule = reached event index' cfg x rule ∧
      ∀ id, draft event index cfg x id rule = draft event index' cfg x id rule := by
  cases rule with
  | sshBruteForce =>
    have hcount : SshBruteForceRule.count event index cfg x =
        SshBruteForceRule.count event index' cfg x := by
      rw [SshBruteForceRule.count, SshBruteForceRule.count, h]
    simp only [reached, draft, hcount, implies_true, and_self]
  | portScan =>
    have hports : PortScanRule.portsSeen event index cfg x =
        PortScanRule.portsSeen event index' cfg x := by
      rw [PortScanRule.portsSeen, PortScanRule.portsSeen, h]
    simp only [reached, draft, hports, implies_true, and_self]
  | privEsc => exact absurd rfl hrule
  | multiServiceAuth =>
    have hservices : MultiServiceAuthRule.servicesHit event index cfg x =
        MultiServiceAuthRule.servicesHit event index' cfg x := by
      rw [MultiServiceAuthRule.servicesHit, MultiServiceAuthRule.servicesHit, h]
    simp only [reached, draft, hservices, implies_true, and_self]

/-- A stamped draft concerns an address if an address rule drafted it about
the address. -/
theorem concerns_draft (nodeId : Bytes) (index : EventIndex) (cfg : RuleConfig)
    (subject id : Bytes) (rule : Rule) :
    concerns x (stampAlert nodeId (draft event index cfg subject id rule)) =
      decide (rule ≠ .privEsc ∧ subject = x) := by
  by_cases hrule : rule = .privEsc
  · rw [hrule]
    rfl
  · have hid : (draft event index cfg subject id rule).ruleId ∈
        [text "SSH_BRUTE_FORCE_001", text "PORT_SCAN_001", text "MULTI_SERVICE_AUTH_001"] := by
      cases rule with
      | privEsc => exact absurd rfl hrule
      | sshBruteForce => exact List.mem_cons_self
      | portScan => exact List.mem_cons_of_mem _ List.mem_cons_self
      | multiServiceAuth => exact List.mem_cons_of_mem _ (List.mem_cons_of_mem _ List.mem_cons_self)
    simp only [concerns, stampAlert, hid, lookup_draft event index cfg subject id hrule, hrule,
      Option.some.injEq, true_and, ne_eq, not_false_eq_true]

/-- Without identifiers, a draft is the one under the empty identifier. -/
theorem contents_draft (nodeId : Bytes) (index : EventIndex) (cfg : RuleConfig)
    (subject id : Bytes) (rule : Rule) :
    contents (stampAlert nodeId (draft event index cfg subject id rule)) =
      contents (stampAlert nodeId (draft event index cfg subject [] rule)) := by
  cases rule <;> rfl

/-- What a call shows of an address is what its rules raise about it, rule by
rule. -/
theorem alertsAbout_results (nodeId : Bytes) (engine : RuleEngine) (counter : UInt64)
    (snapshot : List LogEvent) (readings : Rule → Reading) :
    alertsAbout x ((process engine counter event snapshot readings).results.map
        (stampAlert nodeId)) =
      Rule.all.filterMap fun rule =>
        if rule ≠ .privEsc ∧ raised engine event snapshot readings rule = some x then
          some (contents (stampAlert nodeId
            (draft event (buildIndex snapshot event.timestamp) engine.cfg x [] rule)))
        else none := by
  rw [alertsAbout, Progress.results, List.map_filterMap, List.filter_filterMap,
    List.map_filterMap]
  congr 1
  funext rule
  obtain ⟨drawn, hresult⟩ := process_result engine counter event snapshot readings rule
  rw [hresult]
  cases hr : raised engine event snapshot readings rule with
  | none => simp
  | some subject =>
    rw [Option.map_some, Option.map_some, Option.filter_some, concerns_draft]
    by_cases h : rule ≠ .privEsc ∧ subject = x
    · rw [if_pos (decide_eq_true h), if_pos ⟨h.1, congrArg some h.2⟩, Option.map_some, h.2,
        contents_draft]
    · rw [if_neg (by rwa [decide_eq_true_eq]), if_neg fun h' => h ⟨h'.1, Option.some.inj h'.2⟩,
        Option.map_none]

/-- Both runs take an event from the address: its rules raise the same. -/
theorem process_from {e f : RuleEngine} (h : SameCooldowns x e f) (counter counter' : UInt64)
    {xs ys : List LogEvent} (hxs : eventsFrom x xs = eventsFrom x ys)
    (hx : extractSrcIp event = x) (nodeId : Bytes) (readings : Rule → Reading) :
    SameCooldowns x (process e counter event xs readings).engine
        (process f counter' event ys readings).engine ∧
      alertsAbout x ((process e counter event xs readings).results.map (stampAlert nodeId)) =
        alertsAbout x ((process f counter' event ys readings).results.map
          (stampAlert nodeId)) := by
  have hbucket := bucket_congr hxs event.timestamp
  have hraised : ∀ rule, rule ≠ .privEsc →
      raised e event xs readings rule = raised f event ys readings rule := by
    intro rule hrule
    unfold raised
    cases hsub : ruleSubject rule event with
    | none => rfl
    | some subject =>
      obtain rfl : subject = x := (subject_eq_extractSrcIp event hrule hsub).1.trans hx
      rw [Option.filter_some, Option.filter_some, h.cfg, (draft_congr hrule hbucket).1,
        dedupOf_address event hrule, RuleEngine.inCooldown, RuleEngine.inCooldown,
        h.cooldown rule hrule]
  constructor
  · constructor
    · rw [process_cfg, process_cfg, h.cfg]
    · intro rule hrule
      rw [process_cooldown, process_cooldown, hraised rule hrule, h.cfg, h.cooldown rule hrule]
  · rw [alertsAbout_results, alertsAbout_results]
    congr 1
    funext rule
    by_cases hrule : rule = .privEsc
    · rw [if_neg fun h => h.1 hrule, if_neg fun h => h.1 hrule]
    · rw [hraised rule hrule, h.cfg, (draft_congr hrule hbucket).2]

/-- The full run takes an event from another address: it raises nothing about
this one. -/
theorem process_other (engine : RuleEngine) (counter : UInt64) {snapshot : List LogEvent}
    (hx : extractSrcIp event ≠ x) (nodeId : Bytes) (readings : Rule → Reading) :
    SameCooldowns x (process engine counter event snapshot readings).engine engine ∧
      alertsAbout x ((process engine counter event snapshot readings).results.map
        (stampAlert nodeId)) = [] := by
  have hraised : ∀ rule, rule ≠ .privEsc →
      raised engine event snapshot readings rule ≠ some x := by
    intro rule hrule hr
    have hsub := (Option.filter_eq_some_iff.mp hr).1
    exact hx (subject_eq_extractSrcIp event hrule hsub).1.symm
  constructor
  · constructor
    · exact process_cfg engine counter event snapshot readings
    · intro rule hrule
      rw [process_cooldown, if_neg]
      intro h
      obtain ⟨subject, hr, hs⟩ := Option.map_eq_some_iff.mp h
      rw [dedupOf_address event hrule] at hs
      exact hraised rule hrule (hs ▸ hr)
  · rw [alertsAbout_results, List.filterMap_eq_nil_iff]
    intro rule _
    exact if_neg fun h => hraised rule h.1 h.2

end calls

section runs

variable {x : Bytes} {nodeId : Bytes}

theorem pushes_cons_some (ev : LogEvent) (readings : Rule → Reading) (rest : List Arrival) :
    pushes ((some ev, readings) :: rest) = pushes rest + 1 :=
  List.countP_cons_of_pos rfl

/-- Both agents push and process an event from the address, or count a line
that was not parsed. -/
theorem onLine_kept {arrival : Arrival} {rest : List Arrival} {s t : AgentState}
    (hkeep : keeps x arrival = true) (h : SameOf x (arrival :: rest) s t) :
    SameOf x rest (onLine nodeId arrival.1 arrival.2 s).1
        (onLine nodeId arrival.1 arrival.2 t).1 ∧
      alertsAbout x (onLine nodeId arrival.1 arrival.2 s).2 =
        alertsAbout x (onLine nodeId arrival.1 arrival.2 t).2 := by
  obtain ⟨parsed, readings⟩ := arrival
  obtain ⟨⟨e, f, he, hf, hengines⟩, hpub, xs, ys, hxs, hys, hsame, hle, hroom⟩ := h
  cases parsed with
  | none => exact ⟨⟨⟨e, f, he, hf, hengines⟩, hpub, xs, ys, hxs, hys, hsame, hle, hroom⟩, rfl⟩
  | some ev =>
    have hx : extractSrcIp (stampEvent nodeId ev) = x := of_decide_eq_true hkeep
    rw [pushes_cons_some] at hroom
    have hxs' := holds_push_room hxs (stampEvent nodeId ev) (by omega)
    have hys' := holds_push_room hys (stampEvent nodeId ev) (by omega)
    have hsame' : eventsFrom x (xs ++ [stampEvent nodeId ev]) =
        eventsFrom x (ys ++ [stampEvent nodeId ev]) := by
      rw [eventsFrom_concat, eventsFrom_concat, hsame]
    obtain ⟨hcool, halerts⟩ := process_from hengines s.counter t.counter hsame' hx nodeId readings
    obtain ⟨hring, heng, -, hp, hout⟩ := onLine_some nodeId readings s he ev
    obtain ⟨hring', heng', -, hp', hout'⟩ := onLine_some nodeId readings t hf ev
    rw [snapshot_eq hxs'] at heng hout
    rw [snapshot_eq hys'] at heng' hout'
    constructor
    · refine ⟨⟨_, _, heng, heng', hcool⟩, ?_, _, _, ?_, ?_, hsame', ?_, ?_⟩
      · rw [hp, hp', hpub]
      · rw [hring]
        exact hxs'
      · rw [hring']
        exact hys'
      · simpa using hle
      · rw [List.length_append, List.length_singleton]
        omega
    · rw [hout, hout', hpub]
      split
      · exact halerts
      · rfl

/-- An event from another address shows nothing about this one. -/
theorem onLine_other {arrival : Arrival} {rest : List Arrival} {s t : AgentState}
    (hkeep : keeps x arrival = false) (h : SameOf x (arrival :: rest) s t) :
    SameOf x rest (onLine nodeId arrival.1 arrival.2 s).1 t ∧
      alertsAbout x (onLine nodeId arrival.1 arrival.2 s).2 = [] := by
  obtain ⟨parsed, readings⟩ := arrival
  obtain ⟨⟨e, f, he, hf, hengines⟩, hpub, xs, ys, hxs, hys, hsame, hle, hroom⟩ := h
  cases parsed with
  | none => cases hkeep
  | some ev =>
    have hx : extractSrcIp (stampEvent nodeId ev) ≠ x := of_decide_eq_false hkeep
    rw [pushes_cons_some] at hroom
    have hxs' := holds_push_room hxs (stampEvent nodeId ev) (by omega)
    obtain ⟨hcool, halerts⟩ := process_other e s.counter hx nodeId readings
    obtain ⟨hring, heng, -, hp, hout⟩ := onLine_some nodeId readings s he ev
    constructor
    · refine ⟨⟨_, f, heng, hf, hcool.trans hengines⟩, hp.trans hpub,
        xs ++ [stampEvent nodeId ev], ys, ?_, hys, ?_, ?_, ?_⟩
      · rw [hring]
        exact hxs'
      · rw [eventsFrom_concat, if_neg hx, hsame]
      · rw [List.length_append]
        omega
      · rw [List.length_append, List.length_singleton]
        omega
    · rw [hout]
      split
      · exact halerts
      · rfl

/-- Agents that start alike hold the same of every address. -/
theorem sameOf_init (x : Bytes) (cfg : RuleConfig) {arrivals : List Arrival}
    (h : pushes arrivals < ringCapacity) : SameOf x arrivals (.init cfg) (.init cfg) := by
  have hring : Holds (AgentState.init cfg).ring [] := holds_init _ (by omega)
  refine ⟨⟨_, _, rfl, rfl, rfl, fun _ _ => rfl⟩, rfl, [], [], hring, hring, rfl, le_rfl, ?_⟩
  rw [List.length_nil]
  omega

/-- While no event has left the ring, the alerts about an address are those of
the run without the events from other addresses. -/
theorem alertsAbout_separate (nodeId : Bytes) (cfg : RuleConfig) (arrivals : List Arrival)
    (hroom : pushes arrivals < ringCapacity) (x : Bytes) :
    ((callback nodeId).outputs (.init cfg) arrivals).flatMap (alertsAbout x) =
      ((callback nodeId).outputs (.init cfg) (arrivals.filter (keeps x))).flatMap
        (alertsAbout x) := by
  have herasable : (callback nodeId).Erasable (keeps x) (alertsAbout x) (SameOf x) :=
    ⟨fun _ _ _ _ => onLine_kept, fun _ _ _ _ => onLine_other⟩
  exact (herasable.run (sameOf_init x cfg hroom)).2

end runs

/-- A failed login from an address, arriving at a second. -/
def failedLogin (ip : Bytes) (second : ℤ) : Arrival :=
  (some { timestamp := seconds second, logSource := text "sshd", message := text "Failed password",
          fields := assign ∅ (text "src_ip") ip },
    fun _ => ⟨seconds second, seconds second⟩)

/-- Two addresses take turns guessing; the rule fires on the second guess of one. -/
theorem alertsAbout_separate_twoAddresses :
    let arrivals := [failedLogin (text "1") 0, failedLogin (text "2") 1, failedLogin (text "1") 2]
    let cfg : RuleConfig := { sshThreshold := 3 }
    ((callback (text "node")).outputs (.init cfg) arrivals).flatMap (alertsAbout (text "1")) =
        ((callback (text "node")).outputs (.init cfg) (arrivals.filter (keeps (text "1")))).flatMap
          (alertsAbout (text "1")) ∧
      ((callback (text "node")).outputs (.init cfg) arrivals).flatMap (alertsAbout (text "1")) ≠
        [] := by
  intro arrivals cfg
  constructor
  · refine alertsAbout_separate (text "node") cfg arrivals ?_ (text "1")
    unfold ringCapacity
    decide
  · decide +kernel

end Dlads.AddressSeparation
