import Dlads.AlertPublishing
import Dlads.EveLines
import Dlads.PrintedAlerts
import Dlads.TimestampYears

/-!
# The agent's process

One process of `agent_main.cpp` from the moment its publisher runs: the worker
of the engine calls its callback on a line, the callback hands the alerts it
got to the publisher one by one, the publisher's thread sends, and the main
thread swaps engines or shuts down. These steps interleave. An exception that
leaves a worker ends the process. Beside its members the state records the
alerts that callbacks got and those that found no publisher, which no step
reads.
-/

namespace Dlads.AgentProcesses

open ByteText StringMaps FloatFormat Records YamlConfig IndexedHistory DetectionRules RuleDriver
open AgentPipeline LineParsing JsonValue AlertWire WireRoundTrip PrintedAlerts EveLines RaisedAlerts
open TimestampYears (readTime_parse)
open AlertPublishing (AlertPublisher Owner Sender Sender.alive Tallied sendLoop_frame
  sendLoop_absent)

/-- The detection engines. -/
inductive Ids
  | builtin | suricata
  deriving DecidableEq

/-- What a process is started with. -/
structure Site where
  /-- `g_node_id`. -/
  nodeId : Bytes
  /-- Configuration of the rule engine. -/
  cfg : RuleConfig
  /-- The engine started first. -/
  ids : Ids
  /-- `strptime` and `timegm` of the host. -/
  utcSeconds : Bytes → Option ℤ

/-- What the adapter of a site calls. -/
def Site.eveHost (lib : JsonLibrary) (site : Site) : EveHost where
  parse := lib.parse
  utcSeconds := site.utcSeconds
  sourceHost := site.nodeId

/-- A process, and its history. -/
structure AgentProcess where
  /-- The globals of the callbacks. -/
  globals : AgentState
  /-- The engine whose worker runs. -/
  ids : Option Ids
  /-- Alerts that the running callback has not published yet. -/
  pending : List AlertEvent
  /-- The publisher. -/
  publisher : AlertPublisher
  /-- An exception has ended the process. -/
  crashed : Bool
  /-- The alerts that callbacks got, with the node id on them. -/
  raised : List AlertEvent
  /-- How many alerts found that `g_publisher` was null. -/
  unpublished : ℕ

/-- A publisher whose `start` has returned. -/
def startedPublisher : AlertPublisher :=
  { AlertPublisher.init with running := true, sender := .waiting }

/-- A process whose `main` has started an engine. -/
def AgentProcess.init (site : Site) : AgentProcess where
  globals := .init site.cfg
  ids := some site.ids
  pending := []
  publisher := startedPublisher
  crashed := false
  raised := []
  unpublished := 0

/-- What happens next in a process. -/
inductive Action
  /-- The tailer calls its callback on a line. -/
  | line (clock : Clock) (bytes : Bytes) (readings : Rule → Reading)
  /-- The adapter takes a line of `eve.json`. -/
  | eveLine (now : ℤ) (bytes : Bytes)
  /-- The running callback publishes its next alert. -/
  | publish
  /-- The send loop takes a step, `zmq_send` succeeding or not. -/
  | send (ok : Bool)
  /-- The engine is stopped and joined; another one is started, or none, perhaps
  behind a new rule engine. -/
  | swap (ids : Option Ids) (fresh : Option RuleConfig)
  /-- `main` resets `g_publisher` and calls `publisher.stop()`. -/
  | shutdown
  /-- `main` goes on in `publisher.stop()`. -/
  | proceed

/-- The callback on a parsed line up to its loop over the alerts: the globals,
and the alerts. -/
def detect (nodeId : Bytes) (parsed : Option LogEvent) (readings : Rule → Reading)
    (s : AgentState) : AgentState × List AlertEvent :=
  let s := { s with linesSeen := s.linesSeen + 1 }
  match parsed with
  | none => ({ s with parseFailures := s.parseFailures + 1 }, [])
  | some ev =>
    let ev := stampEvent nodeId ev
    let s := { s with linesParsed := s.linesParsed + 1, ring := s.ring.push ev }
    match s.engine with
    | none => (s, [])
    | some engine =>
      let p := process engine s.counter ev s.ring.snapshot readings
      ({ s with engine := some p.engine, counter := p.counter }, p.results)

namespace AgentProcess

variable (lib : JsonLibrary) (site : Site) (p : AgentProcess)

/-- A callback that has got its alerts. -/
def begin (globals : AgentState) (alerts : List AlertEvent) : AgentProcess :=
  { p with
    globals := globals
    pending := alerts
    raised := p.raised ++ alerts.map (stampAlert site.nodeId) }

/-- The tailer's callback on a line; a callback that runs comes first. -/
def takeLine (clock : Clock) (bytes : Bytes) (readings : Rule → Reading) : AgentProcess :=
  if p.ids = some .builtin ∧ p.pending = [] then
    let detected := detect site.nodeId (parse clock bytes) readings p.globals
    p.begin site detected.1 detected.2
  else p

/-- The adapter on a line, up to its callback's call of `publish`. -/
def takeEveLine (now : ℤ) (bytes : Bytes) : AgentProcess :=
  if p.ids = some .suricata ∧ p.pending = [] then
    match parseEveLine (site.eveHost lib) now p.globals.counter bytes with
    | (.skipped, counter) => { p with globals := { p.globals with counter := counter } }
    | (.thrown, _) => { p with crashed := true }
    | (.converted alert, counter) => p.begin site { p.globals with counter := counter } [alert]
  else p

/-- One iteration of a callback's loop over its alerts. -/
def publishNext : AgentProcess :=
  match p.pending with
  | [] => p
  | alert :: rest =>
    let p := { p with
      globals := { p.globals with alertsFired := p.globals.alertsFired + 1 }
      pending := rest }
    if p.globals.publisher then
      match serialize lib.dump (stampAlert site.nodeId alert) with
      | none => { p with crashed := true }
      | some json => { p with publisher := p.publisher.publish json }
    else { p with unpublished := p.unpublished + 1 }

/-- A swap of the engine, or its stop at the end of `main`: the join waits for
the running callback, and the thread that swaps has ended when `g_publisher` is
reset. -/
def swap (ids : Option Ids) (fresh : Option RuleConfig) : AgentProcess :=
  if p.pending = [] ∧ p.globals.publisher = true then
    { p with
      ids := ids
      globals := { p.globals with engine := (fresh.map RuleEngine.init).or p.globals.engine } }
  else p

/-- The end of `main`. A swap that waited for the lock may have started an engine
behind its back. -/
def shutdown : AgentProcess :=
  { p with globals := { p.globals with publisher := false }, publisher := p.publisher.stop }

/-- A step of a process that has not ended. -/
def step (action : Action) : AgentProcess :=
  if p.crashed then p
  else
    match action with
    | .line clock bytes readings => p.takeLine site clock bytes readings
    | .eveLine now bytes => p.takeEveLine lib site now bytes
    | .publish => p.publishNext lib site
    | .send ok => { p with publisher := p.publisher.sendLoop ok }
    | .swap ids fresh => p.swap ids fresh
    | .shutdown => p.shutdown
    | .proceed => { p with publisher := p.publisher.proceed }

/-- The alerts that a callback gets in a step, with the node id on them. -/
def raises (action : Action) : List AlertEvent :=
  if p.crashed then []
  else
    match action with
    | .line clock bytes readings =>
      if p.ids = some .builtin ∧ p.pending = [] then
        (detect site.nodeId (parse clock bytes) readings p.globals).2.map (stampAlert site.nodeId)
      else []
    | .eveLine now bytes =>
      if p.ids = some .suricata ∧ p.pending = [] then
        match parseEveLine (site.eveHost lib) now p.globals.counter bytes with
        | (.converted alert, _) => [stampAlert site.nodeId alert]
        | _ => []
      else []
    | _ => []

/-- The message that a step hands to the network. -/
def handsOver (action : Action) : Option Bytes :=
  match p.crashed, action, p.publisher.sender with
  | false, .send true, .sending json => some json
  | _, _, _ => none

end AgentProcess

section callback

variable (nodeId : Bytes) (parsed : Option LogEvent) (readings : Rule → Reading) (s : AgentState)

/-- The callback counts the alerts it got and publishes them, in order. -/
theorem onLine_eq_detect : onLine nodeId parsed readings s =
    ({ (detect nodeId parsed readings s).1 with
        alertsFired := s.alertsFired +
          UInt64.ofNat (detect nodeId parsed readings s).2.length },
      if s.publisher then (detect nodeId parsed readings s).2.map (stampAlert nodeId) else []) := by
  unfold onLine detect
  cases parsed with
  | none => simp
  | some ev => cases s.engine <;> simp

end callback

section history

variable (lib : JsonLibrary) (site : Site) (p : AgentProcess)

/-- The history grows by the alerts that a callback gets. -/
theorem raised_step (action : Action) :
    (p.step lib site action).raised = p.raised ++ p.raises lib site action := by
  unfold AgentProcess.step AgentProcess.raises
  split
  · exact (List.append_nil _).symm
  · cases action with
    | line clock bytes readings =>
      dsimp only [AgentProcess.takeLine]
      split
      · rfl
      · exact (List.append_nil _).symm
    | eveLine now bytes =>
      dsimp only [AgentProcess.takeEveLine]
      split
      · split
        · next h => simp [h]
        · next h => simp [h]
        · next h => simp [h, AgentProcess.begin]
      · exact (List.append_nil _).symm
    | publish =>
      dsimp only [AgentProcess.publishNext]
      split
      · exact (List.append_nil _).symm
      · split
        · split <;> exact (List.append_nil _).symm
        · exact (List.append_nil _).symm
    | swap ids fresh =>
      dsimp only [AgentProcess.swap]
      split <;> exact (List.append_nil _).symm
    | _ => exact (List.append_nil _).symm

/-- What a process sends goes to the network. -/
theorem shipped_step (action : Action) : (p.step lib site action).publisher.shipped =
    p.publisher.shipped ++ (p.handsOver action).toList := by
  unfold AgentProcess.step AgentProcess.handsOver
  cases hc : p.crashed with
  | true => simp
  | false =>
    have hpublish : ∀ json, (p.publisher.publish json).shipped = p.publisher.shipped := by
      intro json
      unfold AlertPublisher.publish
      split <;> rfl
    simp only [Bool.false_eq_true, if_false]
    cases action with
    | line clock bytes readings =>
      dsimp only [AgentProcess.takeLine]
      split <;> exact (List.append_nil _).symm
    | eveLine now bytes =>
      dsimp only [AgentProcess.takeEveLine]
      split
      · split <;> exact (List.append_nil _).symm
      · exact (List.append_nil _).symm
    | publish =>
      dsimp only [AgentProcess.publishNext]
      split
      · exact (List.append_nil _).symm
      · split
        · split
          · exact (List.append_nil _).symm
          · exact (hpublish _).trans (List.append_nil _).symm
        · exact (List.append_nil _).symm
    | send ok =>
      dsimp only [AlertPublisher.sendLoop]
      cases hs : p.publisher.sender with
      | sending json => cases ok <;> simp
      | waiting =>
        cases hq : p.publisher.queue with
        | nil => cases p.publisher.stopFlag <;> cases ok <;> simp
        | cons json rest => cases ok <;> simp
      | _ => cases ok <;> simp
    | swap ids fresh =>
      dsimp only [AgentProcess.swap]
      split <;> exact (List.append_nil _).symm
    | shutdown =>
      dsimp only [AgentProcess.shutdown, AlertPublisher.stop]
      split <;> exact (List.append_nil _).symm
    | proceed =>
      dsimp only [AlertPublisher.proceed]
      cases p.publisher.owner with
      | joining => cases p.publisher.sender <;> exact (List.append_nil _).symm
      | _ => exact (List.append_nil _).symm

end history

section origins

variable (lib : JsonLibrary) (site : Site) (p : AgentProcess)

/-- A rule of the running engine drafts an alert about a subject of the line. -/
def ByRule (clock : Clock) (bytes : Bytes) (readings : Rule → Reading) (alert : AlertEvent)
    (rule : Rule) (subject : Bytes) : Prop :=
  ∃ ev engine drawn, parse clock bytes = some ev ∧ p.globals.engine = some engine ∧
    raised engine (stampEvent site.nodeId ev)
      (p.globals.ring.push (stampEvent site.nodeId ev)).snapshot readings rule = some subject ∧
    alert = stampAlert site.nodeId (draft (stampEvent site.nodeId ev)
      (buildIndex (p.globals.ring.push (stampEvent site.nodeId ev)).snapshot
        (stampEvent site.nodeId ev).timestamp)
      engine.cfg subject (nextId drawn).1 rule)

/-- A callback gets an alert from a rule about the line it was called on, or
from a line of `eve.json`. -/
theorem mem_raises {action : Action} {alert : AlertEvent}
    (h : alert ∈ p.raises lib site action) :
    (∃ clock bytes readings rule subject, action = .line clock bytes readings ∧
      p.ids = some .builtin ∧ ByRule site p clock bytes readings alert rule subject) ∨
    ∃ now bytes made counter, action = .eveLine now bytes ∧ p.ids = some .suricata ∧
      parseEveLine (site.eveHost lib) now p.globals.counter bytes = (.converted made, counter) ∧
      alert = stampAlert site.nodeId made := by
  unfold AgentProcess.raises at h
  split at h
  · cases h
  · cases action with
    | line clock bytes readings =>
      dsimp only at h
      split at h
      · next hready =>
        obtain ⟨made, hmade, rfl⟩ := List.mem_map.mp h
        unfold detect at hmade
        cases hparse : parse clock bytes with
        | none =>
          rw [hparse] at hmade
          cases hmade
        | some ev =>
          cases he : p.globals.engine with
          | none =>
            simp only [hparse, he] at hmade
            cases hmade
          | some engine =>
            simp only [hparse, he] at hmade
            obtain ⟨rule, -, hresult⟩ := List.mem_filterMap.mp hmade
            obtain ⟨drawn, hdraft⟩ := process_result engine p.globals.counter
              (stampEvent site.nodeId ev)
              (p.globals.ring.push (stampEvent site.nodeId ev)).snapshot readings rule
            obtain ⟨subject, hraised, rfl⟩ := Option.map_eq_some_iff.mp (hdraft.symm.trans hresult)
            exact .inl ⟨clock, bytes, readings, rule, subject, rfl, hready.1,
              ev, engine, drawn, hparse, he, hraised, rfl⟩
      · cases h
    | eveLine now bytes =>
      dsimp only at h
      split at h
      · next hready =>
        split at h
        · next made counter hconverted =>
          exact .inr ⟨now, bytes, made, counter, rfl, hready.1, hconverted,
            List.mem_singleton.mp h⟩
        · cases h
      · cases h
    | _ => cases h

/-- The scores of drafts are values of the format. -/
theorem wellFormed_draft (event : LogEvent) (index : EventIndex) (cfg : RuleConfig)
    (subject id : Bytes) (rule : Rule) :
    (draft event index cfg subject id rule).anomalyScore.WellFormed := by
  have hone : (Binary32.finite 1).WellFormed := isValue_int (n := 1) (by norm_num)
  have hcapped : ∀ n d : ℤ, (cappedScore n d).WellFormed := fun n d =>
    wellFormed_minimum hone (wellFormed_divide _ _)
  cases rule with
  | privEsc => exact roundBinary32_wellFormed _
  | sshBruteForce | portScan | multiServiceAuth => exact hcapped _ _

/-- The scores of Suricata's alerts are values of the format. -/
theorem wellFormed_eveScore (severity : ℤ) : (eveScore severity).WellFormed :=
  have hzero : (Binary32.finite 0).WellFormed := isValue_int (n := 0) (by norm_num)
  wellFormed_maximum hzero (wellFormed_subtract _ _)

/-- What an adapter makes of a line. -/
theorem parseEveLine_converted {host : EveHost} {now : ℤ} {counter counter' : UInt64}
    {line : Bytes} {made : AlertEvent}
    (h : parseEveLine host now counter line = (.converted made, counter')) :
    ∃ j signature, host.parse line = some j ∧ j.find (text "alert") = some signature ∧
      made = eveAlert host now j signature (nextId counter).1 := by
  unfold parseEveLine at h
  cases hparse : host.parse line with
  | none => simp [hparse] at h
  | some j =>
    cases hkind : j.find (text "event_type") with
    | none => simp [hparse, hkind] at h
    | some eventType =>
      cases hsig : j.find (text "alert") with
      | none => grind
      | some signature => exact ⟨j, signature, rfl, hsig, by grind⟩

/-- The clock readings of a step fit in 64 bits, and so does what `mktime`
returns. -/
def Action.Clocked : Action → Prop
  | .line clock _ _ => IsInt64 clock.now ∧ ∀ tm, IsInt64 (clock.mktime tm)
  | .eveLine now _ => IsInt64 now
  | _ => True

/-- The seconds of an alert fit in 64 bits. -/
theorem isInt64_raises {action : Action} (hclock : action.Clocked) {alert : AlertEvent}
    (h : alert ∈ p.raises lib site action) : IsInt64 (wholeSeconds alert.timestamp) := by
  rcases mem_raises lib site p h with
    ⟨clock, bytes, readings, rule, subject, rfl, -, ev, engine, drawn, hparse, -, -, rfl⟩ |
      ⟨now, bytes, made, counter, rfl, -, hconverted, rfl⟩
  · have hevent : IsInt64 (wholeSeconds ev.timestamp) := by
      rcases readTime_parse hparse with hzero | hnow | ⟨tm, hread⟩
      · rw [hzero]
        exact ⟨by decide, by decide⟩
      · rw [hnow]
        exact (wholeSeconds_bounds hclock.1).1
      · rw [hread, wholeSeconds_seconds]
        exact hclock.2 tm
    cases rule <;> exact hevent
  · obtain ⟨j, signature, -, -, rfl⟩ := parseEveLine_converted hconverted
    change IsInt64 (wholeSeconds (eveTimestamp (site.eveHost lib) now j))
    unfold eveTimestamp
    split
    · exact (wholeSeconds_bounds hclock).1
    · split
      · exact (wholeSeconds_bounds (isInt64_wrapInt64 _)).1
      · exact (wholeSeconds_bounds hclock).1

end origins

section publisher

variable {closed : Prop} {s : AlertPublisher}

/-- A publisher that is not started again, closed or not for those who publish.
Its loop ends at the first message that it cannot send, which is the only one it
loses, or after the last one when it is to stop. -/
structure Served (closed : Prop) (s : AlertPublisher) : Prop where
  /-- The owner is not in `start`. -/
  started : s.owner ≠ .resetting ∧ s.owner ≠ .announcing ∧ s.owner ≠ .spawning
  /-- It is stopped behind the last call of `publish`. -/
  stopping : s.owner ≠ .idle ∨ s.stopFlag = true → closed
  /-- An owner that joins has told the loop to stop. -/
  flagged : s.owner = .joining → s.stopFlag = true
  /-- Once closed it runs only as long as its owner stops it. -/
  stopped : closed → s.owner = .idle → s.running = false
  /-- What was accepted is sent, lost, taken or queued, in this order. -/
  fifo : ∃ gone, s.accepted = s.shipped ++ gone ++ s.taken ++ s.queue ∧ gone.length ≤ 1 ∧
    (s.sender.alive = true → gone = []) ∧
    (s.sender.alive = false → gone = [] → closed ∧ s.queue = [])

theorem served_started (hopen : ¬closed) : Served closed startedPublisher :=
  ⟨⟨by decide, by decide, by decide⟩, fun h => absurd h (by decide), by decide,
    fun hc => absurd hc hopen, [], rfl, Nat.zero_le 1, fun _ => rfl, fun hd => Bool.noConfusion hd⟩

theorem Served.publish (h : Served closed s) (hopen : ¬closed) (json : Bytes) :
    Served closed (s.publish json) := by
  obtain ⟨gone, hfifo, hone, halive, hended⟩ := h.fifo
  unfold AlertPublisher.publish
  split
  · exact ⟨h.started, h.stopping, h.flagged, h.stopped, gone, hfifo, hone, halive, hended⟩
  · refine ⟨h.started, h.stopping, h.flagged, h.stopped, gone, ?_, hone, halive,
      fun hd hg => ?_⟩
    · change s.accepted ++ [json] = s.shipped ++ gone ++ s.taken ++ (s.queue ++ [json])
      rw [hfifo, List.append_assoc _ s.queue]
    · exact absurd (hended hd hg).1 hopen

theorem Served.sendLoop (h : Served closed s) (ok : Bool) : Served closed (s.sendLoop ok) := by
  obtain ⟨howner, hrunning, hflag, -, -, haccepted, -⟩ := sendLoop_frame s ok
  obtain ⟨gone, hfifo, hone, halive, hended⟩ := h.fifo
  refine ⟨by rw [howner]; exact h.started, by rw [howner, hflag]; exact h.stopping,
    by rw [howner, hflag]; exact h.flagged, by rw [howner, hrunning]; exact h.stopped, ?_⟩
  rw [haccepted, hfifo]
  unfold AlertPublisher.taken
  cases hs : s.sender with
  | absent =>
    rw [sendLoop_absent hs, hs]
    rw [hs] at halive hended
    exact ⟨gone, rfl, hone, halive, hended⟩
  | exited =>
    simp only [AlertPublisher.sendLoop, hs]
    rw [hs] at halive hended
    exact ⟨gone, rfl, hone, halive, hended⟩
  | waiting =>
    have hgone : gone = [] := halive (by rw [hs]; rfl)
    refine ⟨[], ?_, Nat.zero_le 1, fun _ => rfl, ?_⟩
    · cases hqueue : s.queue with
      | nil =>
        simp only [AlertPublisher.sendLoop, hs, hqueue, hgone]
        split <;> simp [hs, hqueue]
      | cons json rest => simp [AlertPublisher.sendLoop, hs, hqueue, hgone]
    · cases hqueue : s.queue with
      | nil =>
        simp only [AlertPublisher.sendLoop, hs, hqueue]
        split
        · next hstop => exact fun _ _ => ⟨h.stopping (.inr hstop), rfl⟩
        · rw [hs]
          exact fun hd => Bool.noConfusion hd
      | cons json rest =>
        simp only [AlertPublisher.sendLoop, hs, hqueue]
        exact fun hd => Bool.noConfusion hd
  | sending json =>
    have hgone : gone = [] := halive (by rw [hs]; rfl)
    cases ok with
    | true =>
      simp only [AlertPublisher.sendLoop, hs, hgone, if_true]
      exact ⟨[], by simp, Nat.zero_le 1, fun _ => rfl, fun hd => Bool.noConfusion hd⟩
    | false =>
      -- the message in hand is gone, and the loop with it
      simp only [AlertPublisher.sendLoop, hs, hgone, Bool.false_eq_true, if_false]
      exact ⟨[json], by simp, le_refl 1, fun hd => Bool.noConfusion hd,
        fun _ hnone => absurd hnone (by simp)⟩
  | counting =>
    have hgone : gone = [] := halive (by rw [hs]; rfl)
    simp only [AlertPublisher.sendLoop, hs, hgone]
    exact ⟨[], by simp, Nat.zero_le 1, fun _ => rfl, fun hd => Bool.noConfusion hd⟩

/-- The publisher is closed, and its owner stops it. -/
theorem Served.stop (h : Served closed s) : Served True s.stop := by
  obtain ⟨gone, hfifo, hone, halive, hended⟩ := h.fifo
  have hleft : s.sender.alive = false → gone = [] → True ∧ s.queue = [] := fun hd hg =>
    ⟨trivial, (hended hd hg).2⟩
  unfold AlertPublisher.stop
  split
  · exact ⟨⟨by simp, by simp, by simp⟩, fun _ => trivial, by simp, by simp, gone, hfifo, hone,
      halive, hleft⟩
  · next hnot =>
    refine ⟨h.started, fun _ => trivial, h.flagged, fun _ hidle => ?_, gone, hfifo, hone, halive,
      hleft⟩
    cases hr : s.running with
    | false => rfl
    | true => exact absurd ⟨hidle, hr⟩ hnot

theorem Served.proceed (h : Served closed s) : Served closed s.proceed := by
  obtain ⟨hreset, hannounce, hspawn⟩ := h.started
  obtain ⟨gone, hfifo, hone, halive, hended⟩ := h.fifo
  have hclosed : s.owner ≠ .idle → closed := fun ho => h.stopping (.inl ho)
  unfold AlertPublisher.proceed
  cases ho : s.owner with
  | idle => exact h
  | resetting => exact absurd ho hreset
  | announcing => exact absurd ho hannounce
  | spawning => exact absurd ho hspawn
  | locking =>
    exact ⟨⟨by simp, by simp, by simp⟩, fun _ => hclosed (by simp [ho]), fun _ => rfl, by simp,
      gone, hfifo, hone, halive, hended⟩
  | closing =>
    exact ⟨⟨by simp, by simp, by simp⟩, fun _ => hclosed (by simp [ho]), by simp, fun _ _ => rfl,
      gone, hfifo, hone, halive, hended⟩
  | joining =>
    unfold AlertPublisher.taken at hfifo
    cases hs : s.sender with
    | waiting | sending _ | counting => exact h
    | absent | exited =>
      rw [hs] at hfifo hended
      exact ⟨⟨by simp, by simp, by simp⟩, fun _ => hclosed (by simp [ho]), by simp, by simp, gone,
        hfifo, hone, fun hd => Bool.noConfusion hd, hended⟩

/-- Steps that a send loop which is to stop takes at most. -/
def effort (s : AlertPublisher) : ℕ :=
  3 * s.queue.length +
    match s.sender with
    | .waiting => 1
    | .sending _ => 3
    | .counting => 2
    | .absent | .exited => 0

/-- Parts of `stop` that are still to come. -/
def stage : Owner → ℕ
  | .locking => 3
  | .joining => 2
  | .closing => 1
  | _ => 0

end publisher

section accounts

variable (lib : JsonLibrary) (site : Site)

/-- What holds of a process and its history, whatever it has been through. -/
structure Sound (p : AgentProcess) : Prop where
  /-- The publisher's counters are right. -/
  tallied : Tallied p.publisher
  /-- The publisher keeps its messages in order. -/
  served : Served (p.globals.publisher = false) p.publisher
  /-- What it accepted are the texts of alerts that callbacks got, in order;
  the running callback still has the last ones. -/
  history : ∃ published, p.raised = published ++ p.pending.map (stampAlert site.nodeId) ∧
    p.publisher.accepted.Sublist (published.filterMap (serialize lib.dump)) ∧
    (p.crashed = false →
      published.length = p.publisher.accepted.length + p.publisher.refused + p.unpublished)
  /-- The scores of these alerts are values of the format. -/
  scores : ∀ alert ∈ p.raised, alert.anomalyScore.WellFormed
  /-- Each alert is counted before it is published. -/
  fired : p.globals.alertsFired + UInt64.ofNat p.pending.length = UInt64.ofNat p.raised.length
  /-- Each line is counted as parsed or as failed. -/
  lines : p.globals.linesSeen = p.globals.linesParsed + p.globals.parseFailures

variable {lib site} {p : AgentProcess}

theorem sound_init (site : Site) : Sound lib site (.init site) where
  tallied := ⟨(nomatch ·), Nat.zero_le _, rfl, rfl⟩
  served := served_started Bool.noConfusion
  history := ⟨[], rfl, .slnil, fun _ => rfl⟩
  scores := fun _ ha => absurd ha List.not_mem_nil
  fired := rfl
  lines := rfl

/-- What detection does to the globals: it counts the line, and no alert. -/
theorem detect_counters (nodeId : Bytes) (parsed : Option LogEvent) (readings : Rule → Reading)
    (s : AgentState) : (detect nodeId parsed readings s).1.alertsFired = s.alertsFired ∧
      (detect nodeId parsed readings s).1.publisher = s.publisher ∧
      (s.linesSeen = s.linesParsed + s.parseFailures →
        (detect nodeId parsed readings s).1.linesSeen =
          (detect nodeId parsed readings s).1.linesParsed +
            (detect nodeId parsed readings s).1.parseFailures) := by
  have hparsed : ∀ a b : UInt64, a + b + 1 = a + 1 + b := by
    intro a b
    rw [UInt64.add_assoc, UInt64.add_comm b 1, ← UInt64.add_assoc]
  unfold detect
  cases parsed with
  | none => exact ⟨rfl, rfl, fun h => by dsimp only; rw [h, UInt64.add_assoc]⟩
  | some ev =>
    cases s.engine with
    | none => exact ⟨rfl, rfl, fun h => by simp only [h, hparsed]⟩
    | some engine => exact ⟨rfl, rfl, fun h => by simp only [h, hparsed]⟩

/-- A callback that got alerts while none was running. -/
theorem Sound.begin (h : Sound lib site p) (hidle : p.pending = []) (globals : AgentState)
    (hfired : globals.alertsFired = p.globals.alertsFired)
    (hpublisher : globals.publisher = p.globals.publisher)
    (hlines : globals.linesSeen = globals.linesParsed + globals.parseFailures)
    (alerts : List AlertEvent)
    (hscores : ∀ alert ∈ alerts.map (stampAlert site.nodeId), alert.anomalyScore.WellFormed) :
    Sound lib site (p.begin site globals alerts) := by
  obtain ⟨published, hraised, haccepted, hlength⟩ := h.history
  have hcount := h.fired
  have hserved := h.served
  rw [hidle, List.map_nil, List.append_nil] at hraised
  rw [hidle] at hcount
  rw [← hpublisher] at hserved
  refine ⟨h.tallied, hserved, ⟨published, ?_, haccepted, hlength⟩, ?_, ?_, hlines⟩
  · rw [AgentProcess.begin, hraised]
  · exact List.forall_mem_append.mpr ⟨h.scores, hscores⟩
  · change globals.alertsFired + UInt64.ofNat alerts.length =
      UInt64.ofNat (p.raised ++ alerts.map (stampAlert site.nodeId)).length
    rw [List.length_append, List.length_map, UInt64.ofNat_add, ← hcount, hfired]
    exact congrArg (· + _) (UInt64.add_zero _).symm

/-- A step of the publisher alone. -/
theorem Sound.publisher (h : Sound lib site p) {s : AlertPublisher} (htallied : Tallied s)
    (hserved : Served (p.globals.publisher = false) s)
    (haccepted : s.accepted = p.publisher.accepted)
    (hrefused : s.refused = p.publisher.refused) : Sound lib site { p with publisher := s } := by
  obtain ⟨published, hraised, hsublist, hlength⟩ := h.history
  refine ⟨htallied, hserved, ⟨published, hraised, ?_, ?_⟩, h.scores, h.fired, h.lines⟩
  · rwa [haccepted]
  · rwa [haccepted, hrefused]

/-- The running callback counts its next alert and publishes it. -/
theorem Sound.publishNext (h : Sound lib site p) : Sound lib site (p.publishNext lib site) := by
  unfold AgentProcess.publishNext
  split
  · exact h
  · next alert rest hpending =>
    obtain ⟨published, hraised, haccepted, hlength⟩ := h.history
    have hcount := h.fired
    rw [hpending, List.map_cons] at hraised
    rw [hpending, List.length_cons, UInt64.ofNat_add] at hcount
    have hfired : p.globals.alertsFired + 1 + UInt64.ofNat rest.length =
        UInt64.ofNat p.raised.length := by
      rw [← hcount, UInt64.add_assoc, UInt64.add_comm 1]
      rfl
    have hmore : p.raised =
        (published ++ [stampAlert site.nodeId alert]) ++ rest.map (stampAlert site.nodeId) := by
      rw [hraised, List.append_assoc, List.singleton_append]
    dsimp only
    split
    · next hopen =>
      have hnull : ¬p.globals.publisher = false := by simpa using hopen
      split
      · next hthrow =>
        refine ⟨h.tallied, h.served, ⟨_, hmore, ?_, (nomatch ·)⟩, h.scores, hfired, h.lines⟩
        rw [List.filterMap_append, List.filterMap_cons_none hthrow, List.filterMap_nil,
          List.append_nil]
        exact haccepted
      · next json htext =>
        have hlast : (published ++ [stampAlert site.nodeId alert]).filterMap (serialize lib.dump) =
            published.filterMap (serialize lib.dump) ++ [json] := by
          rw [List.filterMap_append, List.filterMap_cons_some htext, List.filterMap_nil]
        refine ⟨h.tallied.publish json, h.served.publish hnull json, ⟨_, hmore, ?_, fun hc => ?_⟩,
          h.scores, hfired, h.lines⟩
        · rw [hlast]
          dsimp only [AlertPublisher.publish]
          split
          · exact haccepted.trans (List.sublist_append_left _ _)
          · exact haccepted.append_right [json]
        · have hold := hlength hc
          dsimp only [AlertPublisher.publish]
          split
          · simp only [List.length_append, List.length_singleton]
            omega
          · simp only [List.length_append, List.length_singleton]
            omega
    · refine ⟨h.tallied, h.served, ⟨_, hmore, ?_, fun hc => ?_⟩, h.scores, hfired, h.lines⟩
      · rw [List.filterMap_append]
        exact haccepted.trans (List.sublist_append_left _ _)
      · have hold := hlength hc
        simp only [List.length_append, List.length_singleton]
        omega

/-- Changing what no account reads. -/
theorem Sound.frame (h : Sound lib site p) {q : AgentProcess}
    (hpublisher : q.publisher = p.publisher)
    (hserved : Served (q.globals.publisher = false) q.publisher)
    (hpending : q.pending = p.pending) (hraised : q.raised = p.raised)
    (hcrashed : q.crashed = false → p.crashed = false) (hunpublished : q.unpublished = p.unpublished)
    (hfired : q.globals.alertsFired = p.globals.alertsFired)
    (hlines : q.globals.linesSeen = p.globals.linesSeen ∧
      q.globals.linesParsed = p.globals.linesParsed ∧
      q.globals.parseFailures = p.globals.parseFailures) : Sound lib site q := by
  obtain ⟨published, hsplit, haccepted, hlength⟩ := h.history
  refine ⟨hpublisher ▸ h.tallied, hserved, ⟨published, ?_, hpublisher ▸ haccepted, fun hc => ?_⟩,
    ?_, ?_, ?_⟩
  · rw [hraised, hpending, hsplit]
  · rw [hpublisher, hunpublished]
    exact hlength (hcrashed hc)
  · rw [hraised]
    exact h.scores
  · rw [hfired, hpending, hraised]
    exact h.fired
  · rw [hlines.1, hlines.2.1, hlines.2.2]
    exact h.lines

/-- The alerts that a callback gets have scores of the format. -/
theorem wellFormed_raises {action : Action} {alert : AlertEvent}
    (h : alert ∈ p.raises lib site action) : alert.anomalyScore.WellFormed := by
  rcases mem_raises lib site p h with
    ⟨clock, bytes, readings, rule, subject, -, -, ev, engine, drawn, -, -, -, rfl⟩ |
      ⟨now, bytes, made, counter, -, -, hconverted, rfl⟩
  · exact wellFormed_draft _ _ _ _ _ rule
  · obtain ⟨j, signature, -, -, rfl⟩ := parseEveLine_converted hconverted
    exact wellFormed_eveScore _

/-- Every step of a process keeps its accounts. -/
theorem Sound.step (h : Sound lib site p) (action : Action) :
    Sound lib site (p.step lib site action) := by
  have hscores : ∀ alert ∈ p.raises lib site action, alert.anomalyScore.WellFormed :=
    fun alert => wellFormed_raises
  unfold AgentProcess.raises at hscores
  unfold AgentProcess.step
  split
  · exact h
  · next hup =>
    rw [if_neg hup] at hscores
    cases action with
    | line clock bytes readings =>
      dsimp only [AgentProcess.takeLine] at hscores ⊢
      split
      · next hready =>
        rw [if_pos hready] at hscores
        obtain ⟨hfired, hpublisher, hlines⟩ :=
          detect_counters site.nodeId (parse clock bytes) readings p.globals
        exact h.begin hready.2 _ hfired hpublisher (hlines h.lines) _ hscores
      · exact h
    | eveLine now bytes =>
      dsimp only [AgentProcess.takeEveLine] at hscores ⊢
      split
      · next hready =>
        rw [if_pos hready] at hscores
        split
        · exact h.frame rfl h.served rfl rfl (fun hc => hc) rfl rfl ⟨rfl, rfl, rfl⟩
        · exact h.frame rfl h.served rfl rfl (nomatch ·) rfl rfl ⟨rfl, rfl, rfl⟩
        · next alert counter hconverted =>
          rw [hconverted] at hscores
          exact h.begin hready.2 { p.globals with counter := counter } rfl rfl h.lines [alert]
            hscores
      · exact h
    | publish => exact h.publishNext
    | send ok =>
      obtain ⟨-, -, -, -, hrefused, haccepted, -⟩ := sendLoop_frame p.publisher ok
      exact h.publisher (h.tallied.sendLoop ok) (h.served.sendLoop ok) haccepted hrefused
    | swap ids fresh =>
      dsimp only [AgentProcess.swap]
      split
      · exact h.frame rfl h.served rfl rfl (fun hc => hc) rfl rfl ⟨rfl, rfl, rfl⟩
      · exact h
    | shutdown =>
      have hstop : p.publisher.stop.accepted = p.publisher.accepted ∧
          p.publisher.stop.refused = p.publisher.refused := by
        unfold AlertPublisher.stop
        split <;> exact ⟨rfl, rfl⟩
      obtain ⟨published, hsplit, haccepted, hlength⟩ := h.history
      have hclosed : (false = false) = True := eq_self false
      refine ⟨h.tallied.step .stop, ?_, ⟨published, hsplit, ?_, ?_⟩, h.scores, h.fired, h.lines⟩
      · change Served (false = false) p.publisher.stop
        rw [hclosed]
        exact h.served.stop
      · change p.publisher.stop.accepted.Sublist _
        rwa [hstop.1]
      · change p.crashed = false → published.length =
          p.publisher.stop.accepted.length + p.publisher.stop.refused + p.unpublished
        rwa [hstop.1, hstop.2]
    | proceed =>
      have hproceed : p.publisher.proceed.accepted = p.publisher.accepted ∧
          p.publisher.proceed.refused = p.publisher.refused := by
        unfold AlertPublisher.proceed
        cases p.publisher.owner with
        | joining => cases p.publisher.sender <;> exact ⟨rfl, rfl⟩
        | _ => exact ⟨rfl, rfl⟩
      exact h.publisher h.tallied.proceed h.served.proceed hproceed.1 hproceed.2

end accounts

section shutdown

variable {lib : JsonLibrary} {site : Site} {p : AgentProcess}

/-- Without a publisher for its callbacks a process only sends what is left and
goes on in `stop`. -/
theorem closed_step (h : Sound lib site p) (hclosed : p.globals.publisher = false)
    (action : Action) : (p.step lib site action).globals.publisher = false ∧
      ((p.step lib site action).publisher = p.publisher ∨
        (∃ ok, action = .send ok ∧ (p.step lib site action).publisher = p.publisher.sendLoop ok) ∨
        action = .proceed ∧ (p.step lib site action).publisher = p.publisher.proceed) := by
  unfold AgentProcess.step
  split
  · exact ⟨hclosed, .inl rfl⟩
  · cases action with
    | line clock bytes readings =>
      dsimp only [AgentProcess.takeLine]
      split
      · obtain ⟨-, hpublisher, -⟩ :=
          detect_counters site.nodeId (parse clock bytes) readings p.globals
        exact ⟨hpublisher.trans hclosed, .inl rfl⟩
      · exact ⟨hclosed, .inl rfl⟩
    | eveLine now bytes =>
      dsimp only [AgentProcess.takeEveLine]
      split
      · split <;> exact ⟨hclosed, .inl rfl⟩
      · exact ⟨hclosed, .inl rfl⟩
    | publish =>
      dsimp only [AgentProcess.publishNext]
      split
      · exact ⟨hclosed, .inl rfl⟩
      · rw [if_neg (by simp [hclosed])]
        exact ⟨hclosed, .inl rfl⟩
    | send ok => exact ⟨hclosed, .inr (.inl ⟨ok, rfl, rfl⟩)⟩
    | swap ids fresh =>
      dsimp only [AgentProcess.swap]
      split <;> exact ⟨hclosed, .inl rfl⟩
    | shutdown =>
      refine ⟨rfl, .inl ?_⟩
      change p.publisher.stop = p.publisher
      unfold AlertPublisher.stop
      refine if_neg fun hrunning => ?_
      rw [h.served.stopped hclosed hrunning.1] at hrunning
      exact Bool.noConfusion hrunning.2
    | proceed => exact ⟨hclosed, .inr (.inr ⟨rfl, rfl⟩)⟩

end shutdown

end Dlads.AgentProcesses
