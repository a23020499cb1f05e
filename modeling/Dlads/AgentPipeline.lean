import Dlads.NaiveScan
import Dlads.RingStorage
import Dlads.RuleDriver

/-!
# The agent's line callback

What the builtin tailer's callback does once the parser has returned: stamp
the node id, push into the ring, take a snapshot, run the rules on the event
and that snapshot, stamp the alerts and hand them to the publisher. The
snapshot already holds the arriving event when the SSH rule, which starts its
count at one for it, scans the history.
-/

namespace Dlads.AgentPipeline

open ByteText StringMaps Records YamlConfig IndexedHistory DetectionRules NaiveScan StepMachine
open RingStorage RuleDriver

/-- Slots of `g_ring`. -/
@[irreducible] def ringCapacity : ℕ := 4096

/-- The globals that the callback reads and writes. -/
structure AgentState where
  /-- `g_ring`. -/
  ring : RingBuffer LogEvent ringCapacity
  /-- `g_engine`, none while the pointer is null. -/
  engine : Option RuleEngine
  /-- The counter of `AlertEvent::next_id`. -/
  counter : UInt64
  /-- `g_publisher` is not null. -/
  publisher : Bool
  /-- `g_lines_seen`. -/
  linesSeen : UInt64
  /-- `g_lines_parsed`. -/
  linesParsed : UInt64
  /-- `g_parse_failures`. -/
  parseFailures : UInt64
  /-- `g_alerts_fired`. -/
  alertsFired : UInt64

/-- The globals when the tailer starts. -/
def AgentState.init (cfg : RuleConfig) : AgentState where
  ring := .init {}
  engine := some (.init cfg)
  counter := firstId
  publisher := true
  linesSeen := 0
  linesParsed := 0
  parseFailures := 0
  alertsFired := 0

/-- The event with the node id for its host. -/
def stampEvent (nodeId : Bytes) (event : LogEvent) : LogEvent := { event with sourceHost := nodeId }

/-- The alert with the node id for its host and in front of its id. -/
def stampAlert (nodeId : Bytes) (alert : AlertEvent) : AlertEvent :=
  { alert with sourceHost := nodeId, alertId := nodeId ++ text "-" ++ alert.alertId }

/-- The callback on a parsed line, or one that failed to parse; it returns the
alerts handed to `publish`. -/
def onLine (nodeId : Bytes) (parsed : Option LogEvent) (readings : Rule → Reading)
    (s : AgentState) : AgentState × List AlertEvent :=
  let s := { s with linesSeen := s.linesSeen + 1 }
  match parsed with
  | none => ({ s with parseFailures := s.parseFailures + 1 }, [])
  | some ev =>
    let ev := stampEvent nodeId ev
    let s := { s with linesParsed := s.linesParsed + 1, ring := s.ring.push ev }
    match s.engine with
    | none => (s, [])
    | some engine =>
      let p := process engine s.counter ev s.ring.snapshot readings
      let alerts := p.results.map (stampAlert nodeId)
      ({ s with
          engine := some p.engine
          counter := p.counter
          alertsFired := s.alertsFired + UInt64.ofNat alerts.length },
        if s.publisher then alerts else [])

section callback

variable (nodeId : Bytes) (readings : Rule → Reading) (s : AgentState)

/-- A parsed line is pushed and processed, and the stamped results are
published. -/
theorem onLine_some {engine : RuleEngine} (he : s.engine = some engine) (ev : LogEvent) :
    let event := stampEvent nodeId ev
    let p := process engine s.counter event (s.ring.push event).snapshot readings
    (onLine nodeId (some ev) readings s).1.ring = s.ring.push event ∧
      (onLine nodeId (some ev) readings s).1.engine = some p.engine ∧
      (onLine nodeId (some ev) readings s).1.counter = p.counter ∧
      (onLine nodeId (some ev) readings s).1.publisher = s.publisher ∧
      (onLine nodeId (some ev) readings s).2 =
        if s.publisher then p.results.map (stampAlert nodeId) else [] := by
  unfold onLine
  simp only [he, and_self]

end callback

/-- An agent fed with parsed events. -/
def agent (nodeId : Bytes) :
    Machine AgentState (LogEvent × (Rule → Reading)) (List AlertEvent) where
  step := fun s input => onLine nodeId (some input.1) input.2 s

/-- A sequence of parsed events arriving at a new agent. -/
structure Feed where
  /-- `g_node_id`. -/
  nodeId : Bytes
  /-- Configuration of the rule engine. -/
  cfg : RuleConfig
  /-- Events in arrival order. -/
  events : ℕ → LogEvent
  /-- Clock readings of each call of `process`. -/
  readings : ℕ → Rule → Reading

namespace Feed

variable (feed : Feed)

/-- The agent before an arrival. -/
def stateAt (n : ℕ) : AgentState :=
  (agent feed.nodeId).stateAt (.init feed.cfg) (fun k => (feed.events k, feed.readings k)) n

/-- An arrival as it is pushed and processed. -/
def arrival (n : ℕ) : LogEvent := stampEvent feed.nodeId (feed.events n)

/-- The arrivals still in the ring before arrival `n`: the last 4096. -/
def retained (n : ℕ) : List LogEvent := ((List.range n).map feed.arrival).rtake ringCapacity

/-- The snapshot that `process` is given at an arrival. -/
def snapshotAt (n : ℕ) : List LogEvent := ((feed.stateAt n).ring.push (feed.arrival n)).snapshot

/-- The count that the SSH rule compares with its threshold at an arrival. -/
def sshCount (n : ℕ) (srcIp : Bytes) : ℤ :=
  SshBruteForceRule.count (feed.arrival n)
    (buildIndex (feed.snapshotAt n) (feed.arrival n).timestamp) feed.cfg srcIp

/-- The failed logins from an address, the arriving one included, among the
events still in the ring and in the window of the arrival. -/
def windowFailures (n : ℕ) (srcIp : Bytes) : ℤ :=
  (feed.retained (n + 1)).countP fun ev =>
    extractSrcIp ev = srcIp ∧ SshBruteForceRule.isSource ev.logSource ∧
      SshBruteForceRule.isFailure ev.message ∧
      (feed.arrival n).timestamp - seconds feed.cfg.sshWindowSeconds ≤ ev.timestamp

/-- The verdicts of the rules at an arrival. -/
def verdictAt (n : ℕ) : Rule → Verdict :=
  match (feed.stateAt n).engine with
  | none => fun _ => .quiet
  | some engine =>
    (process engine (feed.stateAt n).counter (feed.arrival n) (feed.snapshotAt n)
      (feed.readings n)).verdict

/-- Each failed login is counted once: the rule compares, reports and fires on
the failures in the window. -/
def CountsExactly : Prop :=
  ∀ n srcIp, SshBruteForceRule.subject (feed.events n) = some srcIp →
    feed.sshCount n srcIp = feed.windowFailures n srcIp ∧
    ∀ alert, (feed.verdictAt n .sshBruteForce).returned = some alert →
      alert.metadata.lookup (text "attempt_count") = some (dec (feed.windowFailures n srcIp)) ∧
      feed.cfg.sshThreshold ≤ feed.windowFailures n srcIp

end Feed

section invariants

variable (feed : Feed)

/-- An arrival is pushed into the ring. -/
theorem ring_stateAt_succ (n : ℕ) :
    (feed.stateAt (n + 1)).ring = (feed.stateAt n).ring.push (feed.arrival n) := by
  rw [Feed.stateAt, Machine.stateAt_succ]
  change (onLine _ _ _ (feed.stateAt n)).1.ring = _
  rw [onLine]
  cases (feed.stateAt n).engine <;> rfl

/-- The ring stores the last arrivals. -/
theorem holds_retained (n : ℕ) : Holds (feed.stateAt n).ring (feed.retained n) := by
  induction n with
  | zero =>
    have hC : 0 < ringCapacity := by
      unfold ringCapacity
      decide
    have hempty : feed.retained 0 = [] := by
      rw [Feed.retained, List.range_zero, List.map_nil, List.rtake_nil]
    rw [hempty]
    exact holds_init ({} : LogEvent) hC
  | succ n ih =>
    have hkeep : feed.retained (n + 1) =
        (feed.retained n ++ [feed.arrival n]).rtake ringCapacity := by
      rw [Feed.retained, Feed.retained, rtake_concat_rtake, List.range_succ, List.map_append,
        List.map_singleton]
    rw [ring_stateAt_succ, hkeep]
    exact holds_push ih (feed.arrival n)

/-- The snapshot at an arrival already holds the arriving event. -/
theorem snapshotAt_eq_retained (n : ℕ) : feed.snapshotAt n = feed.retained (n + 1) := by
  rw [Feed.snapshotAt, ← ring_stateAt_succ]
  exact snapshot_eq (holds_retained feed (n + 1))

/-- The engine keeps its configuration. -/
theorem exists_engine (n : ℕ) :
    ∃ engine, (feed.stateAt n).engine = some engine ∧ engine.cfg = feed.cfg := by
  induction n with
  | zero => exact ⟨.init feed.cfg, rfl, rfl⟩
  | succ n ih =>
    rcases ih with ⟨engine, he, hc⟩
    obtain ⟨-, hengine, -⟩ := onLine_some feed.nodeId (feed.readings n) _ he (feed.events n)
    exact ⟨_, hengine, by rw [process_cfg, hc]⟩

end invariants

section counting

variable {feed : Feed}

/-- The count at an arrival is one more than the failures in the window: the
arriving event is counted by the start value and found in the snapshot. -/
theorem sshCount_eq (hw : feed.cfg.sshWindowSeconds ≤ 86400) (n : ℕ) (srcIp : Bytes) :
    feed.sshCount n srcIp = feed.windowFailures n srcIp + 1 := by
  rw [Feed.sshCount, count_eq_naive _ hw, naiveCount, snapshotAt_eq_retained, Feed.windowFailures,
    Int.add_comm]
  congr 2
  refine List.countP_congr fun ev _ => ?_
  simp only [SshBruteForceRule.counts, SshBruteForceRule.cutoff, Bool.and_eq_true,
    Bool.not_eq_true', decide_eq_true_eq]
  constructor
  · rintro ⟨hip, ⟨hsource, htime⟩, hfail⟩
    exact ⟨hip, hsource, hfail, not_lt.mp (of_decide_eq_false htime)⟩
  · rintro ⟨hip, hsource, hfail, htime⟩
    exact ⟨hip, ⟨hsource, decide_eq_false (not_lt.mpr htime)⟩, hfail⟩

/-- What the SSH rule returns at an arrival: an alert with the count from the
threshold on. -/
theorem ssh_returned (feed : Feed) (n : ℕ) : ∃ id, (feed.verdictAt n .sshBruteForce).returned =
    (SshBruteForceRule.subject (feed.events n)).bind fun srcIp =>
      if feed.sshCount n srcIp < feed.cfg.sshThreshold then none
      else some (SshBruteForceRule.alert (feed.arrival n) feed.cfg srcIp (feed.sshCount n srcIp)
        id) := by
  rcases exists_engine feed n with ⟨engine, he, hc⟩
  rcases (process_turn engine (feed.stateAt n).counter (feed.arrival n) (feed.snapshotAt n)
    (feed.readings n) .sshBruteForce).1 with ⟨drawn, hev⟩
  refine ⟨(nextId drawn).1, ?_⟩
  have hsub : SshBruteForceRule.subject (feed.arrival n) =
      SshBruteForceRule.subject (feed.events n) := rfl
  rw [Rule.evaluate, SshBruteForceRule.evaluate_fst, hc, hsub] at hev
  simp only [Feed.verdictAt, he, Feed.sshCount]
  exact hev.symm

/-- On windows of at most a day the count at a failed login is one too high,
an alert is returned from one failure below the threshold on, and so a feed is
counted exactly only if it brings no failed login with an address. -/
theorem sshCount_off_by_one (feed : Feed) (hw : feed.cfg.sshWindowSeconds ≤ 86400) :
    (∀ n srcIp, SshBruteForceRule.subject (feed.events n) = some srcIp →
      feed.sshCount n srcIp = feed.windowFailures n srcIp + 1 ∧
      ((feed.verdictAt n .sshBruteForce).returned.isSome ↔
        feed.cfg.sshThreshold ≤ feed.windowFailures n srcIp + 1)) ∧
      (feed.CountsExactly ↔ ∀ n, SshBruteForceRule.subject (feed.events n) = none) := by
  constructor
  · intro n srcIp hs
    refine ⟨sshCount_eq hw n srcIp, ?_⟩
    rcases ssh_returned feed n with ⟨id, hret⟩
    rw [hret, hs, Option.bind_some, sshCount_eq hw]
    split
    · next hlt => simpa using hlt
    · next hge => simpa using not_lt.mp hge
  · constructor
    · intro h n
      cases hs : SshBruteForceRule.subject (feed.events n) with
      | none => rfl
      | some srcIp =>
        have hcount := (h n srcIp hs).1
        rw [sshCount_eq hw] at hcount
        omega
    · intro h n srcIp hs
      rw [h n] at hs
      cases hs

end counting

/-- A failed login from the address `1`, every thousand seconds. -/
def slowGuesses : Feed where
  nodeId := text "node"
  cfg := { sshThreshold := 2 }
  events := fun n =>
    { timestamp := seconds (1000 * n), logSource := text "sshd", message := text "Failed password",
      fields := assign ∅ (text "src_ip") (text "1") }
  readings := fun n _ => ⟨seconds (1000 * n), seconds (1000 * n)⟩

theorem slowGuesses_off_by_one :
    slowGuesses.sshCount 1 (text "1") = slowGuesses.windowFailures 1 (text "1") + 1 ∧
      ((slowGuesses.verdictAt 1 .sshBruteForce).returned.isSome ↔
        slowGuesses.cfg.sshThreshold ≤ slowGuesses.windowFailures 1 (text "1") + 1) :=
  (sshCount_off_by_one slowGuesses (by decide)).1 1 (text "1") (by decide)

/-- The first of them is the only failure in its window, yet it is counted
twice and raises an alert at a threshold of two. -/
theorem slowGuesses_not_exact :
    (∀ m n, m ≤ n → (slowGuesses.events m).timestamp ≤ (slowGuesses.events n).timestamp) ∧
      slowGuesses.windowFailures 0 (text "1") = 1 ∧ slowGuesses.sshCount 0 (text "1") = 2 ∧
      (slowGuesses.verdictAt 0 .sshBruteForce).returned.isSome ∧ ¬slowGuesses.CountsExactly := by
  have hsorted : ∀ m n, m ≤ n →
      (slowGuesses.events m).timestamp ≤ (slowGuesses.events n).timestamp := by
    intro m n hmn
    change seconds (1000 * m) ≤ seconds (1000 * n)
    unfold seconds
    omega
  have hwindow : slowGuesses.windowFailures 0 (text "1") = 1 := by decide +kernel
  have hcount : slowGuesses.sshCount 0 (text "1") = 2 := by
    rw [sshCount_eq (by decide), hwindow]
    rfl
  have hfires : (slowGuesses.verdictAt 0 .sshBruteForce).returned.isSome = true := by
    decide +kernel
  refine ⟨hsorted, hwindow, hcount, hfires, ?_⟩
  intro h
  have hexact := (h 0 (text "1") (by decide)).1
  rw [hcount, hwindow] at hexact
  exact absurd hexact (by decide)

end Dlads.AgentPipeline
