import Mathlib.Data.Int.ConditionallyCompleteOrder
import Dlads.AlertWire
import Dlads.Heartbeats

/-!
# Node liveness over whole runs

An entry of the registry says of its node what the calls so far say of it:
when it was first and last pinged and under which address, how many alerts
were recorded since, and whether a check since the last ping found the silence
too long. The last is a cached judgement; it is exact right after every check.
In the coordinator the threads' calls interleave. The alert receiver pings the
sender of an alert before it records the alert, so no alert goes uncounted.
-/

namespace Dlads.NodeLiveness

open ByteText StringMaps StepMachine Records JsonValue AlertWire Registry Heartbeats

/-- A run of calls on a new registry. -/
structure Run where
  /-- `dead_threshold_`. -/
  deadThreshold : ℤ
  /-- The calls in order, whichever thread makes them. -/
  calls : ℕ → Call
  /-- The clock reading of each call. -/
  clock : ℕ → ℤ

namespace Run

variable (run : Run)

/-- The registry before a call. -/
def registryAt (n : ℕ) : NodeRegistry :=
  registryMachine.stateAt (.init run.deadThreshold) (fun k => (run.calls k, run.clock k)) n

/-- The entry of a node before a call. -/
def entryAt (n : ℕ) (id : Bytes) : Option NodeInfo := (run.registryAt n).nodes.lookup id

/-- A call pings a node. -/
def Pings (id : Bytes) (m : ℕ) : Prop := (run.calls m).pinged = some id

instance (id : Bytes) : DecidablePred (run.Pings id) := fun m =>
  inferInstanceAs (Decidable ((run.calls m).pinged = some id))

/-- The last address pinged for a node that is not empty; empty if there is
none. -/
def LastAddress (n : ℕ) (id hostIp : Bytes) : Prop :=
  (∃ m < n, run.calls m = .ping id hostIp ∧ hostIp ≠ [] ∧
    ∀ k, m < k → k < n → ∀ later, run.calls k = .ping id later → later = []) ∨
  hostIp = [] ∧ ∀ k < n, ∀ other, run.calls k = .ping id other → other = []

/-- The calls that record an alert of a node after it was first pinged. -/
def recorded (n : ℕ) (id : Bytes) : Finset ℕ :=
  (Finset.range n).filter fun k => run.calls k = .recordAlert id ∧ ∃ j < k, run.Pings id j

end Run

/-- What an entry says of its node is what the calls so far say. -/
structure Exact (run : Run) (n : ℕ) (id : Bytes) (info : NodeInfo) : Prop where
  /-- It is filed under its node. -/
  nodeId : info.nodeId = id
  /-- It was last seen at its last ping. -/
  lastSeen : ∃ m < n, run.Pings id m ∧ info.lastSeenSec = run.clock m ∧
    ∀ k, m < k → k < n → ¬run.Pings id k
  /-- It was first seen at its first ping. -/
  firstSeen : ∃ m < n, run.Pings id m ∧ info.firstSeenSec = run.clock m ∧
    ∀ k < m, ¬run.Pings id k
  /-- Its address is the last one told. -/
  hostIp : run.LastAddress n id info.hostIp
  /-- Its alerts are those recorded since its first ping. -/
  alertsSent : info.alertsSent = (run.recorded n id).card
  /-- It is dead if a check since its last ping found it silent for too long. -/
  status : info.status = .dead ↔ ∃ k < n, run.calls k = .checkDeadNodes ∧
    (∀ j, k < j → j < n → ¬run.Pings id j) ∧ run.deadThreshold < run.clock k - info.lastSeenSec

section history

variable {run : Run} {n : ℕ} {id : Bytes}

theorem deadThreshold_registryAt (run : Run) (n : ℕ) :
    (run.registryAt n).deadThreshold = run.deadThreshold := by
  induction n with
  | zero => rfl
  | succ n ih => exact (deadThreshold_step _ _ _).trans ih

theorem entryAt_succ_of_ping {hostIp : Bytes} (h : run.calls n = .ping id hostIp) :
    run.entryAt (n + 1) id = some (pinged (run.entryAt n id) id hostIp (run.clock n)) :=
  lookup_step_of_ping (run.registryAt n) _ (run.clock n) id h

theorem entryAt_succ_of_no_ping (h : ¬run.Pings id n) :
    run.entryAt (n + 1) id = (run.entryAt n id).map fun info =>
      (run.calls n).touch run.deadThreshold (run.clock n) id info := by
  rw [← deadThreshold_registryAt run n]
  exact lookup_step_of_no_ping (run.registryAt n) _ (run.clock n) id h

/-- A call that pings a node does so with some address. -/
theorem exists_address (h : run.Pings id n) : ∃ hostIp, run.calls n = .ping id hostIp := by
  unfold Run.Pings at h
  cases hcall : run.calls n with
  | ping nodeId hostIp =>
    rw [hcall] at h
    cases h
    exact ⟨hostIp, rfl⟩
  | _ =>
    rw [hcall] at h
    cases h

theorem pings_of_call {hostIp : Bytes} (h : run.calls n = .ping id hostIp) : run.Pings id n := by
  unfold Run.Pings
  rw [h]
  rfl

/-- The known nodes are those ever pinged. -/
theorem isSome_entryAt (run : Run) (n : ℕ) (id : Bytes) :
    (run.entryAt n id).isSome ↔ ∃ m < n, run.Pings id m := by
  induction n with
  | zero =>
    have hnone : run.entryAt 0 id = none := rfl
    simp [hnone]
  | succ n ih =>
    by_cases hp : run.Pings id n
    · obtain ⟨hostIp, hcall⟩ := exists_address hp
      rw [entryAt_succ_of_ping hcall]
      exact ⟨fun _ => ⟨n, Nat.lt_succ_self n, hp⟩, fun _ => rfl⟩
    · rw [entryAt_succ_of_no_ping hp, Option.isSome_map, ih]
      constructor
      · rintro ⟨m, hm, h⟩
        exact ⟨m, Nat.lt_succ_of_lt hm, h⟩
      · rintro ⟨m, hm, h⟩
        rcases Nat.lt_succ_iff_lt_or_eq.mp hm with hlt | rfl
        · exact ⟨m, hlt, h⟩
        · exact absurd h hp

/-- One more call that records no alert of a node, or an alert of a node not
pinged so far, leaves the recorded calls alone; any other is one of them. -/
theorem recorded_succ (run : Run) (n : ℕ) (id : Bytes) : (run.recorded (n + 1) id).card =
    (run.recorded n id).card +
      if run.calls n = .recordAlert id ∧ ∃ j < n, run.Pings id j then 1 else 0 := by
  unfold Run.recorded
  rw [Finset.range_add_one, Finset.filter_insert]
  split
  · rw [Finset.card_insert_of_notMem (by simp)]
  · rfl

/-- A ping of a node leaves the last address if it tells none. -/
theorem lastAddress_ping {hostIp known : Bytes} (hcall : run.calls n = .ping id hostIp)
    (h : run.LastAddress n id known) :
    run.LastAddress (n + 1) id (if !hostIp.isEmpty then hostIp else known) := by
  cases hostIp with
  | cons c rest =>
    refine .inl ⟨n, Nat.lt_succ_self n, hcall, List.cons_ne_nil c rest, ?_⟩
    intro k hk hlt
    omega
  | nil =>
    rcases h with ⟨m, hm, hping, hne, hlater⟩ | ⟨hnil, hother⟩
    · refine .inl ⟨m, Nat.lt_succ_of_lt hm, hping, hne, ?_⟩
      intro k hk hlt later hl
      rcases Nat.lt_succ_iff_lt_or_eq.mp hlt with hkn | rfl
      · exact hlater k hk hkn later hl
      · rw [hcall] at hl
        exact (Call.ping.inj hl).2.symm
    · refine .inr ⟨hnil, ?_⟩
      intro k hlt other ho
      rcases Nat.lt_succ_iff_lt_or_eq.mp hlt with hkn | rfl
      · exact hother k hkn other ho
      · rw [hcall] at ho
        exact (Call.ping.inj ho).2.symm

/-- Any other call leaves it alone. -/
theorem lastAddress_no_ping {known : Bytes} (hp : ¬run.Pings id n)
    (h : run.LastAddress n id known) : run.LastAddress (n + 1) id known := by
  have hback : ∀ k < n + 1, ∀ other, run.calls k = .ping id other → k < n := by
    intro k hlt other ho
    rcases Nat.lt_succ_iff_lt_or_eq.mp hlt with hkn | rfl
    · exact hkn
    · exact absurd (pings_of_call ho) hp
  rcases h with ⟨m, hm, hping, hne, hlater⟩ | ⟨hnil, hother⟩
  · refine .inl ⟨m, Nat.lt_succ_of_lt hm, hping, hne, ?_⟩
    intro k hk hlt later hl
    exact hlater k hk (hback k hlt later hl) later hl
  · exact .inr ⟨hnil, fun k hlt other ho => hother k (hback k hlt other ho) other ho⟩

/-- Before its first ping a node has no address. -/
theorem lastAddress_unknown (h : ∀ m < n, ¬run.Pings id m) : run.LastAddress n id [] :=
  .inr ⟨rfl, fun k hk _ ho => absurd (pings_of_call ho) (h k hk)⟩

/-- A ping makes an entry exact, or keeps it so. -/
theorem exact_ping {hostIp : Bytes} (hcall : run.calls n = .ping id hostIp)
    (ih : ∀ info, run.entryAt n id = some info → Exact run n id info) :
    Exact run (n + 1) id (pinged (run.entryAt n id) id hostIp (run.clock n)) := by
  have hp := pings_of_call hcall
  have hrec : (run.recorded (n + 1) id).card = (run.recorded n id).card := by
    rw [recorded_succ, if_neg fun h => Call.noConfusion (hcall.symm.trans h.1), add_zero]
  have hlast : ∃ m < n + 1, run.Pings id m ∧ run.clock n = run.clock m ∧
      ∀ k, m < k → k < n + 1 → ¬run.Pings id k :=
    ⟨n, Nat.lt_succ_self n, hp, rfl, fun k hk hlt => by omega⟩
  -- the ping itself separates every earlier check from the new entry
  have hfresh : ¬∃ k < n + 1, run.calls k = .checkDeadNodes ∧
      (∀ j, k < j → j < n + 1 → ¬run.Pings id j) ∧
      run.deadThreshold < run.clock k - run.clock n := by
    rintro ⟨k, hk, hcheck, hno, -⟩
    rcases Nat.lt_succ_iff_lt_or_eq.mp hk with hlt | rfl
    · exact hno n hlt (Nat.lt_succ_self n) hp
    · exact Call.noConfusion (hcall.symm.trans hcheck)
  cases hknown : run.entryAt n id with
  | none =>
    have hnever : ∀ m < n, ¬run.Pings id m := by
      intro m hm h
      have hsome := (isSome_entryAt run n id).mpr ⟨m, hm, h⟩
      rw [hknown] at hsome
      cases hsome
    have hempty : run.recorded n id = ∅ := by
      refine Finset.filter_eq_empty_iff.mpr ?_
      rintro k hk ⟨-, j, hj, h⟩
      exact hnever j (lt_trans hj (Finset.mem_range.mp hk)) h
    refine ⟨rfl, hlast, ⟨n, Nat.lt_succ_self n, hp, rfl, hnever⟩, ?_, ?_, ?_⟩
    · have haddr := lastAddress_ping hcall (lastAddress_unknown hnever)
      cases hostIp with
      | nil => exact haddr
      | cons c rest => exact haddr
    · rw [hrec, hempty]
      rfl
    · exact ⟨fun h => NodeStatus.noConfusion h, fun h => absurd h hfresh⟩
  | some info =>
    have h := ih info hknown
    obtain ⟨m, hm, hfirst, htime, hbefore⟩ := h.firstSeen
    refine ⟨h.nodeId, hlast, ⟨m, Nat.lt_succ_of_lt hm, hfirst, htime, hbefore⟩, ?_, ?_, ?_⟩
    · exact lastAddress_ping hcall h.hostIp
    · rw [hrec]
      exact h.alertsSent
    · exact ⟨fun h => NodeStatus.noConfusion h, fun h => absurd h hfresh⟩

/-- Any other call keeps an entry exact. -/
theorem exact_no_ping {info : NodeInfo} (hp : ¬run.Pings id n) (h : Exact run n id info) :
    Exact run (n + 1) id
      ((run.calls n).touch run.deadThreshold (run.clock n) id info) := by
  obtain ⟨hnode, haddr, hlast, hfirst⟩ :=
    touch_frame (run.calls n) (run.clock n) id run.deadThreshold info
  obtain ⟨m, hm, hping, htime, hlater⟩ := h.lastSeen
  obtain ⟨m', hm', hping', htime', hbefore⟩ := h.firstSeen
  have hno : ∀ k, m < k → k < n + 1 → ¬run.Pings id k := by
    intro k hk hlt
    rcases Nat.lt_succ_iff_lt_or_eq.mp hlt with hkn | rfl
    · exact hlater k hk hkn
    · exact hp
  constructor
  · rw [hnode, h.nodeId]
  · exact ⟨m, Nat.lt_succ_of_lt hm, hping, hlast.trans htime, hno⟩
  · exact ⟨m', Nat.lt_succ_of_lt hm', hping', hfirst.trans htime', hbefore⟩
  · rw [haddr]
    exact lastAddress_no_ping hp h.hostIp
  · rw [touch_alertsSent, h.alertsSent, recorded_succ]
    by_cases hrec : run.calls n = .recordAlert id
    · rw [if_pos hrec, if_pos ⟨hrec, m, hm, hping⟩]
      push_cast
      rfl
    · rw [if_neg hrec, if_neg fun hc => hrec hc.1]
      simp
  · rw [touch_status, h.status, hlast]
    constructor
    · rintro (⟨k, hk, hcheck, hsince, hlong⟩ | ⟨hcheck, hlong⟩)
      · refine ⟨k, Nat.lt_succ_of_lt hk, hcheck, ?_, hlong⟩
        intro j hj hlt
        rcases Nat.lt_succ_iff_lt_or_eq.mp hlt with hjn | rfl
        · exact hsince j hj hjn
        · exact hp
      · exact ⟨n, Nat.lt_succ_self n, hcheck, fun j hj hlt => by omega, hlong⟩
    · rintro ⟨k, hk, hcheck, hsince, hlong⟩
      rcases Nat.lt_succ_iff_lt_or_eq.mp hk with hlt | rfl
      · exact .inl ⟨k, hlt, hcheck, fun j hj hjn => hsince j hj (Nat.lt_succ_of_lt hjn), hlong⟩
      · exact .inr ⟨hcheck, hlong⟩

/-- Every entry is exact at every time. -/
theorem exact_entryAt (run : Run) (n : ℕ) (id : Bytes) {info : NodeInfo}
    (h : run.entryAt n id = some info) : Exact run n id info := by
  induction n generalizing info with
  | zero => cases h
  | succ n ih =>
    by_cases hp : run.Pings id n
    · obtain ⟨hostIp, hcall⟩ := exists_address hp
      rw [entryAt_succ_of_ping hcall] at h
      cases h
      exact exact_ping hcall fun info hinfo => ih hinfo
    · rw [entryAt_succ_of_no_ping hp] at h
      obtain ⟨known, hknown, rfl⟩ := Option.map_eq_some_iff.mp h
      exact exact_no_ping hp (ih hknown)

end history

section clocks

variable {run : Run} {n : ℕ} {id : Bytes} {info : NodeInfo}

/-- A node was first seen before it was last seen, and both by now. -/
theorem Exact.seen (hclock : Monotone run.clock) (h : Exact run n id info) :
    info.firstSeenSec ≤ info.lastSeenSec ∧ info.lastSeenSec ≤ run.clock (n - 1) := by
  obtain ⟨m, hm, hping, htime, -⟩ := h.lastSeen
  obtain ⟨m', -, -, htime', hbefore⟩ := h.firstSeen
  rw [htime, htime']
  have hle : m' ≤ m := not_lt.mp fun hlt => hbefore m hlt hping
  exact ⟨hclock hle, hclock (by omega)⟩

/-- Right after a check the dead nodes are those silent for too long. -/
theorem Exact.dead_iff (hclock : Monotone run.clock) (hcheck : run.calls n = .checkDeadNodes)
    (h : Exact run (n + 1) id info) :
    info.status = .dead ↔ run.deadThreshold < run.clock n - info.lastSeenSec := by
  rw [h.status]
  constructor
  · rintro ⟨k, hk, -, -, hlong⟩
    have hle := hclock (Nat.lt_succ_iff.mp hk)
    omega
  · intro hlong
    exact ⟨n, Nat.lt_succ_self n, hcheck, fun j hj hlt => by omega, hlong⟩

end clocks

section threads

/-- What the threads of the coordinator share, and how far the alert receiver
has come. -/
structure ThreadState where
  /-- The registry. -/
  registry : NodeRegistry
  /-- Number of messages the alert receiver has taken. -/
  received : ℕ
  /-- The sender the alert receiver has pinged and not yet recorded. -/
  unrecorded : Option Bytes

/-- Which thread makes its next call of the registry. -/
inductive Turn
  /-- `zmq_alert_receiver`, on its next message. -/
  | alertReceiver
  /-- `zmq_heartbeat_receiver`, on a message. -/
  | heartbeatReceiver (raw : Bytes)
  /-- `watchdog`, checking. -/
  | watchdog
  /-- Any thread that asks for the nodes. -/
  | askNodes
  /-- Any thread that asks for the number of nodes alive. -/
  | askCount

variable (parse : Bytes → Option Json) (messages : ℕ → Bytes)

/-- The sender of a message, if the message is a valid alert. -/
def sender (k : ℕ) : Option Bytes :=
  (deserialize parse (messages k)).map AlertEvent.sourceHost

/-- The call of a turn, if any: the alert receiver pings the sender of its next
message, then records the alert. -/
def ThreadState.call (s : ThreadState) : Turn → Option Call
  | .alertReceiver =>
    match s.unrecorded with
    | some host => some (.recordAlert host)
    | none => (sender parse messages s.received).map fun host => .ping host []
  | .heartbeatReceiver raw => heartbeatCall raw
  | .watchdog => some .checkDeadNodes
  | .askNodes => some .allNodes
  | .askCount => some .aliveCount

/-- A registry after a call, if there is one. -/
def callRegistry (registry : NodeRegistry) (call : Option Call) (now : ℤ) : NodeRegistry :=
  match call with
  | some call => (registryMachine.step registry (call, now)).1
  | none => registry

/-- The alert receiver takes a message unless it still has to record an alert. -/
def ThreadState.advance (s : ThreadState) : ThreadState :=
  match s.unrecorded with
  | some _ => { s with unrecorded := none }
  | none =>
    { s with
      received := s.received + 1
      unrecorded := sender parse messages s.received }

/-- The threads, one call at a time, each at a clock reading. -/
def threads : Machine ThreadState (Turn × ℤ) Unit where
  step := fun s input =>
    let registry := callRegistry s.registry (s.call parse messages input.1) input.2
    match input.1 with
    | .alertReceiver => ({ s.advance parse messages with registry := registry }, ())
    | _ => ({ s with registry := registry }, ())

/-- The threads before any call. -/
def ThreadState.init (deadThreshold : ℤ) : ThreadState := ⟨.init deadThreshold, 0, none⟩

/-- The alerts recorded for a node, none when it is unknown. -/
def alertsOf (registry : NodeRegistry) (id : Bytes) : ℤ :=
  ((registry.nodes.lookup id).map NodeInfo.alertsSent).getD 0

/-- The valid alerts of a node among the messages taken. -/
def alertsFrom (received : ℕ) (id : Bytes) : Finset ℕ :=
  (Finset.range received).filter fun k => sender parse messages k = some id

/-- The alerts recorded for each node, and one not yet recorded, are the alerts
received from it, and what is to be recorded is known. -/
structure Counted (s : ThreadState) : Prop where
  /-- Every alert is counted. -/
  alerts : ∀ id, alertsOf s.registry id + (if s.unrecorded = some id then 1 else 0) =
    (alertsFrom parse messages s.received id).card
  /-- A sender is pinged first. -/
  known : ∀ id, s.unrecorded = some id → (s.registry.nodes.lookup id).isSome

/-- A call changes the number of alerts of a known node that it records. -/
theorem alertsOf_step (registry : NodeRegistry) (call : Call) (now : ℤ) (id : Bytes) :
    alertsOf (registryMachine.step registry (call, now)).1 id = alertsOf registry id +
      if call = .recordAlert id ∧ (registry.nodes.lookup id).isSome then 1 else 0 := by
  unfold alertsOf
  by_cases hp : call.pinged = some id
  · cases call with
    | ping nodeId hostIp =>
      have hid : nodeId = id := Option.some.inj hp
      subst hid
      rw [lookup_step_of_ping registry _ now nodeId rfl]
      cases registry.nodes.lookup nodeId <;> simp [pinged]
    | _ => cases hp
  · rw [lookup_step_of_no_ping registry call now id hp]
    cases hknown : registry.nodes.lookup id with
    | none => simp
    | some info => simp [touch_alertsSent]

/-- A known node stays known, and a pinged one gets known. -/
theorem isSome_step (registry : NodeRegistry) (call : Call) (now : ℤ) (id : Bytes) :
    ((registryMachine.step registry (call, now)).1.nodes.lookup id).isSome ↔
      call.pinged = some id ∨ (registry.nodes.lookup id).isSome := by
  by_cases hp : call.pinged = some id
  · cases call with
    | ping nodeId hostIp =>
      have hid : nodeId = id := Option.some.inj hp
      subst hid
      rw [lookup_step_of_ping registry _ now nodeId rfl]
      simp [hp]
    | _ => cases hp
  · rw [lookup_step_of_no_ping registry call now id hp, Option.isSome_map]
    simp [hp]

theorem alertsFrom_succ (received : ℕ) (id : Bytes) :
    (alertsFrom parse messages (received + 1) id).card =
      (alertsFrom parse messages received id).card +
        if sender parse messages received = some id then 1 else 0 := by
  unfold alertsFrom
  rw [Finset.range_add_one, Finset.filter_insert]
  split
  · rw [Finset.card_insert_of_notMem (by simp)]
  · rfl

variable {parse messages}

/-- A call that records no alert changes no count, and forgets no node. -/
theorem frame_callRegistry (registry : NodeRegistry) {call : Option Call} (now : ℤ)
    (h : ∀ id, call ≠ some (.recordAlert id)) (id : Bytes) :
    alertsOf (callRegistry registry call now) id = alertsOf registry id ∧
      ((registry.nodes.lookup id).isSome →
        ((callRegistry registry call now).nodes.lookup id).isSome) := by
  cases call with
  | none => exact ⟨rfl, fun hs => hs⟩
  | some call =>
    have hno : ¬(call = .recordAlert id ∧ (registry.nodes.lookup id).isSome) := fun hc =>
      h id (congrArg some hc.1)
    refine ⟨?_, fun hs => (isSome_step registry call now id).mpr (.inr hs)⟩
    rw [callRegistry, alertsOf_step, if_neg hno, add_zero]

/-- Where a turn leaves the alert receiver alone, counts stay right. -/
theorem Counted.frame {s : ThreadState} (h : Counted parse messages s) {call : Option Call}
    (now : ℤ) (hcall : ∀ id, call ≠ some (.recordAlert id)) :
    Counted parse messages { s with registry := callRegistry s.registry call now } := by
  have hframe := frame_callRegistry s.registry now hcall
  refine ⟨fun id => ?_, fun id hid => (hframe id).2 (h.known id hid)⟩
  rw [(hframe id).1]
  exact h.alerts id

/-- A heartbeat records no alert. -/
theorem heartbeatCall_ne (raw id : Bytes) : heartbeatCall raw ≠ some (.recordAlert id) := by
  unfold heartbeatCall
  dsimp only
  split
  · exact fun h => Call.noConfusion (Option.some.inj h)
  · exact fun h => Option.noConfusion rfl (heq_of_eq h)

/-- The turn of the alert receiver that records an alert. -/
theorem Counted.record {s : ThreadState} (h : Counted parse messages s) {host : Bytes}
    (hhost : s.unrecorded = some host) (now : ℤ) :
    Counted parse messages { s with
      registry := callRegistry s.registry (some (.recordAlert host)) now
      unrecorded := none } := by
  have hknown := h.known host hhost
  constructor
  · intro id
    rw [← h.alerts id, hhost, callRegistry, alertsOf_step]
    by_cases hid : host = id
    · subst hid
      simp [hknown]
    · simp [hid]
  · intro id hid
    cases hid

/-- The turn of the alert receiver that takes a message. -/
theorem Counted.receive {s : ThreadState} (h : Counted parse messages s)
    (hnone : s.unrecorded = none) (now : ℤ) :
    Counted parse messages
      ⟨callRegistry s.registry ((sender parse messages s.received).map fun host => .ping host [])
        now, s.received + 1, sender parse messages s.received⟩ := by
  have hcall : ∀ id, ((sender parse messages s.received).map fun host => Call.ping host []) ≠
      some (.recordAlert id) := by
    intro id hc
    obtain ⟨host, -, hping⟩ := Option.map_eq_some_iff.mp hc
    cases hping
  have hframe := frame_callRegistry s.registry now hcall
  constructor
  · intro id
    have halerts := h.alerts id
    rw [hnone] at halerts
    have hzero : (if (none : Option Bytes) = some id then 1 else 0 : ℤ) = 0 := by simp
    rw [hzero, add_zero] at halerts
    dsimp only
    rw [(hframe id).1, halerts, alertsFrom_succ]
    push_cast
    rfl
  · intro id hid
    dsimp only at hid ⊢
    rw [hid, Option.map_some]
    exact (isSome_step s.registry (.ping id []) now id).mpr (.inl rfl)

/-- Counts are right in every state of the threads. -/
theorem counted_step (s : ThreadState) (input : Turn × ℤ) (h : Counted parse messages s) :
    Counted parse messages ((threads parse messages).step s input).1 := by
  obtain ⟨turn, now⟩ := input
  cases turn with
  | alertReceiver =>
    cases hu : s.unrecorded with
    | some host =>
      simp only [threads, ThreadState.advance, ThreadState.call, hu]
      exact h.record hu now
    | none =>
      simp only [threads, ThreadState.advance, ThreadState.call, hu]
      exact h.receive hu now
  | heartbeatReceiver raw => exact h.frame now (heartbeatCall_ne raw)
  | watchdog => exact h.frame now fun id hc => by cases hc
  | askNodes => exact h.frame now fun id hc => by cases hc
  | askCount => exact h.frame now fun id hc => by cases hc

end threads

section results

/-- The registry's bookkeeping is exact in every run of calls, and in every run
of the coordinator's threads every alert received from a node is counted. -/
theorem bookkeeping_exact (run : Run) (hclock : Monotone run.clock) :
    (∀ n id, (run.entryAt n id).isSome ↔ ∃ m < n, run.Pings id m) ∧
    (∀ n id info, run.entryAt n id = some info → Exact run n id info ∧
      info.firstSeenSec ≤ info.lastSeenSec ∧ info.lastSeenSec ≤ run.clock (n - 1)) ∧
    (∀ n, run.calls n = .checkDeadNodes → ∀ id info, run.entryAt (n + 1) id = some info →
      (info.status = .dead ↔ run.deadThreshold < run.clock n - info.lastSeenSec)) ∧
    (∀ n, (run.registryAt n).aliveCount =
      (((run.registryAt n).nodes.keys.filter fun id =>
        (run.entryAt n id).any fun info => info.status = .alive).card : ℤ)) ∧
    ∀ (parse : Bytes → Option Json) (messages : ℕ → Bytes) (turns : ℕ → Turn × ℤ) (n : ℕ) (id),
      let s := (threads parse messages).stateAt (.init run.deadThreshold) turns n
      alertsOf s.registry id + (if s.unrecorded = some id then 1 else 0) =
        (alertsFrom parse messages s.received id).card := by
  refine ⟨isSome_entryAt run, ?_, ?_, fun n => aliveCount_eq (run.registryAt n), ?_⟩
  · intro n id info h
    have hexact := exact_entryAt run n id h
    exact ⟨hexact, hexact.seen hclock⟩
  · intro n hcheck id info h
    exact (exact_entryAt run (n + 1) id h).dead_iff hclock hcheck
  · intro parse messages turns n id
    have h0 : Counted parse messages (.init run.deadThreshold) :=
      ⟨fun id => by simp [alertsOf, ThreadState.init, NodeRegistry.init, alertsFrom],
        fun id hid => by cases hid⟩
    exact ((threads parse messages).invariant_of_step (I := Counted parse messages) h0
      (fun s input hs => counted_step s input hs) n).alerts id

end results

/-- A node pings, falls silent and is checked. -/
def silentRun : Run where
  deadThreshold := 30
  calls := fun n => if n = 0 then .ping (text "node-1") (text "10.0.0.1")
    else if n = 1 then .recordAlert (text "node-1") else .checkDeadNodes
  clock := fun n => 20 * n

/-- The check after 40 s declares it dead. -/
theorem silentRun_dead :
    (silentRun.entryAt 3 (text "node-1")).map NodeInfo.status = some .dead := by
  have hclock : Monotone silentRun.clock := by
    intro m n hmn
    change (20 * m : ℤ) ≤ 20 * n
    omega
  obtain ⟨hknown, hentries, hdead, -⟩ := bookkeeping_exact silentRun hclock
  obtain ⟨info, h⟩ := Option.isSome_iff_exists.mp ((hknown 3 _).mpr ⟨0, by decide, rfl⟩)
  obtain ⟨m, hm, hping, htime, -⟩ := (hentries 3 _ info h).1.lastSeen
  have hfirst : m = 0 := by
    rcases m with _ | _ | _ | m
    · rfl
    · cases hping
    · cases hping
    · omega
  have hseen : info.lastSeenSec = 0 := by
    rw [htime, hfirst]
    rfl
  have hlong : silentRun.deadThreshold < silentRun.clock 2 - info.lastSeenSec := by
    rw [hseen]
    decide
  rw [h, Option.map_some, (hdead 2 rfl _ info h).mpr hlong]

end Dlads.NodeLiveness
