import Dlads.NodeLiveness
import Dlads.OperatorView

/-!
# Failure detection

What the coordinator's registry says of the nodes in a run of the whole system.
From one start of the coordinator's process to the next the registry is one
registry under calls. So an entry tells when its node was first and last heard
of since the start, by an alert or by a heartbeat of one of its processes, and
it is dead if a check since then found the silence too long. A node whose
processes have ended is dead for good from the first such check on.
-/

namespace Dlads.FailureDetection

open ByteText Utf8Text StringMaps FloatFormat Records AlertDatabase Registry Heartbeats JsonValue
open JsonPrinting AlertWire WireRoundTrip LossyChannel PrintedAlerts AgentProcesses DistributedRuns
open ThreatProvenance OperatorView
open NodeLiveness (Exact exact_entryAt isSome_entryAt)

section starts

variable {ι : Type*} (run : Run ι)

/-- The last start of the coordinator's process. -/
def startedAt : ℕ → ℕ
  | 0 => 0
  | n + 1 =>
    match run.actions n with
    | .restart => n + 1
    | _ => startedAt n

theorem startedAt_of_restart {n : ℕ} (h : run.actions n = .restart) :
    startedAt run (n + 1) = n + 1 := by
  rw [startedAt, h]

theorem startedAt_of_ne {n : ℕ} (h : run.actions n ≠ .restart) :
    startedAt run (n + 1) = startedAt run n := by
  rw [startedAt]
  split
  · next hr => exact absurd hr h
  · rfl

end starts

section calls

variable {ι : Type*} [DecidableEq ι] (run : Run ι)

/-- The calls of the registry in a step. -/
structure Calls where
  /-- The first. -/
  first : Call
  /-- The second. -/
  second : Call
  /-- The clock reading. -/
  now : ℤ

/-- The calls of the registry in a step; where there are less than two,
`all_nodes` stands for nothing. -/
def callsAt (n : ℕ) : Calls :=
  match run.actions n with
  | .deliver _ nowSec _ =>
    match (run.eventAt n).arrival? with
    | some alert => ⟨.ping alert.sourceHost [], .recordAlert alert.sourceHost, nowSec⟩
    | none => ⟨.allNodes, .allNodes, nowSec⟩
  | .deliverBeat i nowSec =>
    match (((run.stateAt n).beats i).inFlight.head?).bind heartbeatCall with
    | some call => ⟨call, .allNodes, nowSec⟩
    | none => ⟨.allNodes, .allNodes, nowSec⟩
  | .check nowSec => ⟨.checkDeadNodes, .allNodes, nowSec⟩
  | _ => ⟨.allNodes, .allNodes, 0⟩

/-- The calls of a step, made one after the other. -/
def Calls.make (calls : Calls) (registry : NodeRegistry) : NodeRegistry :=
  (registryMachine.step (registryMachine.step registry (calls.first, calls.now)).1
    (calls.second, calls.now)).1

/-- A step makes its calls. -/
theorem registryAt_succ {n : ℕ} (h : run.actions n ≠ .restart) :
    run.registryAt (n + 1) = (callsAt run n).make (run.registryAt n) := by
  have hstate : run.stateAt (n + 1) = ((run.stateAt n).step run.toDeployed (run.actions n)).1 := rfl
  have hevent : run.eventAt n = ((run.stateAt n).step run.toDeployed (run.actions n)).2 := rfl
  rw [Run.registryAt, hstate, callsAt, hevent]
  cases haction : run.actions n with
  | deliver i nowSec now =>
    dsimp only [Network.step, Network.deliver]
    cases hflight : ((run.stateAt n).wires i).inFlight with
    | nil => rfl
    | cons raw rest =>
      dsimp only
      cases hraw : AlertWire.deserialize run.lib.parse raw with
      | none => rfl
      | some alert => rfl
  | beat i timestamp =>
    dsimp only [Network.step, Network.beat]
    split
    · rfl
    · split <;> rfl
  | deliverBeat i nowSec =>
    dsimp only [Network.step, Network.deliverBeat]
    cases hflight : ((run.stateAt n).beats i).inFlight with
    | nil => rfl
    | cons raw rest =>
      dsimp only [List.head?_cons, Option.bind_some]
      cases hcall : heartbeatCall raw with
      | none => rfl
      | some call => rfl
  | restart => exact absurd haction h
  | agent | lose | loseBeat | check => rfl

/-- The calls of the registry from a start on. -/
def span (start : ℕ) : NodeLiveness.Run where
  deadThreshold := 30
  calls := fun j =>
    if j % 2 = 0 then (callsAt run (start + j / 2)).first
    else (callsAt run (start + j / 2)).second
  clock := fun j => (callsAt run (start + j / 2)).now

/-- Two calls of the span are those of one step. -/
theorem span_succ (start k : ℕ) : (span run start).registryAt (2 * (k + 1)) =
    (callsAt run (start + k)).make ((span run start).registryAt (2 * k)) := by
  have heven : (2 * k) % 2 = 0 ∧ (2 * k) / 2 = k := by omega
  have hodd : ¬(2 * k + 1) % 2 = 0 ∧ (2 * k + 1) / 2 = k := by omega
  have hfirst : ((span run start).calls (2 * k), (span run start).clock (2 * k)) =
      ((callsAt run (start + k)).first, (callsAt run (start + k)).now) := by
    simp only [span, heven.1, heven.2, if_true]
  have hsecond : ((span run start).calls (2 * k + 1), (span run start).clock (2 * k + 1)) =
      ((callsAt run (start + k)).second, (callsAt run (start + k)).now) := by
    simp only [span, hodd.1, hodd.2, if_false]
  have hstep : ∀ j, (span run start).registryAt (j + 1) = (registryMachine.step
      ((span run start).registryAt j) ((span run start).calls j, (span run start).clock j)).1 :=
    fun _ => rfl
  have htwo : 2 * (k + 1) = 2 * k + 1 + 1 := by omega
  rw [htwo, hstep, hstep, hfirst, hsecond]
  rfl

/-- The registry is that of the calls since the coordinator's last start. -/
theorem registryAt_span (n : ℕ) : startedAt run n ≤ n ∧
    run.registryAt n = (span run (startedAt run n)).registryAt (2 * (n - startedAt run n)) := by
  induction n with
  | zero => exact ⟨Nat.le_refl 0, rfl⟩
  | succ n ih =>
    by_cases hrestart : run.actions n = .restart
    · rw [startedAt_of_restart run hrestart, Nat.sub_self]
      refine ⟨Nat.le_refl _, ?_⟩
      have hstate : run.stateAt (n + 1) =
          ((run.stateAt n).step run.toDeployed (run.actions n)).1 := rfl
      rw [Run.registryAt, hstate, hrestart]
      rfl
    · rw [startedAt_of_ne run hrestart]
      have hle := ih.1
      have hsub : n + 1 - startedAt run n = n - startedAt run n + 1 := by omega
      have hplace : startedAt run n + (n - startedAt run n) = n := by omega
      refine ⟨Nat.le_succ_of_le hle, ?_⟩
      rw [registryAt_succ run hrestart, hsub, span_succ, hplace, ih.2]

end calls

section contacts

variable {ι : Type*} [DecidableEq ι] (run : Run ι)

/-- In a step the coordinator hears of a node, by an alert or by a heartbeat of
one of its processes, at a clock reading. -/
def Heard (n : ℕ) (id : Bytes) (t : ℤ) : Prop := ∃ i,
  (∃ alert now threat, run.actions n = .deliver i t now ∧
    run.eventAt n = .received i alert now threat ∧ id = (run.site i).nodeId) ∨
  ∃ raw rest, run.actions n = .deliverBeat i t ∧
    ((run.stateAt n).beats i).inFlight = raw :: rest ∧ id = beatName (run.site i).nodeId ∧ id ≠ []

variable {run} {real : ℚ → Bytes}

/-- The calls of a step, by what the coordinator gets in it. -/
structure Meant (run : Run ι) (n : ℕ) (calls : Calls) : Prop where
  /-- A ping without an address is for the node it hears of. -/
  ping : ∀ id hostIp, calls.first = .ping id hostIp ↔ hostIp = [] ∧ Heard run n id calls.now
  /-- It hears at the clock reading of the call. -/
  time : ∀ id t, Heard run n id t → t = calls.now
  /-- A check is one of the watchdog. -/
  check : ∀ t, run.actions n = .check t ↔ calls.first = .checkDeadNodes ∧ t = calls.now
  /-- The second call only counts an alert. -/
  second : calls.second.pinged = none ∧ calls.second ≠ .checkDeadNodes

/-- A step that brings neither an alert nor a heartbeat nor a check. -/
theorem meant_nothing {n : ℕ} (now : ℤ) (hno : ∀ id t, ¬Heard run n id t)
    (hcheck : ∀ t, run.actions n ≠ .check t) : Meant run n ⟨.allNodes, .allNodes, now⟩ where
  ping := fun id _ => ⟨fun h => Call.noConfusion h, fun h => absurd h.2 (hno id _)⟩
  time := fun id t h => absurd h (hno id t)
  check := fun t => ⟨fun h => absurd h (hcheck t), fun h => Call.noConfusion h.1⟩
  second := ⟨rfl, Call.noConfusion⟩

/-- A step in which the coordinator hears of one node. -/
theorem meant_ping {n : ℕ} {id : Bytes} {now : ℤ} {second : Call}
    (h : ∀ id' t, Heard run n id' t ↔ id' = id ∧ t = now)
    (hcheck : ∀ t, run.actions n ≠ .check t)
    (hsecond : second.pinged = none ∧ second ≠ .checkDeadNodes) :
    Meant run n ⟨.ping id [], second, now⟩ where
  ping := fun id' hostIp => by
    rw [h]
    constructor
    · intro heq
      cases heq
      exact ⟨rfl, rfl, rfl⟩
    · rintro ⟨rfl, rfl, -⟩
      rfl
  time := fun id' t ht => ((h id' t).mp ht).2
  check := fun t => ⟨fun heq => absurd heq (hcheck t), fun heq => Call.noConfusion heq.1⟩
  second := hsecond

/-- It hears of the sender when it accepts a delivered alert. -/
theorem heard_deliver {n : ℕ} {i : ι} {nowSec now : ℤ}
    (haction : run.actions n = .deliver i nowSec now) (id : Bytes) (t : ℤ) :
    Heard run n id t ↔ t = nowSec ∧ id = (run.site i).nodeId ∧
      ∃ alert threat, run.eventAt n = .received i alert now threat := by
  constructor
  · rintro ⟨j, ⟨alert, now', threat, hact, hreceived, hid⟩ | ⟨raw, rest, hbeat, -⟩⟩
    · rw [haction] at hact
      cases hact
      exact ⟨rfl, hid, alert, threat, hreceived⟩
    · rw [haction] at hbeat
      cases hbeat
  · rintro ⟨rfl, hid, alert, threat, hreceived⟩
    exact ⟨i, .inl ⟨alert, now, threat, haction, hreceived, hid⟩⟩

/-- It hears of the sender of a heartbeat that is on its way and has a name. -/
theorem heard_deliverBeat {n : ℕ} {i : ι} {nowSec : ℤ}
    (haction : run.actions n = .deliverBeat i nowSec) (id : Bytes) (t : ℤ) :
    Heard run n id t ↔ t = nowSec ∧ (id = beatName (run.site i).nodeId ∧ id ≠ []) ∧
      ∃ raw rest, ((run.stateAt n).beats i).inFlight = raw :: rest := by
  constructor
  · rintro ⟨j, ⟨alert, now', threat, hact, -⟩ | ⟨raw, rest, hbeat, hflight, hid⟩⟩
    · rw [haction] at hact
      cases hact
    · rw [haction] at hbeat
      cases hbeat
      exact ⟨rfl, hid, raw, rest, hflight⟩
  · rintro ⟨rfl, hid, raw, rest, hflight⟩
    exact ⟨i, .inr ⟨raw, rest, haction, hflight, hid⟩⟩

/-- A delivered message: the calls are those of an accepted alert, if it is one. -/
theorem meant_deliver (hlib : Sane run.lib) (hclock : run.Clocked) {n : ℕ} {i : ι}
    {nowSec now : ℤ} (haction : run.actions n = .deliver i nowSec now) :
    Meant run n (callsAt run n) := by
  have hcheck : ∀ t, run.actions n ≠ .check t := by simp [haction]
  simp only [callsAt, haction]
  cases hevent : (run.eventAt n).arrival? with
  | none =>
    refine meant_nothing nowSec (fun id t ht => ?_) hcheck
    obtain ⟨-, -, alert, threat, hreceived⟩ := (heard_deliver haction id t).mp ht
    rw [hreceived] at hevent
    cases hevent
  | some alert =>
    obtain ⟨j, now', threat, hreceived⟩ := Event.received_of_arrival hevent
    obtain ⟨nowSec', hdeliver⟩ := deliver_of_received hreceived
    rw [haction] at hdeliver
    cases hdeliver
    obtain ⟨_, _, made, hmade, rfl⟩ := raised_of_received hlib hclock hreceived
    have hhost : made.sourceHost = (run.site i).nodeId := sourceHost_raised hmade
    dsimp only [asReceived]
    rw [hhost]
    refine meant_ping (fun id t => ?_) hcheck ⟨rfl, Call.noConfusion⟩
    rw [heard_deliver haction]
    constructor
    · rintro ⟨ht, hid, -⟩
      exact ⟨hid, ht⟩
    · rintro ⟨hid, ht⟩
      exact ⟨ht, hid, _, _, hreceived⟩

/-- A delivered heartbeat: the call is its ping, if it has a name. -/
theorem meant_deliverBeat (hdump : Standard real run.lib.dump) {n : ℕ} {i : ι} {nowSec : ℤ}
    (haction : run.actions n = .deliverBeat i nowSec) : Meant run n (callsAt run n) := by
  have hcheck : ∀ t, run.actions n ≠ .check t := by simp [haction]
  simp only [callsAt, haction]
  cases hflight : ((run.stateAt n).beats i).inFlight with
  | nil =>
    refine meant_nothing nowSec (fun id t ht => ?_) hcheck
    obtain ⟨-, -, raw, rest, hcons⟩ := (heard_deliverBeat haction id t).mp ht
    rw [hflight] at hcons
    cases hcons
  | cons raw rest =>
    have hmem : raw ∈ ((run.stateAt n).beats i).inFlight := by
      rw [hflight]
      exact List.mem_cons_self
    obtain ⟨p, timestamp, hprinted⟩ := beats_printed n hmem
    rw [List.head?_cons, Option.bind_some, (heartbeatCall_printed hdump hprinted).2]
    by_cases hempty : beatName (run.site i).nodeId = []
    · rw [if_pos hempty]
      refine meant_nothing nowSec (fun id t ht => ?_) hcheck
      obtain ⟨-, ⟨hid, hne⟩, -⟩ := (heard_deliverBeat haction id t).mp ht
      exact hne (hid.trans hempty)
    · rw [if_neg hempty]
      refine meant_ping (fun id t => ?_) hcheck ⟨rfl, Call.noConfusion⟩
      rw [heard_deliverBeat haction]
      constructor
      · rintro ⟨ht, ⟨hid, -⟩, -⟩
        exact ⟨hid, ht⟩
      · rintro ⟨rfl, ht⟩
        exact ⟨ht, ⟨rfl, hempty⟩, raw, rest, hflight⟩

/-- The calls of a step are what they should be. -/
theorem meant_callsAt (hlib : Sane run.lib) (hdump : Standard real run.lib.dump)
    (hclock : run.Clocked) (n : ℕ) : Meant run n (callsAt run n) := by
  cases haction : run.actions n with
  | deliver i nowSec now => exact meant_deliver hlib hclock haction
  | deliverBeat i nowSec => exact meant_deliverBeat hdump haction
  | check nowSec =>
    have hno : ∀ id t, ¬Heard run n id t := by
      rintro id t ⟨i, ⟨_, _, _, hact, -⟩ | ⟨_, _, hact, -⟩⟩ <;> rw [haction] at hact <;> cases hact
    simp only [callsAt, haction]
    refine ⟨fun id _ => ⟨fun h => Call.noConfusion h, fun h => absurd h.2 (hno id _)⟩,
      fun id t h => absurd h (hno id t), fun t => ?_, rfl, Call.noConfusion⟩
    rw [haction]
    constructor
    · intro h
      cases h
      exact ⟨rfl, rfl⟩
    · rintro ⟨-, rfl⟩
      rfl
  | _ =>
    simp only [callsAt, haction]
    refine meant_nothing 0 ?_ (by simp [haction])
    rintro id t ⟨i, ⟨_, _, _, hact, -⟩ | ⟨_, _, hact, -⟩⟩ <;> rw [haction] at hact <;> cases hact

end contacts

section entries

variable {ι : Type*} [DecidableEq ι] (run : Run ι)

/-- What an entry tells of its node. -/
structure Told (n : ℕ) (id : Bytes) (info : NodeInfo) : Prop where
  /-- It is filed under its node, and has no address. -/
  named : info.nodeId = id ∧ info.hostIp = []
  /-- The node was last seen when it was last heard of. -/
  lastSeen : ∃ m, startedAt run n ≤ m ∧ m < n ∧ Heard run m id info.lastSeenSec ∧
    ∀ k t, m < k → k < n → ¬Heard run k id t
  /-- It was first seen when it was first heard of since the coordinator started. -/
  firstSeen : ∃ m, startedAt run n ≤ m ∧ m < n ∧ Heard run m id info.firstSeenSec ∧
    ∀ k t, startedAt run n ≤ k → k < m → ¬Heard run k id t
  /-- It is dead if a check since then found the silence too long. -/
  status : info.status = .dead ↔ ∃ k t, startedAt run n ≤ k ∧ k < n ∧ run.actions k = .check t ∧
    (∀ j u, k < j → j < n → ¬Heard run j id u) ∧ 30 < t - info.lastSeenSec

variable {run} {real : ℚ → Bytes} {n start : ℕ} {id : Bytes}

/-- The pings of a span are the steps in which the coordinator hears. -/
theorem heard_of_pings (hmeant : ∀ k, Meant run k (callsAt run k)) {j : ℕ}
    (h : (span run start).Pings id j) :
    j = 2 * (j / 2) ∧ Heard run (start + j / 2) id ((span run start).clock j) := by
  obtain ⟨hostIp, hcall⟩ := NodeLiveness.exists_address h
  by_cases heven : j % 2 = 0
  · simp only [span, heven, if_true] at hcall
    exact ⟨by omega, (((hmeant _).ping id hostIp).mp hcall).2⟩
  · simp only [span, heven, if_false] at hcall
    have hnone := (hmeant (start + j / 2)).second.1
    rw [hcall] at hnone
    cases hnone

theorem pings_of_heard (hmeant : ∀ k, Meant run k (callsAt run k)) {k : ℕ} {t : ℤ}
    (h : Heard run (start + k) id t) : (span run start).Pings id (2 * k) := by
  have heven : (2 * k) % 2 = 0 ∧ (2 * k) / 2 = k := by omega
  have htime := (hmeant (start + k)).time id t h
  rw [htime] at h
  have hcall : (span run start).calls (2 * k) = .ping id [] := by
    simp only [span, heven.1, heven.2, if_true]
    exact ((hmeant (start + k)).ping id []).mpr ⟨rfl, h⟩
  exact NodeLiveness.pings_of_call hcall

/-- What an entry of a span says of its calls it says of the steps. -/
theorem told_of_exact (hmeant : ∀ k, Meant run k (callsAt run k))
    (hstart : startedAt run n ≤ n) {info : NodeInfo}
    (h : Exact (span run (startedAt run n)) (2 * (n - startedAt run n)) id info) :
    Told run n id info := by
  have hplace : ∀ k, startedAt run n ≤ k → startedAt run n + (k - startedAt run n) = k := by
    intro k hk
    omega
  have hback : ∀ {k t}, startedAt run n ≤ k → Heard run k id t →
      (span run (startedAt run n)).Pings id (2 * (k - startedAt run n)) := by
    intro k t hk hheard
    rw [← hplace k hk] at hheard
    exact pings_of_heard hmeant hheard
  refine ⟨⟨h.nodeId, ?_⟩, ?_, ?_, ?_⟩
  · rcases h.hostIp with ⟨m, -, hcall, hne, -⟩ | ⟨hnone, -⟩
    · obtain ⟨hdouble, -⟩ := heard_of_pings hmeant (NodeLiveness.pings_of_call hcall)
      have heven : m % 2 = 0 := by omega
      simp only [span, heven, if_true] at hcall
      exact absurd (((hmeant _).ping id _).mp hcall).1 hne
    · exact hnone
  · obtain ⟨m, hm, hpings, htime, hlater⟩ := h.lastSeen
    obtain ⟨hdouble, hheard⟩ := heard_of_pings hmeant hpings
    refine ⟨startedAt run n + m / 2, by omega, by omega, htime ▸ hheard, fun k t hk hkn hother => ?_⟩
    exact hlater _ (by omega) (by omega) (hback (by omega) hother)
  · obtain ⟨m, hm, hpings, htime, hbefore⟩ := h.firstSeen
    obtain ⟨hdouble, hheard⟩ := heard_of_pings hmeant hpings
    refine ⟨startedAt run n + m / 2, by omega, by omega, htime ▸ hheard, fun k t hk hkm hother => ?_⟩
    exact hbefore _ (by omega) (hback hk hother)
  · rw [h.status]
    constructor
    · rintro ⟨k, hk, hcheck, hno, hlong⟩
      have heven : k % 2 = 0 := by
        by_contra hodd
        simp only [span, hodd, if_false] at hcheck
        exact (hmeant _).second.2 hcheck
      simp only [span, heven, if_true] at hcheck
      refine ⟨startedAt run n + k / 2, _, by omega, by omega,
        ((hmeant _).check _).mpr ⟨hcheck, rfl⟩, fun j u hj hjn hother => ?_, hlong⟩
      exact hno _ (by omega) (by omega) (hback (by omega) hother)
    · rintro ⟨k, t, hk, hkn, hcheck, hno, hlong⟩
      obtain ⟨hcall, rfl⟩ := ((hmeant k).check t).mp hcheck
      have heven : (2 * (k - startedAt run n)) % 2 = 0 ∧ (2 * (k - startedAt run n)) / 2 =
          k - startedAt run n := by omega
      refine ⟨2 * (k - startedAt run n), by omega, ?_, fun j hj hjn hpings => ?_, ?_⟩
      · simp only [span, heven.1, heven.2, if_true, hplace k hk]
        exact hcall
      · obtain ⟨hdouble, hheard⟩ := heard_of_pings hmeant hpings
        exact hno _ _ (by omega) (by omega) hheard
      · simp only [span, heven.2, hplace k hk]
        exact hlong

/-- The registry knows the nodes that the coordinator has heard of since it
started. -/
theorem isSome_entry_iff (hlib : Sane run.lib) (hdump : Standard real run.lib.dump)
    (hclock : run.Clocked) :
    ((run.registryAt n).nodes.lookup id).isSome ↔
      ∃ m t, startedAt run n ≤ m ∧ m < n ∧ Heard run m id t := by
  have hmeant := fun k => meant_callsAt hlib hdump hclock k
  have hentry : (run.registryAt n).nodes.lookup id =
      (span run (startedAt run n)).entryAt (2 * (n - startedAt run n)) id := by
    rw [(registryAt_span run n).2]
    rfl
  rw [hentry, isSome_entryAt]
  constructor
  · rintro ⟨m, hm, hpings⟩
    obtain ⟨hdouble, hheard⟩ := heard_of_pings hmeant hpings
    exact ⟨_, _, by omega, by omega, hheard⟩
  · rintro ⟨m, t, hm, hmn, hheard⟩
    have hplace : m = startedAt run n + (m - startedAt run n) := by omega
    rw [hplace] at hheard
    exact ⟨_, by omega, pings_of_heard hmeant hheard⟩

theorem told_of_entry (hlib : Sane run.lib) (hdump : Standard real run.lib.dump)
    (hclock : run.Clocked) {info : NodeInfo}
    (h : (run.registryAt n).nodes.lookup id = some info) : Told run n id info := by
  obtain ⟨hstart, hspan⟩ := registryAt_span run n
  rw [hspan] at h
  exact told_of_exact (fun k => meant_callsAt hlib hdump hclock k) hstart (exact_entryAt _ _ id h)

/-- In every run the registry knows the nodes that the coordinator has heard of
since it started, and tells of each what it has heard. -/
theorem registry_exact (run : Run ι) (hlib : Sane run.lib) (hdump : Standard real run.lib.dump)
    (hclock : run.Clocked) (n : ℕ) (id : Bytes) :
    (((run.registryAt n).nodes.lookup id).isSome ↔
        ∃ m t, startedAt run n ≤ m ∧ m < n ∧ Heard run m id t) ∧
      ∀ info, (run.registryAt n).nodes.lookup id = some info → Told run n id info :=
  ⟨isSome_entry_iff hlib hdump hclock, fun _ => told_of_entry hlib hdump hclock⟩

end entries

section endings

variable {ι : Type*} [DecidableEq ι]

/-- An exception has ended a process, or its `main` is behind `publisher.stop()`. -/
def Over (p : AgentProcess) : Prop :=
  p.crashed = true ∨ p.globals.publisher = false ∧ p.publisher.owner = .idle

/-- A process that is over stays so, and sends nothing. -/
theorem Over.step {lib : JsonLibrary} {site : Site} {p : AgentProcess} (h : Over p)
    (hsound : Sound lib site p) (action : AgentProcesses.Action) :
    Over (p.step lib site action) ∧ p.handsOver action = none := by
  rcases h with hcrashed | ⟨hclosed, hidle⟩
  · refine ⟨.inl ?_, ?_⟩
    · unfold AgentProcess.step
      rw [if_pos hcrashed]
      exact hcrashed
    · unfold AgentProcess.handsOver
      rw [hcrashed]
  · have hstaged := hsound.tallied.staged
    simp only [AlertPublishing.Staged, hidle] at hstaged
    have habsent := hstaged (hsound.served.stopped hclosed hidle)
    obtain ⟨hstill, hpublisher⟩ := closed_step hsound hclosed action
    refine ⟨.inr ⟨hstill, ?_⟩, ?_⟩
    · rcases hpublisher with hsame | ⟨ok, -, hsend⟩ | ⟨-, hproceed⟩
      · rw [hsame, hidle]
      · rw [hsend, AlertPublishing.sendLoop_absent habsent, hidle]
      · rw [hproceed, AlertPublishing.AlertPublisher.proceed, hidle]
        exact hidle
    · unfold AgentProcess.handsOver
      rw [habsent]
      split
      · next h => cases h
      · rfl

/-- A process is over, and nothing of it is on its way. -/
structure Gone (s : Network ι) (i : ι) : Prop where
  /-- It is over. -/
  ended : Over (s.agents i)
  /-- No alert is on its way. -/
  wire : (s.wires i).inFlight = []
  /-- No heartbeat is on its way. -/
  beats : (s.beats i).inFlight = []

/-- Nothing more comes on a connection of a process that is gone. -/
theorem inFlight_update {α : Type*} {f : ι → Channel α} {i : ι} (h : (f i).inFlight = []) (j : ι)
    {c : Channel α} (hc : c.inFlight ⊆ (f j).inFlight) :
    (Function.update f j c i).inFlight = [] := by
  by_cases hi : i = j
  · subst hi
    rw [Function.update_self]
    rw [h] at hc
    exact List.subset_nil.mp hc
  · rw [Function.update_of_ne hi]
    exact h

/-- A process that is gone stays so. -/
theorem Gone.step {d : Deployed ι} {s : Network ι} {i : ι} (h : Gone s i)
    (hsound : Sound d.lib (d.site i) (s.agents i)) (action : DistributedRuns.Action ι) :
    Gone (s.step d action).1 i := by
  cases action with
  | agent j action =>
    dsimp only [Network.step]
    obtain ⟨hover, hnone⟩ := h.ended.step hsound action
    by_cases hi : i = j
    · subst hi
      refine ⟨?_, ?_, h.beats⟩
      · dsimp only [Network.stepAgent]
        rw [Function.update_self]
        exact hover
      · dsimp only [Network.stepAgent]
        rw [Function.update_self, hnone]
        exact h.wire
    · refine ⟨?_, ?_, h.beats⟩
      · dsimp only [Network.stepAgent]
        rw [Function.update_of_ne hi]
        exact h.ended
      · dsimp only [Network.stepAgent]
        rw [Function.update_of_ne hi]
        exact h.wire
  | lose j k =>
    exact ⟨h.ended, inFlight_update h.wire j (Channel.inFlight_lose_subset _ k), h.beats⟩
  | deliver j nowSec now =>
    have htaken := inFlight_update h.wire j (Channel.inFlight_take_subset (s.wires j))
    dsimp only [Network.step, Network.deliver]
    split
    · exact h
    · split <;> exact ⟨h.ended, htaken, h.beats⟩
  | beat j timestamp =>
    dsimp only [Network.step, Network.beat]
    split
    · exact h
    · next hup =>
      have hi : i ≠ j := by
        rintro rfl
        refine hup ?_
        rcases h.ended with hcrashed | ⟨hclosed, -⟩
        · rw [hcrashed]
          rfl
        · rw [hclosed]
          exact Bool.or_true _
      split
      · refine ⟨?_, h.wire, h.beats⟩
        dsimp only
        rw [Function.update_of_ne hi]
        exact h.ended
      · refine ⟨h.ended, h.wire, ?_⟩
        dsimp only
        rw [Function.update_of_ne hi]
        exact h.beats
  | loseBeat j k =>
    exact ⟨h.ended, h.wire, inFlight_update h.beats j (Channel.inFlight_lose_subset _ k)⟩
  | deliverBeat j nowSec =>
    have htaken := inFlight_update h.beats j (Channel.inFlight_take_subset (s.beats j))
    dsimp only [Network.step, Network.deliverBeat]
    split
    · exact h
    · split <;> exact ⟨h.ended, h.wire, htaken⟩
  | check | restart => exact ⟨h.ended, h.wire, h.beats⟩

variable {run : Run ι} {real : ℚ → Bytes} {k n : ℕ} {id : Bytes}

/-- All processes under a name are gone. -/
def AllGone (run : Run ι) (n : ℕ) (id : Bytes) : Prop := ∀ i,
  id = (run.site i).nodeId ∨ id = beatName (run.site i).nodeId → Gone (run.stateAt n) i

theorem allGone_of_le (h : AllGone run k id) (hkn : k ≤ n) : AllGone run n id := by
  induction n, hkn using Nat.le_induction with
  | base => exact h
  | succ n _ ih => exact fun i hi => (ih i hi).step ((consistent_stateAt run n).sound i) _

/-- Of such a node the coordinator hears no more. -/
theorem not_heard (h : AllGone run n id) (t : ℤ) : ¬Heard run n id t := by
  rintro ⟨i, ⟨alert, now, threat, hact, hevent, hid⟩ | ⟨raw, rest, -, hflight, hid, -⟩⟩
  · have hwire := (h i (.inl hid)).wire
    have hstep : run.eventAt n = ((run.stateAt n).step run.toDeployed (run.actions n)).2 := rfl
    rw [hact] at hstep
    simp only [Network.step, Network.deliver, hwire] at hstep
    rw [hstep] at hevent
    cases hevent
  · rw [(h i (.inr hid)).beats] at hflight
    cases hflight

omit [DecidableEq ι] in
theorem startedAt_of_no_restart {run : Run ι} (hkn : k ≤ n)
    (hup : ∀ j, k ≤ j → j < n → run.actions j ≠ .restart) :
    startedAt run n = startedAt run k := by
  induction n, hkn using Nat.le_induction with
  | base => rfl
  | succ n hkn ih =>
    rw [startedAt_of_ne run (hup n hkn (Nat.lt_succ_self n))]
    exact ih fun j hj hjn => hup j hj (Nat.lt_succ_of_lt hjn)

/-- A node whose processes are gone is dead from the first check on that finds
its silence too long, until the coordinator is restarted. -/
theorem dead_for_good (run : Run ι) (hlib : Sane run.lib) (hdump : Standard real run.lib.dump)
    (hclock : run.Clocked) {k n : ℕ} {id : Bytes} {info : NodeInfo} {t : ℤ}
    (hgone : AllGone run k id) (hinfo : (run.registryAt k).nodes.lookup id = some info)
    (hcheck : run.actions k = .check t) (hlong : 30 < t - info.lastSeenSec) (hkn : k < n)
    (hup : ∀ j, k ≤ j → j < n → run.actions j ≠ .restart) :
    ∃ info', (run.registryAt n).nodes.lookup id = some info' ∧ info'.status = .dead ∧
      info'.lastSeenSec = info.lastSeenSec := by
  have hstart := startedAt_of_no_restart hkn.le hup
  have hsilent : ∀ j u, k ≤ j → ¬Heard run j id u := fun j u hj =>
    not_heard (allGone_of_le hgone hj) u
  obtain ⟨m, hm, hmk, hheard, hlast⟩ := (told_of_entry hlib hdump hclock hinfo).lastSeen
  have hsome := (isSome_entry_iff (n := n) hlib hdump hclock).mpr
    ⟨m, _, hstart ▸ hm, hmk.trans hkn, hheard⟩
  obtain ⟨info', hinfo'⟩ := Option.isSome_iff_exists.mp hsome
  have htold := told_of_entry hlib hdump hclock hinfo'
  obtain ⟨m', hm', hmn', hheard', hlast'⟩ := htold.lastSeen
  -- both were last heard of in one step, as nothing was heard from the check on
  have hbefore : m' < k := not_le.mp fun hle => hsilent m' _ hle hheard'
  have hsame : m' = m := by
    rcases lt_trichotomy m' m with hlt | heq | hgt
    · exact absurd hheard (hlast' m _ hlt (hmk.trans hkn))
    · exact heq
    · exact absurd hheard' (hlast m' _ hgt hbefore)
  subst hsame
  have htime := (meant_callsAt hlib hdump hclock m').time
  have hseen : info'.lastSeenSec = info.lastSeenSec :=
    (htime id _ hheard').trans (htime id _ hheard).symm
  refine ⟨info', hinfo', htold.status.mpr ⟨k, t, ?_, hkn, hcheck, ?_, ?_⟩, hseen⟩
  · rw [hstart]
    exact (registryAt_span run k).1
  · exact fun j u hj _ => hsilent j u hj.le
  · rw [hseen]
    exact hlong

end endings

section silenced

/-- One process, which sends a heartbeat and is shut down. -/
def silenced : Run Unit where
  lib := standardLibrary
  site := fun _ => { nodeId := text "node-1", cfg := {}, ids := .builtin, utcSeconds := fun _ => none }
  actions := fun n =>
    match n with
    | 0 => .beat () 0
    | 1 => .deliverBeat () 0
    | 2 => .agent () .shutdown
    | 3 => .agent () .proceed
    | 4 => .agent () (.send true)
    | 5 => .agent () .proceed
    | 6 => .agent () .proceed
    | _ => .check 31

theorem clocked_silenced : silenced.Clocked := by
  intro n
  dsimp only [silenced]
  split <;> simp [DistributedRuns.Action.Clocked, AgentProcesses.Action.Clocked, IsInt64]

/-- The heartbeat is on its way after one step, and taken after two. -/
theorem beats_silenced : (∃ raw, ((silenced.stateAt 1).beats ()).inFlight = [raw]) ∧
    ((silenced.stateAt 2).beats ()).inFlight = [] ∧
      silenced.agentAt 2 () = .init (silenced.site ()) ∧ silenced.wireAt 2 () = .empty := by
  have hid : IsUtf8 (silenced.site ()).nodeId := isUtf8_text "node-1" (by decide)
  obtain ⟨raw, hjson⟩ : ∃ raw, (heartbeatOf (silenced.site ()) (.init (silenced.site ())) 0).toJSON
      standardLibrary.dump = some raw :=
    ⟨_, (toJSON_eq_some DecimalPrinting.decimal _ standard_standardLibrary.dump hid _).mpr
      ⟨isUtf8_text "ALIVE" (by decide), rfl⟩⟩
  have hone : silenced.stateAt 1 = { Network.init silenced.toDeployed with
      beats := Function.update (fun _ => .empty) () (Channel.empty.put (some raw)) } := by
    have hstep : silenced.stateAt 1 =
        (Network.init silenced.toDeployed).beat silenced.toDeployed () 0 := rfl
    rw [hstep, Network.beat, if_neg (by decide)]
    split
    · next hthrown => cases hthrown.symm.trans hjson
    · next other hraw =>
      cases hraw.symm.trans hjson
      rfl
  have htwo : silenced.stateAt 2 = (silenced.stateAt 1).deliverBeat () 0 := rfl
  rw [hone] at htwo
  have hflight : ((silenced.stateAt 1).beats ()).inFlight = [raw] := by
    rw [hone]
    rfl
  refine ⟨⟨raw, hflight⟩, ?_⟩
  unfold Network.deliverBeat at htwo
  dsimp only at htwo
  rw [Run.agentAt, Run.wireAt, htwo]
  split
  · next hnil => cases hnil
  · next first rest hcons =>
    cases hcons
    split <;> exact ⟨rfl, rfl, rfl⟩

/-- The process is over before the check. -/
theorem allGone_silenced : AllGone silenced 7 (text "node-1") := by
  obtain ⟨-, hbeats, hagent, hwire⟩ := beats_silenced
  obtain ⟨a₂, w₂⟩ := @agent_succ _ _ silenced 2 () _ rfl
  obtain ⟨a₃, w₃⟩ := @agent_succ _ _ silenced 3 () _ rfl
  obtain ⟨a₄, w₄⟩ := @agent_succ _ _ silenced 4 () _ rfl
  obtain ⟨a₅, w₅⟩ := @agent_succ _ _ silenced 5 () _ rfl
  obtain ⟨a₆, w₆⟩ := @agent_succ _ _ silenced 6 () _ rfl
  have hover : Over (silenced.agentAt 7 ()) := by
    rw [a₆, a₅, a₄, a₃, a₂]
    simp only [Function.update_self, hagent]
    exact .inr ⟨rfl, rfl⟩
  have hempty : (silenced.wireAt 7 ()).inFlight = [] := by
    rw [w₆, w₅, w₄, w₃, w₂, a₅, a₄, a₃, a₂]
    simp only [Function.update_self, hagent, hwire]
    rfl
  rintro ⟨⟩ -
  exact ⟨hover, hempty, hbeats⟩

theorem heard_silenced : Heard silenced 1 (text "node-1") 0 := by
  obtain ⟨⟨raw, hflight⟩, -⟩ := beats_silenced
  exact ⟨(), .inr ⟨raw, [], rfl, hflight, by decide, by decide⟩⟩

theorem time_of_heard_silenced {m : ℕ} {id : Bytes} {t : ℤ} (h : Heard silenced m id t) : t = 0 := by
  obtain ⟨i, ⟨_, _, _, hact, -⟩ | ⟨_, _, hact, -⟩⟩ := h
  all_goals
    rcases m with _ | _ | _ | _ | _ | _ | _ | m
    all_goals cases hact
  rfl

theorem registry_exact_silenced : ∃ info,
    (silenced.registryAt 7).nodes.lookup (text "node-1") = some info ∧
      Told silenced 7 (text "node-1") info := by
  obtain ⟨hsome, htold⟩ := registry_exact silenced sane_standardLibrary
    standard_standardLibrary.dump clocked_silenced 7 (text "node-1")
  obtain ⟨info, hinfo⟩ := Option.isSome_iff_exists.mp
    (hsome.mpr ⟨1, 0, by decide, by decide, heard_silenced⟩)
  exact ⟨info, hinfo, htold info hinfo⟩

theorem dead_for_good_silenced : ∃ info,
    (silenced.registryAt 9).nodes.lookup (text "node-1") = some info ∧ info.status = .dead := by
  obtain ⟨info, hinfo⟩ := Option.isSome_iff_exists.mp ((isSome_entry_iff (n := 7)
    sane_standardLibrary standard_standardLibrary.dump clocked_silenced).mpr
      ⟨1, 0, by decide, by decide, heard_silenced⟩)
  obtain ⟨m, -, -, hheard, -⟩ := (told_of_entry sane_standardLibrary
    standard_standardLibrary.dump clocked_silenced hinfo).lastSeen
  have hseen := time_of_heard_silenced hheard
  have hup : ∀ j, 7 ≤ j → j < 9 → silenced.actions j ≠ .restart := by
    intro j _ _
    interval_cases j <;> simp [silenced]
  obtain ⟨info', hinfo', hdead, -⟩ := dead_for_good silenced sane_standardLibrary
    standard_standardLibrary.dump clocked_silenced (k := 7) (n := 9) (t := 31) allGone_silenced
      hinfo rfl (by rw [hseen]; decide) (by decide) hup
  exact ⟨info', hinfo', hdead⟩

end silenced

end Dlads.FailureDetection
