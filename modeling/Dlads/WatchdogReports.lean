import Dlads.NodeLiveness

/-!
# What the watchdog reports

A tick of the watchdog checks the registry, takes a snapshot of it and goes
through the snapshot node by node, with a map of the nodes it has reported.
Pings come in between at any time. Each report rests on the snapshot of its
tick: between the snapshots of two reports of a node the node has pinged, and
a tick whose snapshot shows a dead node reports it unless the node has been
silent since its last report.
-/

namespace Dlads.WatchdogReports

open ByteText StringMaps StepMachine Registry NodeLiveness

/-- Where the watchdog is. -/
inductive Phase
  /-- Before `check_dead_nodes`. -/
  | checking
  /-- Before `all_nodes`. -/
  | snapshotting
  /-- In the loop, with the nodes of the snapshot still to come. -/
  | reporting (todo : List NodeInfo)
  deriving DecidableEq

/-- The registry and the watchdog. -/
structure Watchdog where
  /-- The registry. -/
  registry : NodeRegistry
  /-- `reported_dead`. -/
  reportedDead : StringMap Bool
  /-- Where the watchdog is. -/
  phase : Phase
  deriving DecidableEq

/-- A new registry, and a watchdog that is about to check it. -/
def Watchdog.init (deadThreshold : ℤ) : Watchdog := ⟨.init deadThreshold, ∅, .checking⟩

/-- Who goes on. Threads that only read the registry are left out. -/
inductive Turn
  /-- A receiver pings a node. -/
  | ping (nodeId hostIp : Bytes)
  /-- A receiver records an alert of a node. -/
  | recordAlert (nodeId : Bytes)
  /-- The watchdog goes on. -/
  | watch
  deriving DecidableEq

namespace Watchdog

variable (s : Watchdog)

/-- A node counts as reported; an absent one does not. -/
def reported (id : Bytes) : Bool := (s.reportedDead.lookup id).getD false

/-- The call of the registry in a turn, if any. -/
def call : Turn → Option Call
  | .ping nodeId hostIp => some (.ping nodeId hostIp)
  | .recordAlert nodeId => some (.recordAlert nodeId)
  | .watch =>
    match s.phase with
    | .checking => some .checkDeadNodes
    | .snapshotting => some .allNodes
    | .reporting _ => none

/-- The watchdog's own part of its turn, and the node it reports, if any. -/
def watch : Watchdog × Option NodeInfo :=
  match s.phase with
  | .checking => ({ s with phase := .snapshotting }, none)
  | .snapshotting => ({ s with phase := .reporting s.registry.allNodes }, none)
  | .reporting [] => ({ s with phase := .checking }, none)
  | .reporting (n :: todo) =>
    let s' := { s with phase := .reporting todo }
    if n.status = .dead then
      if !s.reported n.nodeId then
        ({ s' with reportedDead := assign s.reportedDead n.nodeId true }, some n)
      else (s', none)
    else ({ s' with reportedDead := assign s.reportedDead n.nodeId false }, none)

end Watchdog

/-- Receivers and watchdog in any order, each turn at a clock reading; a turn
outputs the node that it reports. -/
def machine : Machine Watchdog (Turn × ℤ) (Option NodeInfo) where
  step := fun s input =>
    let registry := callRegistry s.registry (s.call input.1) input.2
    match input.1 with
    | .watch => ({ s.watch.1 with registry := registry }, s.watch.2)
    | _ => ({ s with registry := registry }, none)

/-- A run of turns on a new registry. -/
structure Run where
  /-- `dead_threshold_`. -/
  deadThreshold : ℤ
  /-- The turns in order. -/
  turns : ℕ → Turn
  /-- The clock reading of each turn. -/
  clock : ℕ → ℤ

namespace Run

variable (run : Run)

/-- Registry and watchdog before a turn. -/
def stateAt (n : ℕ) : Watchdog :=
  machine.stateAt (.init run.deadThreshold) (fun k => (run.turns k, run.clock k)) n

/-- The node that a turn reports. -/
def outputAt (n : ℕ) : Option NodeInfo :=
  machine.outputAt (.init run.deadThreshold) (fun k => (run.turns k, run.clock k)) n

/-- The entry of a node before a turn. -/
def entryAt (n : ℕ) (id : Bytes) : Option NodeInfo := (run.stateAt n).registry.nodes.lookup id

/-- A turn pings a node. -/
def Pings (id : Bytes) (n : ℕ) : Prop := ∃ hostIp, run.turns n = .ping id hostIp

/-- A turn is a call of `check_dead_nodes`. -/
def Checks (n : ℕ) : Prop := run.turns n = .watch ∧ (run.stateAt n).phase = .checking

/-- A turn is the watchdog's call of `all_nodes`. -/
def Snapshots (n : ℕ) : Prop := run.turns n = .watch ∧ (run.stateAt n).phase = .snapshotting

/-- A turn reports a node. -/
def Reports (id : Bytes) (n : ℕ) : Prop := ∃ info, run.outputAt n = some info ∧ info.nodeId = id

/-- The registry has a node with a status before a turn. -/
def Shows (status : NodeStatus) (id : Bytes) (n : ℕ) : Prop :=
  ∃ info, run.entryAt n id = some info ∧ info.status = status

/-- Checks follow each other within the threshold. -/
def Spaced : Prop :=
  ∀ c n, LastBefore run.Checks c n → run.Checks n → run.clock n - run.clock c ≤ run.deadThreshold

end Run

/-- Each death is reported once, and each later one again. -/
structure ReportsDeaths (run : Run) : Prop where
  /-- Between the snapshots that two reports of a node rest on there is a ping
  of it. -/
  once : ∀ id r₁ r₂ s₁ s₂, r₁ < r₂ → run.Reports id r₁ → run.Reports id r₂ →
    LastBefore run.Snapshots s₁ r₁ → LastBefore run.Snapshots s₂ r₂ →
    ∃ p, s₁ < p ∧ p < s₂ ∧ run.Pings id p
  /-- When a snapshot shows a node dead that has not been reported since its
  last ping before, the node is reported before the tick ends. -/
  again : ∀ id s e, run.Snapshots s → run.Shows .dead id s →
    (∀ r < s, run.Reports id r → ∃ p, r < p ∧ p < s ∧ run.Pings id p) →
    s < e → (run.stateAt e).phase = .checking → ∃ r, s < r ∧ r < e ∧ run.Reports id r

section entries

variable {run : Run} {n : ℕ} {id : Bytes}

theorem registry_succ (run : Run) (n : ℕ) : (run.stateAt (n + 1)).registry =
    callRegistry (run.stateAt n).registry ((run.stateAt n).call (run.turns n)) (run.clock n) := by
  change (machine.step (run.stateAt n) (run.turns n, run.clock n)).1.registry = _
  cases hturn : run.turns n <;> rfl

theorem deadThreshold_stateAt (run : Run) (n : ℕ) :
    (run.stateAt n).registry.deadThreshold = run.deadThreshold := by
  induction n with
  | zero => rfl
  | succ n ih =>
    rw [registry_succ]
    cases (run.stateAt n).call (run.turns n) with
    | none => exact ih
    | some call => exact (deadThreshold_step _ call _).trans ih

/-- The registry checks in a turn exactly if the watchdog does. -/
theorem call_check_iff :
    (run.stateAt n).call (run.turns n) = some .checkDeadNodes ↔ run.Checks n := by
  unfold Watchdog.call Run.Checks
  cases run.turns n with
  | watch => cases (run.stateAt n).phase <;> simp
  | _ => simp

/-- The registry is pinged in a turn exactly if a receiver pings it. -/
theorem call_ping_iff {call : Call} (h : (run.stateAt n).call (run.turns n) = some call) :
    call.pinged = some id ↔ run.Pings id n := by
  unfold Watchdog.call at h
  unfold Run.Pings
  cases hturn : run.turns n with
  | ping nodeId hostIp =>
    rw [hturn] at h
    cases h
    simp [Call.pinged]
  | recordAlert nodeId =>
    rw [hturn] at h
    cases h
    simp [Call.pinged]
  | watch =>
    rw [hturn] at h
    dsimp only at h
    split at h <;> cases h <;> simp [Call.pinged]

/-- A ping leaves the node alive and seen just now. -/
theorem entry_of_ping (h : run.Pings id n) : ∃ info, run.entryAt (n + 1) id = some info ∧
    info.status = .alive ∧ info.lastSeenSec = run.clock n := by
  obtain ⟨hostIp, hturn⟩ := h
  refine ⟨pinged (run.entryAt n id) id hostIp (run.clock n), ?_, ?_⟩
  · rw [Run.entryAt, registry_succ, hturn]
    exact lookup_step_of_ping _ _ _ id rfl
  · unfold pinged
    split <;> exact ⟨rfl, rfl⟩

/-- Without a ping an entry stays where it was seen, and its node dies in a
check that finds it silent for too long. -/
theorem entry_of_no_ping (h : ¬run.Pings id n) {info : NodeInfo}
    (hentry : run.entryAt n id = some info) : ∃ info', run.entryAt (n + 1) id = some info' ∧
      info'.nodeId = info.nodeId ∧ info'.lastSeenSec = info.lastSeenSec ∧
      (info'.status = .dead ↔ info.status = .dead ∨
        run.Checks n ∧ run.deadThreshold < run.clock n - info.lastSeenSec) := by
  rw [Run.entryAt, registry_succ]
  cases hcall : (run.stateAt n).call (run.turns n) with
  | none =>
    have hcheck : ¬run.Checks n := by
      rw [← call_check_iff, hcall]
      exact nofun
    exact ⟨info, hentry, rfl, rfl, by simp [hcheck]⟩
  | some call =>
    have hother : call.pinged ≠ some id := fun hp => h ((call_ping_iff hcall).mp hp)
    have hcheck : call = .checkDeadNodes ↔ run.Checks n := by
      rw [← call_check_iff, hcall, Option.some.injEq]
    have hstep := lookup_step_of_no_ping (run.stateAt n).registry call (run.clock n) id hother
    rw [show (run.stateAt n).registry.nodes.lookup id = some info from hentry, Option.map_some,
      deadThreshold_stateAt] at hstep
    have hframe := touch_frame call (run.clock n) id run.deadThreshold info
    exact ⟨_, hstep, hframe.1, hframe.2.2.1, by rw [touch_status, hcheck]⟩

/-- An entry is filed under its node. -/
theorem nodeId_entry {info : NodeInfo} (h : run.entryAt n id = some info) : info.nodeId = id := by
  induction n generalizing info with
  | zero => cases h
  | succ n ih =>
    by_cases hp : run.Pings id n
    · obtain ⟨hostIp, hturn⟩ := hp
      rw [Run.entryAt, registry_succ, hturn] at h
      have hping := (lookup_step_of_ping (run.stateAt n).registry (.ping id hostIp) (run.clock n)
        id rfl).symm.trans h
      rw [← Option.some.inj hping]
      unfold pinged
      split
      · rfl
      · next info' hinfo' => exact (show info'.nodeId = id from ih hinfo')
    · cases hentry : run.entryAt n id with
      | none =>
        exfalso
        rw [Run.entryAt, registry_succ] at h
        cases hcall : (run.stateAt n).call (run.turns n) with
        | none =>
          rw [hcall] at h
          cases hentry.symm.trans h
        | some call =>
          have hother : call.pinged ≠ some id := fun hc => hp ((call_ping_iff hcall).mp hc)
          have hstep := lookup_step_of_no_ping (run.stateAt n).registry call (run.clock n) id hother
          rw [show (run.stateAt n).registry.nodes.lookup id = none from hentry] at hstep
          rw [hcall] at h
          cases hstep.symm.trans h
      | some info' =>
        obtain ⟨info'', hsucc, hid, -⟩ := entry_of_no_ping hp hentry
        rw [Option.some.inj (h.symm.trans hsucc), hid]
        exact ih hentry

/-- A dead node stays dead until it pings. -/
theorem dead_until_ping {s m : ℕ} (hdead : run.Shows .dead id s) (halive : run.Shows .alive id m)
    (hsm : s ≤ m) : ∃ p, s ≤ p ∧ p < m ∧ run.Pings id p := by
  by_contra hno
  push Not at hno
  have hstay : ∀ k, s ≤ k → k ≤ m → run.Shows .dead id k := by
    intro k hk
    induction k, hk using Nat.le_induction with
    | base => exact fun _ => hdead
    | succ k hk ih =>
      intro hkm
      obtain ⟨info, hentry, hstatus⟩ := ih (by omega)
      obtain ⟨info', hsucc, -, -, hdead'⟩ := entry_of_no_ping (hno k hk (by omega)) hentry
      exact ⟨info', hsucc, hdead'.mpr (.inl hstatus)⟩
  obtain ⟨info, hentry, hstatus⟩ := hstay m hsm (le_refl m)
  obtain ⟨info', hentry', hstatus'⟩ := halive
  rw [Option.some.inj (hentry.symm.trans hentry'), hstatus'] at hstatus
  cases hstatus

end entries

section turns

variable {run : Run} {n : ℕ} {id : Bytes}

/-- What a turn does to the watchdog. -/
inductive Went (run : Run) (n : ℕ) : Prop
  /-- Somebody else goes on. -/
  | elsewhere (hturn : run.turns n ≠ .watch)
      (hphase : (run.stateAt (n + 1)).phase = (run.stateAt n).phase)
      (hreported : ∀ id, (run.stateAt (n + 1)).reported id = (run.stateAt n).reported id)
      (hout : run.outputAt n = none)
  /-- It checks the registry. -/
  | checked (hcheck : run.Checks n) (hphase : (run.stateAt (n + 1)).phase = .snapshotting)
      (hreported : ∀ id, (run.stateAt (n + 1)).reported id = (run.stateAt n).reported id)
      (hout : run.outputAt n = none)
  /-- It takes its snapshot. -/
  | snapped (hsnap : run.Snapshots n)
      (hphase : (run.stateAt (n + 1)).phase = .reporting (run.stateAt n).registry.allNodes)
      (hreported : ∀ id, (run.stateAt (n + 1)).reported id = (run.stateAt n).reported id)
      (hout : run.outputAt n = none)
  /-- Its tick ends. -/
  | ended (hbefore : (run.stateAt n).phase = .reporting [])
      (hphase : (run.stateAt (n + 1)).phase = .checking)
      (hreported : ∀ id, (run.stateAt (n + 1)).reported id = (run.stateAt n).reported id)
      (hout : run.outputAt n = none)
  /-- It reports a node. -/
  | reported (info : NodeInfo) (todo : List NodeInfo)
      (hbefore : (run.stateAt n).phase = .reporting (info :: todo))
      (hphase : (run.stateAt (n + 1)).phase = .reporting todo) (hdead : info.status = .dead)
      (hfresh : (run.stateAt n).reported info.nodeId = false)
      (hreported : ∀ id, (run.stateAt (n + 1)).reported id =
        if id = info.nodeId then true else (run.stateAt n).reported id)
      (hout : run.outputAt n = some info)
  /-- It passes over a dead node that it has reported. -/
  | passed (info : NodeInfo) (todo : List NodeInfo)
      (hbefore : (run.stateAt n).phase = .reporting (info :: todo))
      (hphase : (run.stateAt (n + 1)).phase = .reporting todo) (hdead : info.status = .dead)
      (hstale : (run.stateAt n).reported info.nodeId = true)
      (hreported : ∀ id, (run.stateAt (n + 1)).reported id = (run.stateAt n).reported id)
      (hout : run.outputAt n = none)
  /-- It finds a node alive. -/
  | revived (info : NodeInfo) (todo : List NodeInfo)
      (hbefore : (run.stateAt n).phase = .reporting (info :: todo))
      (hphase : (run.stateAt (n + 1)).phase = .reporting todo) (halive : info.status = .alive)
      (hreported : ∀ id, (run.stateAt (n + 1)).reported id =
        if id = info.nodeId then false else (run.stateAt n).reported id)
      (hout : run.outputAt n = none)

theorem reported_assign (s : Watchdog) (key id : Bytes) (value : Bool) :
    ({ s with reportedDead := assign s.reportedDead key value } : Watchdog).reported id =
      if id = key then value else s.reported id := by
  unfold Watchdog.reported
  rw [lookup_assign]
  split <;> rfl

/-- The watchdog's own part of its turn. -/
theorem succ_of_watch (h : run.turns n = .watch) :
    (run.stateAt (n + 1)).phase = (run.stateAt n).watch.1.phase ∧
    (run.stateAt (n + 1)).reportedDead = (run.stateAt n).watch.1.reportedDead ∧
    run.outputAt n = (run.stateAt n).watch.2 := by
  change (machine.step (run.stateAt n) (run.turns n, run.clock n)).1.phase = _ ∧
    (machine.step (run.stateAt n) (run.turns n, run.clock n)).1.reportedDead = _ ∧
    (machine.step (run.stateAt n) (run.turns n, run.clock n)).2 = _
  rw [h]
  exact ⟨rfl, rfl, rfl⟩

theorem phase_of_check (h : run.Checks n) : (run.stateAt (n + 1)).phase = .snapshotting := by
  rw [(succ_of_watch h.1).1, Watchdog.watch, h.2]

theorem phase_of_snapshot (h : run.Snapshots n) :
    (run.stateAt (n + 1)).phase = .reporting (run.stateAt n).registry.allNodes := by
  rw [(succ_of_watch h.1).1, Watchdog.watch, h.2]

theorem reported_of_snapshot (h : run.Snapshots n) (id : Bytes) :
    (run.stateAt (n + 1)).reported id = (run.stateAt n).reported id := by
  rw [Watchdog.reported, (succ_of_watch h.1).2.1, Watchdog.watch, h.2]
  rfl

theorem went (run : Run) (n : ℕ) : Went run n := by
  by_cases hturn : run.turns n = .watch
  · obtain ⟨hphase, hmap, hout⟩ := succ_of_watch hturn
    have hreported : ∀ id, (run.stateAt (n + 1)).reported id =
        (run.stateAt n).watch.1.reported id := fun id => by
      rw [Watchdog.reported, hmap, Watchdog.reported]
    cases hbefore : (run.stateAt n).phase with
    | checking =>
      simp only [Watchdog.watch, hbefore] at hphase hreported hout
      exact .checked ⟨hturn, hbefore⟩ hphase hreported hout
    | snapshotting =>
      simp only [Watchdog.watch, hbefore] at hphase hreported hout
      exact .snapped ⟨hturn, hbefore⟩ hphase hreported hout
    | reporting todo =>
      cases todo with
      | nil =>
        simp only [Watchdog.watch, hbefore] at hphase hreported hout
        exact .ended hbefore hphase hreported hout
      | cons info todo =>
        simp only [Watchdog.watch, hbefore] at hphase hreported hout
        cases hstatus : info.status with
        | dead =>
          rw [if_pos hstatus] at hphase hout
          simp only [if_pos hstatus] at hreported
          cases hfresh : (run.stateAt n).reported info.nodeId with
          | false =>
            simp only [hfresh, Bool.not_false, if_true] at hphase hreported hout
            exact .reported info todo hbefore hphase hstatus hfresh
              (fun id => (hreported id).trans (reported_assign _ info.nodeId id true)) hout
          | true =>
            simp only [hfresh, Bool.not_true, Bool.false_eq_true, if_false] at hphase hreported hout
            exact .passed info todo hbefore hphase hstatus hfresh hreported hout
        | alive =>
          have hlive : ¬info.status = .dead := by rw [hstatus]; exact nofun
          rw [if_neg hlive] at hphase hout
          simp only [if_neg hlive] at hreported
          exact .revived info todo hbefore hphase hstatus
            (fun id => (hreported id).trans (reported_assign _ info.nodeId id false)) hout
  · have hsame : (run.stateAt (n + 1)).phase = (run.stateAt n).phase ∧
        (run.stateAt (n + 1)).reportedDead = (run.stateAt n).reportedDead ∧
        run.outputAt n = none := by
      change (machine.step (run.stateAt n) (run.turns n, run.clock n)).1.phase = _ ∧
        (machine.step (run.stateAt n) (run.turns n, run.clock n)).1.reportedDead = _ ∧
        (machine.step (run.stateAt n) (run.turns n, run.clock n)).2 = _
      cases hcall : run.turns n with
      | watch => exact absurd hcall hturn
      | _ => exact ⟨rfl, rfl, rfl⟩
    exact .elsewhere hturn hsame.1 (fun id => by rw [Watchdog.reported, hsame.2.1]; rfl) hsame.2.2

/-- In the loop the watchdog takes no snapshot. -/
theorem not_snapshots {todo : List NodeInfo} (h : (run.stateAt n).phase = .reporting todo) :
    ¬run.Snapshots n := by
  rintro ⟨-, hphase⟩
  rw [h] at hphase
  cases hphase

/-- The nodes still to come are those of the last snapshot. -/
theorem todo_spec {todo : List NodeInfo} (h : (run.stateAt n).phase = .reporting todo) :
    ∃ s, LastBefore run.Snapshots s n ∧ ∀ info ∈ todo, run.entryAt s info.nodeId = some info := by
  induction n generalizing todo with
  | zero => cases h
  | succ n ih =>
    -- behind a node of the loop the rest is to come
    have hrest : ∀ info, (run.stateAt n).phase = .reporting (info :: todo) →
        ∃ s, LastBefore run.Snapshots s (n + 1) ∧
          ∀ info ∈ todo, run.entryAt s info.nodeId = some info := by
      intro info hbefore
      obtain ⟨s, hlast, htodo⟩ := ih hbefore
      exact ⟨s, hlast.succ (not_snapshots hbefore),
        fun other hmem => htodo other (List.mem_cons_of_mem info hmem)⟩
    cases went run n with
    | elsewhere hturn hphase =>
      obtain ⟨s, hlast, htodo⟩ := ih (hphase.symm.trans h)
      exact ⟨s, hlast.succ fun hsnap => hturn hsnap.1, htodo⟩
    | checked hcheck hphase => cases hphase.symm.trans h
    | ended hbefore hphase => cases hphase.symm.trans h
    | snapped hsnap hphase =>
      obtain rfl := Phase.reporting.inj (hphase.symm.trans h)
      refine ⟨n, .self hsnap, ?_⟩
      intro info hmem
      obtain ⟨key, hkey⟩ := mem_values.mp hmem
      rw [nodeId_entry hkey]
      exact hkey
    | reported info todo' hbefore hphase =>
      obtain rfl := Phase.reporting.inj (hphase.symm.trans h)
      exact hrest info hbefore
    | passed info todo' hbefore hphase =>
      obtain rfl := Phase.reporting.inj (hphase.symm.trans h)
      exact hrest info hbefore
    | revived info todo' hbefore hphase =>
      obtain rfl := Phase.reporting.inj (hphase.symm.trans h)
      exact hrest info hbefore

/-- A report is the turn of a dead node of the loop that is not reported yet. -/
theorem loop_of_reports (h : run.Reports id n) : ∃ info todo,
    (run.stateAt n).phase = .reporting (info :: todo) ∧ info.nodeId = id ∧ info.status = .dead ∧
      (run.stateAt n).reported id = false ∧ (run.stateAt (n + 1)).reported id = true := by
  obtain ⟨info, hout, rfl⟩ := h
  cases went run n with
  | reported info' todo hbefore _ hdead hfresh hreported hout' =>
    obtain rfl := Option.some.inj (hout.symm.trans hout')
    exact ⟨info, todo, hbefore, rfl, hdead, hfresh, (hreported info.nodeId).trans (if_pos rfl)⟩
  | elsewhere _ _ _ hout' => cases hout.symm.trans hout'
  | checked _ _ _ hout' => cases hout.symm.trans hout'
  | snapped _ _ _ hout' => cases hout.symm.trans hout'
  | ended _ _ _ hout' => cases hout.symm.trans hout'
  | passed _ _ _ _ _ _ _ hout' => cases hout.symm.trans hout'
  | revived _ _ _ _ _ _ hout' => cases hout.symm.trans hout'

/-- A node that is reported is dead in the snapshot. -/
theorem dead_of_reports (h : run.Reports id n) {s : ℕ} (hlast : LastBefore run.Snapshots s n) :
    run.Shows .dead id s ∧ (run.stateAt n).reported id = false ∧
      (run.stateAt (n + 1)).reported id = true := by
  obtain ⟨info, todo, hloop, rfl, hdead, hflags⟩ := loop_of_reports h
  obtain ⟨t, hlast', htodo⟩ := todo_spec hloop
  obtain rfl := hlast.unique hlast'
  exact ⟨⟨info, htodo info List.mem_cons_self, hdead⟩, hflags⟩

/-- A reported node counts as reported until a later snapshot shows it alive,
which takes a ping in between. -/
theorem reported_or_ping {r s : ℕ} (hreports : run.Reports id r)
    (hlast : LastBefore run.Snapshots s r) (hrn : r < n) : (run.stateAt n).reported id = true ∨
      ∃ p, s < p ∧ run.Pings id p ∧ ∃ t, p < t ∧ LastBefore run.Snapshots t n := by
  obtain ⟨hdead, -, hset⟩ := dead_of_reports hreports hlast
  induction n, hrn using Nat.le_induction with
  | base => exact .inl hset
  | succ n hrn ih =>
    rcases ih with htrue | ⟨p, hsp, hping, t, hpt, hlastT⟩
    · cases went run n with
      | elsewhere _ _ hreported => exact .inl ((hreported id).trans htrue)
      | checked _ _ hreported => exact .inl ((hreported id).trans htrue)
      | snapped _ _ hreported => exact .inl ((hreported id).trans htrue)
      | ended _ _ hreported => exact .inl ((hreported id).trans htrue)
      | passed _ _ _ _ _ _ hreported => exact .inl ((hreported id).trans htrue)
      | reported info todo _ _ _ _ hreported =>
        refine .inl ?_
        rw [hreported, htrue]
        exact ite_self true
      | revived info todo hbefore _ halive hreported =>
        by_cases hid : id = info.nodeId
        · -- the snapshot of this tick shows the node alive
          obtain ⟨t, hlastT, htodo⟩ := todo_spec hbefore
          have hshows : run.Shows .alive id t :=
            ⟨info, hid ▸ htodo info List.mem_cons_self, halive⟩
          have hst : s ≤ t := by
            by_contra hlt
            exact hlastT.2.2 s (by omega) (by have := hlast.1; omega) hlast.2.1
          obtain ⟨p, hsp, hpt, hping⟩ := dead_until_ping hdead hshows hst
          have hne : s ≠ p := by
            rintro rfl
            obtain ⟨hostIp, hturn⟩ := hping
            cases hlast.2.1.1.symm.trans hturn
          exact .inr ⟨p, by omega, hping, t, hpt, hlastT.succ (not_snapshots hbefore)⟩
        · refine .inl ?_
          rw [hreported, if_neg hid, htrue]
    · by_cases hsnap : run.Snapshots n
      · have hpn : p < n := by have := hlastT.1; omega
        exact .inr ⟨p, hsp, hping, n, hpn, .self hsnap⟩
      · exact .inr ⟨p, hsp, hping, t, hpt, hlastT.succ hsnap⟩

end turns

section again

variable {run : Run} {n : ℕ} {id : Bytes}

/-- A node has pinged since the last check. -/
def Recent (run : Run) (id : Bytes) (n : ℕ) : Prop :=
  ∃ c info, LastBefore run.Checks c n ∧ run.entryAt n id = some info ∧ info.status = .alive ∧
    run.clock c ≤ info.lastSeenSec

/-- A check has found a node alive, and the loop is still to come to it. -/
def Due (run : Run) (id : Bytes) (n : ℕ) : Prop :=
  ((run.stateAt n).phase = .snapshotting ∧ run.Shows .alive id n) ∨
    ∃ todo info, (run.stateAt n).phase = .reporting todo ∧ info ∈ todo ∧ info.nodeId = id ∧
      info.status = .alive

/-- Without a ping and a check an entry stays alive. -/
theorem alive_of_no_ping (h : ¬run.Pings id n) {info : NodeInfo}
    (hentry : run.entryAt n id = some info) (halive : info.status = .alive)
    (hcheck : run.Checks n → run.clock n - info.lastSeenSec ≤ run.deadThreshold) :
    ∃ info', run.entryAt (n + 1) id = some info' ∧ info'.status = .alive ∧
      info'.lastSeenSec = info.lastSeenSec := by
  obtain ⟨info', hsucc, -, hseen, hdead⟩ := entry_of_no_ping h hentry
  refine ⟨info', hsucc, ?_, hseen⟩
  cases hstatus : info'.status with
  | alive => rfl
  | dead =>
    rcases hdead.mp hstatus with hold | ⟨hc, hlong⟩
    · rw [halive] at hold
      cases hold
    · have := hcheck hc
      omega

/-- Outside a check an entry stays alive, whether it is pinged or not. -/
theorem alive_of_no_check (hno : ¬run.Checks n) (h : run.Shows .alive id n) :
    run.Shows .alive id (n + 1) := by
  by_cases hping : run.Pings id n
  · obtain ⟨info, hentry, halive, -⟩ := entry_of_ping hping
    exact ⟨info, hentry, halive⟩
  · obtain ⟨info, hentry, halive⟩ := h
    obtain ⟨info', hsucc, halive', -⟩ :=
      alive_of_no_ping hping hentry halive fun hc => absurd hc hno
    exact ⟨info', hsucc, halive'⟩

/-- Behind a check there was one. -/
theorem exists_check (h : (run.stateAt n).phase ≠ .checking) : ∃ c < n, run.Checks c := by
  induction n with
  | zero => exact absurd rfl h
  | succ n ih =>
    by_cases hbefore : (run.stateAt n).phase = .checking
    · cases went run n with
      | checked hcheck => exact ⟨n, Nat.lt_succ_self n, hcheck⟩
      | elsewhere _ hphase => exact absurd (hphase.trans hbefore) h
      | ended _ hphase => exact absurd hphase h
      | snapped hsnap => cases hbefore.symm.trans hsnap.2
      | reported info todo hloop => cases hbefore.symm.trans hloop
      | passed info todo hloop => cases hbefore.symm.trans hloop
      | revived info todo hloop => cases hbefore.symm.trans hloop
    · obtain ⟨c, hc, hcheck⟩ := ih hbefore
      exact ⟨c, Nat.lt_succ_of_lt hc, hcheck⟩

/-- A report comes behind a check. -/
theorem check_of_reports (h : run.Reports id n) : ∃ c < n, run.Checks c := by
  obtain ⟨info, todo, hloop, -⟩ := loop_of_reports h
  exact exists_check fun hphase => by cases hphase.symm.trans hloop

variable (hclock : Monotone run.clock) (hspaced : run.Spaced)

include hclock in
/-- A ping behind a check makes a node recent. -/
theorem Recent.ping (hping : run.Pings id n) {c : ℕ} (hc : c < n) (hcheck : run.Checks c) :
    Recent run id (n + 1) := by
  obtain ⟨last, hlast⟩ := exists_lastBefore hc hcheck
  obtain ⟨info, hentry, halive, hseen⟩ := entry_of_ping hping
  have hno : ¬run.Checks n := by
    rintro ⟨hturn, -⟩
    obtain ⟨hostIp, hturn'⟩ := hping
    cases hturn.symm.trans hturn'
  refine ⟨last, info, hlast.succ hno, hentry, halive, ?_⟩
  rw [hseen]
  exact hclock hlast.1.le

include hclock hspaced in
/-- The next check finds a recent node alive. -/
theorem Recent.step (h : Recent run id n) : Recent run id (n + 1) ∨ Due run id (n + 1) := by
  obtain ⟨c, info, hlast, hentry, halive, hseen⟩ := h
  by_cases hping : run.Pings id n
  · exact .inl (Recent.ping hclock hping hlast.1 hlast.2.1)
  · have hfound : run.Checks n → run.clock n - info.lastSeenSec ≤ run.deadThreshold := by
      intro hcheck
      have := hspaced c n hlast hcheck
      omega
    obtain ⟨info', hsucc, halive', hseen'⟩ := alive_of_no_ping hping hentry halive hfound
    by_cases hcheck : run.Checks n
    · exact .inr (.inl ⟨phase_of_check hcheck, info', hsucc, halive'⟩)
    · exact .inl ⟨c, info', hlast.succ hcheck, hsucc, halive', hseen'.symm ▸ hseen⟩

/-- The loop comes to a node that a check has found alive. -/
theorem Due.step (h : Due run id n) :
    Due run id (n + 1) ∨ (run.stateAt (n + 1)).reported id = false := by
  rcases h with ⟨hbefore, halive⟩ | ⟨todo, info, hbefore, hmem, hid, halive⟩
  · have hno : ¬run.Checks n := fun hcheck => by cases hbefore.symm.trans hcheck.2
    have halive' := alive_of_no_check hno halive
    refine .inl ?_
    cases went run n with
    | elsewhere _ hphase => exact .inl ⟨hphase.trans hbefore, halive'⟩
    | checked hcheck => exact absurd hcheck hno
    | snapped _ hphase =>
      obtain ⟨info, hentry, hstatus⟩ := halive
      exact .inr ⟨_, info, hphase, mem_values.mpr ⟨id, hentry⟩, nodeId_entry hentry, hstatus⟩
    | ended hloop => cases hbefore.symm.trans hloop
    | reported info todo hloop => cases hbefore.symm.trans hloop
    | passed info todo hloop => cases hbefore.symm.trans hloop
    | revived info todo hloop => cases hbefore.symm.trans hloop
  · cases went run n with
    | elsewhere _ hphase => exact .inl (.inr ⟨todo, info, hphase.trans hbefore, hmem, hid, halive⟩)
    | checked hcheck => cases hbefore.symm.trans hcheck.2
    | snapped hsnap => cases hbefore.symm.trans hsnap.2
    | ended hloop =>
      obtain rfl := Phase.reporting.inj (hbefore.symm.trans hloop)
      cases hmem
    | reported head rest hloop hphase hdead =>
      obtain rfl := Phase.reporting.inj (hbefore.symm.trans hloop)
      rcases List.mem_cons.mp hmem with rfl | hrest
      · cases halive.symm.trans hdead
      · exact .inl (.inr ⟨rest, info, hphase, hrest, hid, halive⟩)
    | passed head rest hloop hphase hdead =>
      obtain rfl := Phase.reporting.inj (hbefore.symm.trans hloop)
      rcases List.mem_cons.mp hmem with rfl | hrest
      · cases halive.symm.trans hdead
      · exact .inl (.inr ⟨rest, info, hphase, hrest, hid, halive⟩)
    | revived head rest hloop hphase _ hreported =>
      obtain rfl := Phase.reporting.inj (hbefore.symm.trans hloop)
      rcases List.mem_cons.mp hmem with rfl | hrest
      · exact .inr ((hreported id).trans (if_pos hid.symm))
      · exact .inl (.inr ⟨rest, info, hphase, hrest, hid, halive⟩)

/-- A turn that leaves a node reported reports it, or finds it reported. -/
theorem reported_succ (h : (run.stateAt (n + 1)).reported id = true) :
    run.Reports id n ∨ (run.stateAt n).reported id = true := by
  cases went run n with
  | elsewhere _ _ hreported => exact .inr ((hreported id).symm.trans h)
  | checked _ _ hreported => exact .inr ((hreported id).symm.trans h)
  | snapped _ _ hreported => exact .inr ((hreported id).symm.trans h)
  | ended _ _ hreported => exact .inr ((hreported id).symm.trans h)
  | passed _ _ _ _ _ _ hreported => exact .inr ((hreported id).symm.trans h)
  | reported info todo _ _ _ _ hreported hout =>
    by_cases hid : id = info.nodeId
    · exact .inl ⟨info, hout, hid.symm⟩
    · rw [hreported, if_neg hid] at h
      exact .inr h
  | revived info todo _ _ _ hreported =>
    rw [hreported] at h
    split at h
    · cases h
    · exact .inr h

include hclock hspaced in
/-- A node counts as reported because of a report; if it has pinged since, no
check has come yet, or the loop is about to find it alive. -/
theorem report_behind (h : (run.stateAt n).reported id = true) : ∃ r < n, run.Reports id r ∧
    ((∀ p, r < p → p < n → ¬run.Pings id p) ∨ Recent run id n ∨ Due run id n) := by
  induction n with
  | zero => cases h
  | succ n ih =>
    rcases reported_succ h with hreports | hbefore
    · exact ⟨n, Nat.lt_succ_self n, hreports, .inl fun p hp hpn => absurd hp (by omega)⟩
    · obtain ⟨r, hr, hreports, hsince⟩ := ih hbefore
      refine ⟨r, Nat.lt_succ_of_lt hr, hreports, ?_⟩
      rcases hsince with hsilent | hrecent | hdue
      · by_cases hping : run.Pings id n
        · obtain ⟨c, hc, hcheck⟩ := check_of_reports hreports
          exact .inr (.inl (Recent.ping hclock hping (hc.trans hr) hcheck))
        · refine .inl fun p hp hpn => ?_
          rcases Nat.lt_succ_iff_lt_or_eq.mp hpn with hlt | rfl
          · exact hsilent p hp hlt
          · exact hping
      · exact .inr (Recent.step hclock hspaced hrecent)
      · rcases hdue.step with hnext | hfalse
        · exact .inr (.inr hnext)
        · rw [hfalse] at h
          cases h

include hclock hspaced in
/-- A snapshot that shows a node dead finds it unreported, if it has pinged
since each report. -/
theorem unreported_at_snapshot {s : ℕ} (hsnap : run.Snapshots s) (hdead : run.Shows .dead id s)
    (hsince : ∀ r < s, run.Reports id r → ∃ p, r < p ∧ p < s ∧ run.Pings id p) :
    (run.stateAt s).reported id = false := by
  cases hset : (run.stateAt s).reported id with
  | false => rfl
  | true =>
    exfalso
    obtain ⟨info, hentry, hstatus⟩ := hdead
    obtain ⟨r, hr, hreports, hsilent | hrecent | hdue⟩ := report_behind hclock hspaced hset
    · obtain ⟨p, hrp, hps, hping⟩ := hsince r hr hreports
      exact hsilent p hrp hps hping
    · obtain ⟨c, info', -, hentry', halive, -⟩ := hrecent
      rw [Option.some.inj (hentry'.symm.trans hentry), hstatus] at halive
      cases halive
    · rcases hdue with ⟨-, info', hentry', halive⟩ | ⟨todo, info', hphase, -⟩
      · rw [Option.some.inj (hentry'.symm.trans hentry), hstatus] at halive
        cases halive
      · cases hsnap.2.symm.trans hphase

/-- A loop has a node still to come, and finds it dead. -/
def Awaits (id : Bytes) (todo : List NodeInfo) : Prop :=
  (∃ info ∈ todo, info.nodeId = id) ∧ ∀ info ∈ todo, info.nodeId = id → info.status = .dead

/-- It still has when it has passed over another node. -/
theorem Awaits.tail {head : NodeInfo} {rest : List NodeInfo} (h : Awaits id (head :: rest))
    (hhead : head.nodeId ≠ id) : Awaits id rest := by
  obtain ⟨⟨info, hmem, hid⟩, hdead⟩ := h
  refine ⟨?_, fun other hother => hdead other (List.mem_cons_of_mem head hother)⟩
  rcases List.mem_cons.mp hmem with rfl | hrest
  · exact absurd hid hhead
  · exact ⟨info, hrest, hid⟩

/-- A snapshot that shows a node dead begins such a loop. -/
theorem awaits_allNodes (hdead : run.Shows .dead id n) :
    Awaits id (run.stateAt n).registry.allNodes := by
  obtain ⟨found, hentry, hstatus⟩ := hdead
  refine ⟨⟨found, mem_values.mpr ⟨id, hentry⟩, nodeId_entry hentry⟩, ?_⟩
  intro info hmem hid
  obtain ⟨key, hkey⟩ := mem_values.mp hmem
  have hsame : key = id := (nodeId_entry hkey).symm.trans hid
  rw [hsame] at hkey
  rw [Option.some.inj (hkey.symm.trans hentry), hstatus]

/-- A turn of the loop reports the node that it awaits, or awaits it still. -/
theorem Awaits.step {todo : List NodeInfo} (h : Awaits id todo)
    (hbefore : (run.stateAt n).phase = .reporting todo)
    (hfalse : (run.stateAt n).reported id = false) :
    run.Reports id n ∨ (run.stateAt (n + 1)).reported id = false ∧
      ∃ todo', (run.stateAt (n + 1)).phase = .reporting todo' ∧ Awaits id todo' := by
  cases went run n with
  | elsewhere _ hphase hreported =>
    exact .inr ⟨(hreported id).trans hfalse, todo, hphase.trans hbefore, h⟩
  | checked hcheck => cases hbefore.symm.trans hcheck.2
  | snapped hsnap => cases hbefore.symm.trans hsnap.2
  | ended hloop =>
    obtain rfl := Phase.reporting.inj (hbefore.symm.trans hloop)
    obtain ⟨info, hmem, -⟩ := h.1
    cases hmem
  | reported head rest hloop hphase _ _ hreported hout =>
    obtain rfl := Phase.reporting.inj (hbefore.symm.trans hloop)
    by_cases hhead : head.nodeId = id
    · exact .inl ⟨head, hout, hhead⟩
    · exact .inr ⟨((hreported id).trans (if_neg (Ne.symm hhead))).trans hfalse, rest, hphase,
        h.tail hhead⟩
  | passed head rest hloop hphase _ hstale hreported =>
    obtain rfl := Phase.reporting.inj (hbefore.symm.trans hloop)
    have hhead : head.nodeId ≠ id := by
      rintro rfl
      cases hstale.symm.trans hfalse
    exact .inr ⟨(hreported id).trans hfalse, rest, hphase, h.tail hhead⟩
  | revived head rest hloop hphase halive hreported =>
    obtain rfl := Phase.reporting.inj (hbefore.symm.trans hloop)
    have hhead : head.nodeId ≠ id := by
      intro hhead
      cases halive.symm.trans (h.2 head List.mem_cons_self hhead)
    exact .inr ⟨((hreported id).trans (if_neg (Ne.symm hhead))).trans hfalse, rest, hphase,
      h.tail hhead⟩

/-- Behind a snapshot an unreported dead node is still to come, or has been
reported. -/
theorem still_to_come {s : ℕ} (hsnap : run.Snapshots s) (hdead : run.Shows .dead id s)
    (hfresh : (run.stateAt s).reported id = false) (hsn : s < n) :
    (∃ r, s < r ∧ r < n ∧ run.Reports id r) ∨ (run.stateAt n).reported id = false ∧
      ∃ todo, (run.stateAt n).phase = .reporting todo ∧ Awaits id todo := by
  induction n, hsn using Nat.le_induction with
  | base =>
    have hfalse : (run.stateAt (s + 1)).reported id = false := by
      rw [reported_of_snapshot hsnap, hfresh]
    exact .inr ⟨hfalse, _, phase_of_snapshot hsnap, awaits_allNodes hdead⟩
  | succ n hsn ih =>
    rcases ih with ⟨r, hsr, hrn, hreports⟩ | ⟨hfalse, todo, hbefore, hawaits⟩
    · exact .inl ⟨r, hsr, Nat.lt_succ_of_lt hrn, hreports⟩
    · rcases hawaits.step hbefore hfalse with hreports | hstill
      · exact .inl ⟨n, hsn, Nat.lt_succ_self n, hreports⟩
      · exact .inr hstill

end again

/-- With checks within the threshold of each other, each death is reported
once and each later one again. -/
theorem reports_deaths (run : Run) (hclock : Monotone run.clock) (hspaced : run.Spaced) :
    ReportsDeaths run where
  once id r₁ r₂ s₁ s₂ hlt hfirst hsecond hlast₁ hlast₂ := by
    obtain ⟨-, hfresh, -⟩ := dead_of_reports hsecond hlast₂
    rcases reported_or_ping hfirst hlast₁ hlt with htrue | ⟨p, hsp, hping, t, hpt, hlast⟩
    · cases hfresh.symm.trans htrue
    · obtain rfl := hlast.unique hlast₂
      exact ⟨p, hsp, hpt, hping⟩
  again id s e hsnap hdead hsince hse hend := by
    have hfresh := unreported_at_snapshot hclock hspaced hsnap hdead hsince
    rcases still_to_come hsnap hdead hfresh hse with hreported | ⟨-, todo, hphase, -⟩
    · exact hreported
    · cases hend.symm.trans hphase

/-- A node pings once and the watchdog goes on and on. -/
def quietRun : Run where
  deadThreshold := 30
  turns := fun n => if n = 0 then .ping (text "node-1") (text "10.0.0.1") else .watch
  clock := fun n => if n = 0 then 0 else 40

theorem quietRun_reported :
    Monotone quietRun.clock ∧ quietRun.Spaced ∧ ReportsDeaths quietRun := by
  have hclock : Monotone quietRun.clock := by
    intro m n hmn
    simp only [quietRun]
    split <;> split <;> omega
  have hspaced : quietRun.Spaced := by
    intro c n hlast hcheck
    have hc : c ≠ 0 := by
      rintro rfl
      exact absurd hlast.2.1.1 (by decide)
    have hn : n ≠ 0 := by
      have := hlast.1
      omega
    simp only [quietRun, if_neg hc, if_neg hn]
    omega
  exact ⟨hclock, hspaced, reports_deaths quietRun hclock hspaced⟩

/-- A node that is found dead pings before it is reported, and falls silent
again. -/
def lateRun : Run where
  deadThreshold := 30
  turns := fun n =>
    if n = 0 ∨ n = 3 then .ping (text "node-1") (text "10.0.0.1") else .watch
  clock := fun n => if n = 0 then 0 else if n < 6 then 40 else if n < 10 then 50 else 80

/-- It is reported twice, with no ping between the reports. -/
theorem lateRun_twice : Monotone lateRun.clock ∧ lateRun.Spaced ∧
    lateRun.Reports (text "node-1") 4 ∧ lateRun.Reports (text "node-1") 12 ∧
    ∀ p, 4 < p → p < 12 → ¬lateRun.Pings (text "node-1") p := by
  refine ⟨?_, ?_, ?_, ?_, ?_⟩
  · intro m n hmn
    simp only [lateRun]
    split <;> split <;> (try split) <;> (try split) <;> omega
  · intro c n hlast hcheck
    have hsix : lateRun.Checks 6 := ⟨rfl, by decide +kernel⟩
    have hc : c ≠ 0 := by
      rintro rfl
      exact absurd hlast.2.1.1 (by decide)
    have hbetween : ¬(c < 6 ∧ 6 < n) := fun h => hlast.2.2 6 h.1 h.2 hsix
    have hlt := hlast.1
    simp only [lateRun, if_neg hc, if_neg (show n ≠ 0 by omega)]
    split <;> split <;> (try split) <;> (try split) <;> omega
  · exact Option.map_eq_some_iff.mp (by decide +kernel :
      (lateRun.outputAt 4).map NodeInfo.nodeId = some (text "node-1"))
  · exact Option.map_eq_some_iff.mp (by decide +kernel :
      (lateRun.outputAt 12).map NodeInfo.nodeId = some (text "node-1"))
  · rintro p hp hlt ⟨hostIp, hturn⟩
    have hother : ¬(p = 0 ∨ p = 3) := by omega
    simp only [lateRun, if_neg hother] at hturn
    cases hturn

end Dlads.WatchdogReports
