import Dlads.StepMachine

/-!
# Starting and stopping the tailer and the adapter

`LogTailer` and `SuricataAdapter` run a worker thread between `start` and
`stop`. The guard of `start` reads `running_`, which the worker sets when it
begins and clears when it leaves, while the thread stays joinable until `stop`
joins it. An owner calls `start` and `stop` in any order; its steps interleave
with those of the worker. A `start` terminates the process exactly if it is
called while a thread that is not joined does not show in `running_`.
-/

namespace Dlads.WorkerLifecycle

open StepMachine

/-- The two classes. -/
inductive Watcher
  | logTailer | suricataAdapter
  deriving DecidableEq

/-- Where the thread of `run` is. -/
inductive Worker
  /-- No thread is joinable. -/
  | absent
  /-- Before `running_.store(true)`. -/
  | created
  /-- Before `inotify_init1`, or before the file is opened. -/
  | opening
  /-- In a loop on `stop_`. -/
  | looping
  /-- Before `running_.store(false)`. -/
  | leaving
  /-- Returned from `run`, not joined yet. -/
  | exited
  deriving DecidableEq

/-- Where the owner is. -/
inductive Owner
  /-- Not in a call. -/
  | idle
  /-- In `start`, before `stop_.store(false)`. -/
  | resetting
  /-- In `start`, before `thread_` is assigned. -/
  | spawning
  /-- In `stop`, at `thread_.join()`. -/
  | joining
  /-- In `stop` of the adapter, before `running_.store(false)`. -/
  | closing
  deriving DecidableEq

/-- A tailer or an adapter with its worker and its owner. -/
structure Lifecycle where
  /-- `stop_`. -/
  stopFlag : Bool := false
  /-- `running_`. -/
  running : Bool := false
  /-- The thread behind `thread_`. -/
  worker : Worker := .absent
  /-- The owner. -/
  owner : Owner := .idle
  /-- `std::terminate` was called. -/
  terminated : Bool := false
  deriving DecidableEq

/-- What happens next. -/
inductive Action
  /-- The owner calls `start`. -/
  | start
  /-- The owner calls `stop`. -/
  | stop
  /-- The owner goes on in its call. -/
  | proceed
  /-- The worker takes a step, in which a system call may fail. -/
  | run (fails : Bool)
  deriving DecidableEq

namespace Lifecycle

variable (s : Lifecycle)

/-- The call of `start`: a worker that shows as running ends it. -/
def start : Lifecycle :=
  if s.owner = .idle ∧ s.running = false then { s with owner := .resetting } else s

/-- The call of `stop`, with `stop_.store(true)`. -/
def stop : Lifecycle :=
  if s.owner = .idle then { s with stopFlag := true, owner := .joining } else s

/-- The owner goes on. Only the adapter clears `running_` behind the join. -/
def proceed (watcher : Watcher) : Lifecycle :=
  let joined : Owner :=
    match watcher with
    | .logTailer => .idle
    | .suricataAdapter => .closing
  match s.owner with
  | .idle => s
  | .resetting => { s with stopFlag := false, owner := .spawning }
  | .spawning =>
    -- the move assignment to a joinable thread
    if s.worker ≠ .absent then { s with terminated := true }
    else { s with worker := .created, owner := .idle }
  | .joining =>
    if s.worker = .absent ∨ s.worker = .exited then { s with worker := .absent, owner := joined }
    else s
  | .closing => { s with running := false, owner := .idle }

/-- A step of `run`. Behind the opening only an error of `poll` in the tailer
ends it before `stop_` does. -/
def run (watcher : Watcher) (fails : Bool) : Lifecycle :=
  match s.worker with
  | .absent | .exited => s
  | .created => { s with running := true, worker := .opening }
  | .opening => { s with worker := if fails then .leaving else .looping }
  | .looping =>
    if s.stopFlag ∨ watcher = .logTailer ∧ fails then { s with worker := .leaving } else s
  | .leaving => { s with running := false, worker := .exited }

/-- A step of anyone; there is none after `std::terminate`. -/
def step (watcher : Watcher) (action : Action) : Lifecycle :=
  if s.terminated then s
  else
    match action with
    | .start => s.start
    | .stop => s.stop
    | .proceed => s.proceed watcher
    | .run fails => s.run watcher fails

end Lifecycle

/-- Owner and worker, in any order. -/
def machine (watcher : Watcher) : Machine Lifecycle Action Unit where
  step := fun s action => (s.step watcher action, ())

/-- The object before an action. -/
def stateAt (watcher : Watcher) (actions : ℕ → Action) (n : ℕ) : Lifecycle :=
  (machine watcher).stateAt {} actions n

/-- An action calls `start` while the thread of an earlier `start` has not set
`running_` yet, or has cleared it and is not joined. -/
def Untimely (s : Lifecycle) (action : Action) : Prop :=
  action = .start ∧ s.owner = .idle ∧ (s.worker = .created ∨ s.worker = .exited)

section steps

/-- What `running_` shows of a worker. -/
def Worker.shows : Worker → Bool
  | .opening | .looping | .leaving => true
  | .absent | .created | .exited => false

/-- `running_` shows the worker. -/
structure Shown (s : Lifecycle) : Prop where
  /-- It is set by the worker's first step and cleared by its last. -/
  running : s.running = s.worker.shows
  /-- The owner clears it behind the join only. -/
  closing : s.owner = .closing → s.worker = .absent

/-- The owner is past the guard of `start` and `thread_` is joinable. -/
def PastGuard (s : Lifecycle) : Prop :=
  s.terminated = true ∨ (s.owner = .resetting ∨ s.owner = .spawning) ∧ s.worker ≠ .absent

/-- The owner is about to assign to a joinable `thread_`. -/
def AtAssignment (s : Lifecycle) : Prop :=
  s.terminated = true ∨ s.owner = .spawning ∧ s.worker ≠ .absent

variable {s : Lifecycle} {watcher : Watcher}

theorem step_terminated (h : s.terminated = true) (action : Action) :
    s.step watcher action = s := if_pos h

theorem step_live (h : s.terminated = false) (action : Action) : s.step watcher action =
    match action with
    | .start => s.start
    | .stop => s.stop
    | .proceed => s.proceed watcher
    | .run fails => s.run watcher fails :=
  if_neg (by rw [h]; exact Bool.false_ne_true)

/-- The worker leaves the owner alone and stays joinable. -/
theorem run_frame (s : Lifecycle) (watcher : Watcher) (fails : Bool) :
    (s.run watcher fails).owner = s.owner ∧ (s.run watcher fails).terminated = s.terminated ∧
      ((s.run watcher fails).worker = .absent ↔ s.worker = .absent) := by
  unfold Lifecycle.run
  cases hw : s.worker with
  | opening => cases fails <;> simp
  | looping => dsimp only; split <;> simp [hw]
  | _ => simp [hw]

theorem Shown.run (h : Shown s) (fails : Bool) : Shown (s.run watcher fails) := by
  obtain ⟨howner, -, habsent⟩ := run_frame s watcher fails
  refine ⟨?_, fun hc => habsent.mpr (h.closing (howner ▸ hc))⟩
  have hr := h.running
  unfold Lifecycle.run
  cases hw : s.worker with
  | opening => rw [hw] at hr; cases fails <;> exact hr
  | looping =>
    rw [hw] at hr
    dsimp only
    split
    · exact hr
    · rw [hw]; exact hr
  | created => rfl
  | leaving => rfl
  | _ => rw [hw] at hr; exact hr.trans (congrArg Worker.shows hw.symm)

theorem Shown.proceed (h : Shown s) : Shown (s.proceed watcher) := by
  have hr := h.running
  cases ho : s.owner with
  | idle =>
    simp only [Lifecycle.proceed, ho]
    exact h
  | resetting =>
    simp only [Lifecycle.proceed, ho]
    exact ⟨hr, nofun⟩
  | spawning =>
    simp only [Lifecycle.proceed, ho]
    split
    · exact ⟨hr, fun hc => h.closing (ho.trans hc)⟩
    · next hw =>
      refine ⟨?_, nofun⟩
      rw [not_ne_iff.mp hw] at hr
      exact hr
  | joining =>
    simp only [Lifecycle.proceed, ho]
    split
    · next hw =>
      refine ⟨?_, fun _ => rfl⟩
      rcases hw with hw | hw <;>
      · rw [hw] at hr
        exact hr
    · exact h
  | closing =>
    simp only [Lifecycle.proceed, ho]
    refine ⟨?_, nofun⟩
    rw [h.closing ho]
    rfl

/-- Every step keeps `running_` showing the worker. -/
theorem Shown.step (h : Shown s) (action : Action) : Shown (s.step watcher action) := by
  cases ht : s.terminated with
  | true =>
    rw [step_terminated ht]
    exact h
  | false =>
    rw [step_live ht]
    cases action with
    | start =>
      dsimp only [Lifecycle.start]
      split
      · exact ⟨h.running, nofun⟩
      · exact h
    | stop =>
      dsimp only [Lifecycle.stop]
      split
      · exact ⟨h.running, nofun⟩
      · exact h
    | proceed => exact h.proceed
    | run fails => exact h.run fails

theorem shown_stateAt (watcher : Watcher) (actions : ℕ → Action) (n : ℕ) :
    Shown (stateAt watcher actions n) :=
  (machine watcher).invariant_of_step ⟨rfl, nofun⟩ (fun _ action hs => hs.step action) n

/-- The guard lets an untimely call pass, and no other one that finds a thread. -/
theorem untimely_iff (h : Shown s) : Untimely s .start ↔
    (s.owner = .idle ∧ s.running = false) ∧ s.worker ≠ .absent := by
  rw [Untimely, h.running]
  cases s.worker <;> simp [Worker.shows]

/-- An untimely call gets past the guard with a joinable thread. -/
theorem pastGuard_step (h : Shown s) (action : Action) :
    PastGuard (s.step watcher action) ↔ PastGuard s ∨ Untimely s action := by
  cases ht : s.terminated with
  | true =>
    rw [step_terminated ht]
    exact (or_iff_left_of_imp fun _ => .inl ht).symm
  | false =>
    rw [step_live ht]
    cases action with
    | start =>
      rw [untimely_iff h]
      dsimp only [Lifecycle.start]
      split
      · next hguard => simp [PastGuard, ht, hguard]
      · next hguard => simp [hguard]
    | stop =>
      dsimp only [Lifecycle.stop]
      split
      · next ho => simp [PastGuard, Untimely, ht, ho]
      · simp [Untimely]
    | proceed =>
      cases ho : s.owner with
      | spawning =>
        simp only [Lifecycle.proceed, ho]
        by_cases hw : s.worker = .absent <;> simp [PastGuard, Untimely, ht, ho, hw]
      | joining =>
        simp only [Lifecycle.proceed, ho]
        split <;> cases watcher <;> simp [PastGuard, Untimely, ht, ho]
      | _ => simp [Lifecycle.proceed, PastGuard, Untimely, ht, ho]
    | run fails =>
      obtain ⟨howner, hterm, habsent⟩ := run_frame s watcher fails
      simp only [PastGuard, Untimely, howner, hterm, ne_eq, habsent, reduceCtorEq, false_and,
        or_false]

/-- The owner's next step takes it to the assignment. -/
theorem atAssignment_step (action : Action) :
    AtAssignment (s.step watcher action) ↔ AtAssignment s ∨ PastGuard s ∧ action = .proceed := by
  cases ht : s.terminated with
  | true =>
    rw [step_terminated ht]
    exact (or_iff_left_of_imp fun _ => .inl ht).symm
  | false =>
    rw [step_live ht]
    cases action with
    | start =>
      dsimp only [Lifecycle.start]
      split
      · next hguard => simp [AtAssignment, ht, hguard]
      · simp
    | stop =>
      dsimp only [Lifecycle.stop]
      split
      · next ho => simp [AtAssignment, ht, ho]
      · simp
    | proceed =>
      cases ho : s.owner with
      | spawning =>
        simp only [Lifecycle.proceed, ho]
        by_cases hw : s.worker = .absent <;> simp [AtAssignment, PastGuard, ht, ho, hw]
      | joining =>
        simp only [Lifecycle.proceed, ho]
        split <;> cases watcher <;> simp [AtAssignment, PastGuard, ht, ho]
      | _ => simp [Lifecycle.proceed, AtAssignment, PastGuard, ht, ho]
    | run fails =>
      obtain ⟨howner, hterm, habsent⟩ := run_frame s watcher fails
      simp only [AtAssignment, howner, hterm, ne_eq, habsent, reduceCtorEq, and_false, or_false]

/-- The step after that is the assignment. -/
theorem terminated_step (action : Action) : (s.step watcher action).terminated = true ↔
    s.terminated = true ∨ AtAssignment s ∧ action = .proceed := by
  cases ht : s.terminated with
  | true =>
    rw [step_terminated ht]
    exact iff_of_true ht (.inl rfl)
  | false =>
    rw [step_live ht]
    cases action with
    | start => dsimp only [Lifecycle.start]; split <;> simp [ht]
    | stop => dsimp only [Lifecycle.stop]; split <;> simp [ht]
    | proceed =>
      cases ho : s.owner with
      | spawning =>
        simp only [Lifecycle.proceed, ho]
        by_cases hw : s.worker = .absent <;> simp [AtAssignment, ht, ho, hw]
      | joining => simp only [Lifecycle.proceed, ho]; split <;> simp [AtAssignment, ht, ho]
      | _ => simp [Lifecycle.proceed, AtAssignment, ht, ho]
    | run fails => simp [(run_frame s watcher fails).2.1, ht]

end steps

/-- `start` has assigned to a joinable `thread_` exactly if an untimely call
has gone on twice. -/
theorem unterminated_iff (watcher : Watcher) (actions : ℕ → Action) (n : ℕ) :
    (stateAt watcher actions n).terminated = false ↔
      ∀ k i j, k < i → i < j → j < n → Untimely (stateAt watcher actions k) (actions k) →
        ¬(actions i = .proceed ∧ actions j = .proceed) := by
  have hpast : ∀ i, PastGuard (stateAt watcher actions i) ↔
      ∃ k < i, Untimely (stateAt watcher actions k) (actions k) :=
    (machine watcher).brought_about (by simp [PastGuard])
      (shown_stateAt watcher actions) fun _ action hs => pastGuard_step hs action
  have hassign : ∀ j, AtAssignment (stateAt watcher actions j) ↔
      ∃ i < j, PastGuard (stateAt watcher actions i) ∧ actions i = .proceed :=
    (machine watcher).brought_about (J := fun _ => True) (by simp [AtAssignment])
      (fun _ => trivial)
      fun _ action _ => atAssignment_step action
  have hterm : (stateAt watcher actions n).terminated = true ↔
      ∃ j < n, AtAssignment (stateAt watcher actions j) ∧ actions j = .proceed :=
    (machine watcher).brought_about (J := fun _ => True) (P := fun s => s.terminated = true)
      Bool.false_ne_true (fun _ => trivial) (fun _ action _ => terminated_step action) n
  rw [← Bool.not_eq_true, hterm]
  constructor
  · rintro h k i j hki hij hjn huntimely ⟨hi, hj⟩
    exact h ⟨j, hjn, (hassign j).mpr ⟨i, hij, (hpast i).mpr ⟨k, hki, huntimely⟩, hi⟩, hj⟩
  · rintro h ⟨j, hjn, hat, hj⟩
    obtain ⟨i, hij, hguard, hi⟩ := (hassign j).mp hat
    obtain ⟨k, hki, huntimely⟩ := (hpast i).mp hguard
    exact h k i j hki hij hjn huntimely ⟨hi, hj⟩

/-- A `start`, some steps of the worker, and a second `start`. -/
def startTwice (steps : List Action) (n : ℕ) : Action :=
  ([.start, .proceed, .proceed] ++ steps ++ [.start, .proceed, .proceed])[n]?.getD .stop

/-- The worker's `run` whose opening fails. -/
def earlyExit : List Action := [.run false, .run true, .run false]

/-- A second `start` terminates the process before the worker begins and after
it has left early. -/
theorem startTwice_terminates :
    (stateAt .logTailer (startTwice []) 6).terminated = true ∧
    (stateAt .suricataAdapter (startTwice []) 6).terminated = true ∧
    (stateAt .logTailer (startTwice earlyExit) 9).terminated = true ∧
    (stateAt .suricataAdapter (startTwice earlyExit) 9).terminated = true := by
  decide

end Dlads.WorkerLifecycle
