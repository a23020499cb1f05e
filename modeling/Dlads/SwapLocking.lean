import Dlads.IdsSwap

/-!
# Who holds the swap mutex while joining the tailer

Three threads meet at `g_ids_swap_mtx`. The config server and, at shutdown,
the main thread lock it, stop the tailer and join its thread before they
unlock; the tailer's callback locks it for every parsed line. An action is one
step of one thread; an action that its thread cannot take changes nothing.
-/

namespace Dlads.SwapLocking

open ByteText IdsSwap StepMachine

/-- The threads that stop the tailer under the mutex. -/
inductive Joiner
  /-- The thread of `status_server_loop`. -/
  | config
  /-- The thread of `main`. -/
  | main
  deriving DecidableEq

/-- Where such a thread is. -/
inductive Phase
  /-- Before the critical section. -/
  | away
  /-- At the `lock_guard`. -/
  | locking
  /-- In the critical section, before `g_tailer->stop()`. -/
  | teardown
  /-- In `thread_.join()`. -/
  | joining
  /-- In the critical section, after the teardown. -/
  | finishing
  /-- Past its loop. -/
  | gone
  deriving DecidableEq

/-- Where the tailer's thread is. -/
inductive TailerPhase
  /-- At the loop head that reads `stop_`. -/
  | checking
  /-- In `drain`, looking for the next complete line. -/
  | draining
  /-- In the callback, at the `lock_guard`. -/
  | locking
  /-- In the callback, holding the mutex. -/
  | working
  /-- Returned from `run`. -/
  | done
  deriving DecidableEq

/-- Who holds `g_ids_swap_mtx`. -/
inductive Owner
  | joiner (j : Joiner)
  | tailer
  deriving DecidableEq

/-- The threads and what they share. -/
structure Threads where
  /-- Holder of `g_ids_swap_mtx`. -/
  owner : Option Owner
  /-- Phases of config server and main thread. -/
  phase : Joiner → Phase
  /-- Phase of the thread of `*g_tailer`, none while the pointer is null. -/
  tailer : Option TailerPhase
  /-- `stop_` of `*g_tailer`. -/
  stop : Bool
  /-- `g_stop`. -/
  gStop : Bool
  /-- `g_ids_mode`. -/
  idsMode : Bytes
  /-- `new_mode` of the swap in progress. -/
  request : Bytes

/-- One step of a thread, or the signal that sets `g_stop`. -/
inductive Action
  | signal
  /-- The config server: the mode of its next request, and whether the swap
  in its last stage starts the new engine. -/
  | config (request : Bytes) (succeeds : Bool)
  | main
  /-- The tailer: whether `drain` finds a complete line that parses. -/
  | tailer (line : Bool)

namespace Threads

variable (s : Threads)

/-- Move a joiner. -/
def goto (j : Joiner) (p : Phase) : Threads := { s with phase := Function.update s.phase j p }

/-- Lock the mutex and enter the critical section, or wait. -/
def lock (j : Joiner) : Threads :=
  if s.owner = none then { s.goto j .teardown with owner := some (.joiner j) } else s

/-- Unlock the mutex on the way out of the critical section. -/
def unlock (j : Joiner) (p : Phase) : Threads := { s.goto j p with owner := none }

/-- `g_tailer->stop()` up to the join; a null pointer is skipped. -/
def stopTailer (j : Joiner) : Threads :=
  if s.tailer = none then s.goto j .finishing else { s.goto j .joining with stop := true }

/-- The end of a successful or failed start of the new engine. -/
def restart (succeeds : Bool) : Threads :=
  if succeeds then
    if s.request = builtin then
      { s with idsMode := s.request, tailer := some .checking, stop := false }
    else { s with idsMode := s.request }
  else s

/-- A step of the config server. -/
def stepConfig (request : Bytes) (succeeds : Bool) : Threads :=
  match s.phase .config with
  | .away =>
    if s.gStop then s.goto .config .gone
    else if (request ≠ builtin ∧ request ≠ suricata) ∨ request = s.idsMode then s
    else { s.goto .config .locking with request := request }
  | .locking => s.lock .config
  | .teardown => s.stopTailer .config
  | .joining =>
    if s.tailer = some .done then { s.goto .config .finishing with tailer := none } else s
  | .finishing => (s.restart succeeds).unlock .config .away
  | .gone => s

/-- A step of the main thread, whose loop waits for `g_stop`. -/
def stepMain : Threads :=
  match s.phase .main with
  | .away => if s.gStop then s.goto .main .locking else s
  | .locking => s.lock .main
  | .teardown => s.stopTailer .main
  | .joining => if s.tailer = some .done then s.goto .main .finishing else s
  | .finishing => s.unlock .main .gone
  | .gone => s

/-- A step of the tailer. -/
def stepTailer (line : Bool) : Threads :=
  match s.tailer with
  | none => s
  | some .checking => { s with tailer := some (if s.stop then .done else .draining) }
  | some .draining => { s with tailer := some (if line then .locking else .checking) }
  | some .locking =>
    if s.owner = none then { s with owner := some .tailer, tailer := some .working } else s
  | some .working => { s with owner := none, tailer := some .draining }
  | some .done => s

/-- One action. -/
def step : Action → Threads
  | .signal => { s with gStop := true }
  | .config request succeeds => s.stepConfig request succeeds
  | .main => s.stepMain
  | .tailer line => s.stepTailer line

end Threads

/-- The threads under any interleaving of their steps. -/
def interleaving : Machine Threads Action Unit where
  step := fun s a => (s.step a, ())

/-- The state when the last of the threads starts. -/
def Threads.boot (tailer : Bool) (idsMode : Bytes) : Threads where
  owner := none
  phase := fun _ => .away
  tailer := if tailer then some .checking else none
  stop := false
  gStop := false
  idsMode := idsMode
  request := []

/-- A thread that holds the mutex is joining the tailer, which waits for the
mutex. -/
def Deadlocked (s : Threads) : Prop :=
  ∃ j, s.owner = some (.joiner j) ∧ s.phase j = .joining ∧ s.tailer = some .locking

/-- The tailer does not wait for the mutex when a joiner sets out to join it,
and brings no line to the mutex while it is being joined. -/
def Conforms (s : Threads) : Action → Prop
  | .signal => True
  | .config _ _ => s.phase .config = .teardown → s.tailer ≠ some .locking
  | .main => s.phase .main = .teardown → s.tailer ≠ some .locking
  | .tailer line => s.tailer = some .draining → line = true → ∀ j, s.phase j ≠ .joining

/-- The phases in which a joiner holds the mutex. -/
def Phase.holds : Phase → Bool
  | .teardown | .joining | .finishing => true
  | _ => false

/-- The mutex is held by the thread that is in its critical section. -/
structure Exclusive (s : Threads) : Prop where
  /-- The joiners. -/
  joiner : ∀ j, s.owner = some (.joiner j) ↔ (s.phase j).holds = true
  /-- The tailer. -/
  tailer : s.owner = some .tailer ↔ s.tailer = some .working

/-- What a step of a joiner does, as far as mutex and tailer are concerned. -/
inductive Move (s : Threads) (j : Joiner) : Threads → Prop
  /-- It waits, or has nothing to do. -/
  | stay (hp : s.phase j ≠ .teardown) : Move s j s
  /-- It moves outside the critical section. -/
  | pass (p : Phase) (request : Bytes) (hp : (s.phase j).holds = false) (hnew : p.holds = false) :
    Move s j { s.goto j p with request := request }
  /-- It locks the mutex, or waits for it. -/
  | lock (hp : s.phase j = .locking) : Move s j (s.lock j)
  /-- It stops the tailer. -/
  | stop (hp : s.phase j = .teardown) : Move s j (s.stopTailer j)
  /-- It has joined the tailer, and may drop it. -/
  | join (t : Option TailerPhase) (hp : s.phase j = .joining) (hdone : s.tailer = some .done)
    (ht : t = none ∨ t = some .done) : Move s j { s.goto j .finishing with tailer := t }
  /-- It unlocks the mutex, and may have started a new engine. -/
  | leave (p : Phase) (succeeds : Bool) (hp : s.phase j = .finishing) (hnew : p.holds = false) :
    Move s j ((s.restart succeeds).unlock j p)

section moves

variable (s : Threads)

theorem stepConfig_move (request : Bytes) (succeeds : Bool) :
    Move s .config (s.stepConfig request succeeds) := by
  unfold Threads.stepConfig
  cases hp : s.phase .config with
  | away =>
    have hout : (s.phase .config).holds = false := by rw [hp]; rfl
    dsimp only
    split
    · exact .pass .gone s.request hout rfl
    · split
      · exact .stay (by rw [hp]; decide)
      · exact .pass .locking request hout rfl
  | locking => exact .lock hp
  | teardown => exact .stop hp
  | joining =>
    dsimp only
    split
    · next hdone => exact .join none hp hdone (.inl rfl)
    · exact .stay (by rw [hp]; decide)
  | finishing => exact .leave .away succeeds hp rfl
  | gone => exact .stay (by rw [hp]; decide)

theorem stepMain_move : Move s .main s.stepMain := by
  unfold Threads.stepMain
  cases hp : s.phase .main with
  | away =>
    dsimp only
    split
    · exact .pass .locking s.request (by rw [hp]; rfl) rfl
    · exact .stay (by rw [hp]; decide)
  | locking => exact .lock hp
  | teardown => exact .stop hp
  | joining =>
    dsimp only
    split
    · next hdone => exact .join s.tailer hp hdone (.inr hdone)
    · exact .stay (by rw [hp]; decide)
  | finishing => exact .leave .gone false hp rfl
  | gone => exact .stay (by rw [hp]; decide)

end moves

section exclusion

variable {s : Threads}

/-- Two joiners never hold the mutex together. -/
theorem Exclusive.eq_of_holds (h : Exclusive s) {j j' : Joiner} (hj : (s.phase j).holds = true)
    (hj' : (s.phase j').holds = true) : j = j' := by
  have ho := (h.joiner j).mpr hj
  rw [(h.joiner j').mpr hj'] at ho
  cases ho
  rfl

/-- Moving a joiner within or outside its critical section. -/
theorem Exclusive.goto (h : Exclusive s) {j : Joiner} {p : Phase}
    (hp : p.holds = (s.phase j).holds) : Exclusive (s.goto j p) where
  joiner := by
    intro j'
    change s.owner = _ ↔ (Function.update s.phase j p j').holds = true
    by_cases hj : j' = j
    · rw [hj, Function.update_self, hp]
      exact h.joiner j
    · rw [Function.update_of_ne hj]
      exact h.joiner j'
  tailer := h.tailer

/-- Locking keeps the mutex with its holder. -/
theorem Exclusive.lock (h : Exclusive s) (j : Joiner) : Exclusive (s.lock j) := by
  unfold Threads.lock
  split
  · next ho =>
    constructor
    · intro j'
      change some (Owner.joiner j) = some (.joiner j') ↔
        (Function.update s.phase j .teardown j').holds = true
      by_cases hjj : j' = j
      · rw [hjj, Function.update_self]
        exact iff_of_true rfl rfl
      · rw [Function.update_of_ne hjj]
        have hnot : ¬(s.phase j').holds = true := by
          intro hold
          rw [(h.joiner j').mpr hold] at ho
          cases ho
        exact iff_of_false (fun he => hjj (by cases he; rfl)) hnot
    · change some (Owner.joiner j) = some .tailer ↔ s.tailer = some .working
      refine iff_of_false (fun he => by cases he) ?_
      intro hw
      rw [h.tailer.mpr hw] at ho
      cases ho
  · exact h

/-- Unlocking frees the mutex. -/
theorem Exclusive.unlock (h : Exclusive s) {j : Joiner} {p : Phase} (hj : (s.phase j).holds = true)
    (hp : p.holds = false) : Exclusive (s.unlock j p) where
  joiner := by
    intro j'
    change none = some (Owner.joiner j') ↔ (Function.update s.phase j p j').holds = true
    refine iff_of_false (fun he => by cases he) ?_
    by_cases hjj : j' = j
    · rw [hjj, Function.update_self, hp]
      exact Bool.false_ne_true
    · rw [Function.update_of_ne hjj]
      intro hold
      exact hjj (h.eq_of_holds hold hj)
  tailer := by
    change none = some Owner.tailer ↔ s.tailer = some .working
    refine iff_of_false (fun he => by cases he) ?_
    intro hw
    have ho := h.tailer.mpr hw
    rw [(h.joiner j).mpr hj] at ho
    cases ho

/-- A tailer outside the mutex, or none, in place of another. -/
theorem Exclusive.setTailer (h : Exclusive s) (hs : s.tailer ≠ some .working)
    {t : Option TailerPhase} (ht : t ≠ some .working) : Exclusive { s with tailer := t } where
  joiner := h.joiner
  tailer := iff_of_false (fun ho => hs (h.tailer.mp ho)) ht

/-- The start of a new engine happens in the critical section. -/
theorem Exclusive.restart (h : Exclusive s) (hs : s.tailer ≠ some .working) (succeeds : Bool) :
    Exclusive (s.restart succeeds) := by
  unfold Threads.restart
  split
  · split
    · exact ⟨h.joiner, iff_of_false (fun ho => hs (h.tailer.mp ho)) (fun ht => by cases ht)⟩
    · exact ⟨h.joiner, h.tailer⟩
  · exact h

/-- A joiner in its critical section keeps the tailer out of the mutex. -/
theorem Exclusive.tailer_ne_working (h : Exclusive s) {j : Joiner}
    (hj : (s.phase j).holds = true) : s.tailer ≠ some .working := by
  intro hw
  have ho := h.tailer.mpr hw
  rw [(h.joiner j).mpr hj] at ho
  cases ho

/-- Stopping the tailer happens in the critical section. -/
theorem Exclusive.stopTailer (h : Exclusive s) {j : Joiner} (hj : (s.phase j).holds = true) :
    Exclusive (s.stopTailer j) := by
  unfold Threads.stopTailer
  split
  · exact h.goto (hj.symm ▸ rfl)
  · have hg : Exclusive (s.goto j .joining) := h.goto (hj.symm ▸ rfl)
    exact ⟨hg.joiner, hg.tailer⟩

/-- A step of a joiner keeps the mutex with the thread in its critical section. -/
theorem Exclusive.move (h : Exclusive s) {j : Joiner} {s' : Threads} (hm : Move s j s') :
    Exclusive s' := by
  cases hm with
  | stay hp => exact h
  | pass p request hp hnew =>
    have hg : Exclusive (s.goto j p) := h.goto (hnew.trans hp.symm)
    exact ⟨hg.joiner, hg.tailer⟩
  | lock hp => exact h.lock j
  | stop hp => exact h.stopTailer (by rw [hp]; rfl)
  | join t hp hdone ht =>
    have hg : Exclusive (s.goto j .finishing) := h.goto (by rw [hp]; rfl)
    have hne : (s.goto j .finishing).tailer ≠ some .working := by
      change s.tailer ≠ some .working
      rw [hdone]
      decide
    exact hg.setTailer hne (by rcases ht with rfl | rfl <;> decide)
  | leave p succeeds hp hnew =>
    have hholds : (s.phase j).holds = true := by rw [hp]; rfl
    have hr := h.restart (h.tailer_ne_working hholds) succeeds
    have hphase : (s.restart succeeds).phase = s.phase := by
      unfold Threads.restart
      split
      · split <;> rfl
      · rfl
    exact hr.unlock (by rw [hphase]; exact hholds) hnew

theorem Exclusive.stepTailer (h : Exclusive s) (line : Bool) : Exclusive (s.stepTailer line) := by
  unfold Threads.stepTailer
  cases ht : s.tailer with
  | none => exact h
  | some phase =>
    cases phase with
    | checking => exact h.setTailer (by rw [ht]; decide) (by cases s.stop <;> decide)
    | draining => exact h.setTailer (by rw [ht]; decide) (by cases line <;> decide)
    | locking =>
      dsimp only
      split
      · next ho =>
        constructor
        · intro j
          change some Owner.tailer = some (.joiner j) ↔ (s.phase j).holds = true
          refine iff_of_false (fun he => by cases he) ?_
          intro hold
          rw [(h.joiner j).mpr hold] at ho
          cases ho
        · exact iff_of_true rfl rfl
      · exact h
    | working =>
      have ho := h.tailer.mpr ht
      constructor
      · intro j
        change none = some (Owner.joiner j) ↔ (s.phase j).holds = true
        refine iff_of_false (fun he => by cases he) ?_
        intro hold
        rw [(h.joiner j).mpr hold] at ho
        cases ho
      · exact iff_of_false (fun he => by cases he) (fun ht => by cases ht)
    | done => exact h

/-- Every action keeps the mutex with the thread in its critical section. -/
theorem Exclusive.step (h : Exclusive s) (a : Action) : Exclusive (s.step a) := by
  cases a with
  | signal => exact ⟨h.joiner, h.tailer⟩
  | config request succeeds => exact h.move (stepConfig_move s request succeeds)
  | main => exact h.move (stepMain_move s)
  | tailer line => exact h.stepTailer line

theorem exclusive_boot (tailer : Bool) (idsMode : Bytes) : Exclusive (.boot tailer idsMode) where
  joiner := fun j => iff_of_false (fun he => by cases he) Bool.false_ne_true
  tailer := iff_of_false (fun he => by cases he) (by cases tailer <;> (intro ht; cases ht))

end exclusion

section deadlock

variable {s : Threads}

/-- Moving a joiner to anything but the join does not close the cycle. -/
theorem deadlocked_of_goto {j : Joiner} {p : Phase} (hp : p ≠ .joining)
    (hd : Deadlocked (s.goto j p)) : Deadlocked s := by
  rcases hd with ⟨j', ho, hj, ht⟩
  change Function.update s.phase j p j' = .joining at hj
  by_cases hjj : j' = j
  · rw [hjj, Function.update_self] at hj
    exact absurd hj hp
  · rw [Function.update_of_ne hjj] at hj
    exact ⟨j', ho, hj, ht⟩

/-- Locking does not close the cycle. -/
theorem deadlocked_of_lock {j : Joiner} (hd : Deadlocked (s.lock j)) : Deadlocked s := by
  unfold Threads.lock at hd
  split at hd
  · rcases hd with ⟨j', ho, hj, -⟩
    change some (Owner.joiner j) = some (.joiner j') at ho
    change Function.update s.phase j .teardown j' = .joining at hj
    cases ho
    rw [Function.update_self] at hj
    cases hj
  · exact hd

/-- Only a join that begins while the tailer waits closes the cycle. -/
theorem deadlocked_stopTailer_iff (h : Exclusive s) {j : Joiner} (hj : (s.phase j).holds = true) :
    Deadlocked (s.stopTailer j) ↔ s.tailer = some .locking := by
  unfold Threads.stopTailer
  constructor
  · intro hd
    split at hd
    · next hn =>
      rcases hd with ⟨-, -, -, ht⟩
      change s.tailer = some .locking at ht
      exact ht
    · rcases hd with ⟨-, -, -, ht⟩
      exact ht
  · intro ht
    rw [if_neg (by rw [ht]; exact Option.some_ne_none _)]
    refine ⟨j, (h.joiner j).mpr hj, ?_, ht⟩
    change Function.update s.phase j .joining j = .joining
    exact Function.update_self _ _ _

/-- A step of a joiner closes the cycle exactly when it begins to join a waiting
tailer. -/
theorem deadlocked_move_iff (h : Exclusive s) (hs : ¬Deadlocked s) {j : Joiner} {s' : Threads}
    (hm : Move s j s') : Deadlocked s' ↔ s.phase j = .teardown ∧ s.tailer = some .locking := by
  cases hm with
  | stay hp => exact iff_of_false hs (fun hc => hp hc.1)
  | pass p request hp hnew =>
    refine iff_of_false (fun hd => ?_) (fun hc => by rw [hc.1] at hp; cases hp)
    have hg : Deadlocked (s.goto j p) := hd
    refine hs (deadlocked_of_goto (fun hj => ?_) hg)
    rw [hj] at hnew
    cases hnew
  | lock hp =>
    exact iff_of_false (fun hd => hs (deadlocked_of_lock hd))
      (fun hc => by rw [hp] at hc; cases hc.1)
  | stop hp =>
    have hj : (s.phase j).holds = true := by rw [hp]; rfl
    exact (deadlocked_stopTailer_iff h hj).trans (and_iff_right hp).symm
  | join t hp hdone ht =>
    refine iff_of_false ?_ (fun hc => by rw [hp] at hc; cases hc.1)
    rintro ⟨-, -, -, hlock⟩
    change t = some .locking at hlock
    rw [hlock] at ht
    rcases ht with ht | ht <;> cases ht
  | leave p succeeds hp hnew =>
    refine iff_of_false ?_ (fun hc => by rw [hp] at hc; cases hc.1)
    rintro ⟨_, ho, -, -⟩
    cases ho

/-- A step of the tailer closes the cycle exactly when it brings a line to the
mutex while it is being joined. -/
theorem deadlocked_stepTailer_iff (h : Exclusive s) (hs : ¬Deadlocked s) (line : Bool) :
    Deadlocked (s.stepTailer line) ↔
      s.tailer = some .draining ∧ line = true ∧ ∃ j, s.phase j = .joining := by
  unfold Threads.stepTailer
  cases ht : s.tailer with
  | none => exact iff_of_false hs (fun hc => by cases hc.1)
  | some phase =>
    cases phase with
    | draining =>
      constructor
      · rintro ⟨j, -, hj, hlock⟩
        cases line with
        | false => cases hlock
        | true => exact ⟨rfl, rfl, j, hj⟩
      · rintro ⟨-, rfl, j, hj⟩
        exact ⟨j, (h.joiner j).mpr (by rw [hj]; rfl), hj, rfl⟩
    | checking =>
      refine iff_of_false ?_ (fun hc => by cases hc.1)
      rintro ⟨-, -, -, hlock⟩
      cases hst : s.stop <;> simp [hst] at hlock
    | locking =>
      refine iff_of_false ?_ (fun hc => by cases hc.1)
      dsimp only
      split
      · rintro ⟨-, -, -, hlock⟩
        cases hlock
      · exact hs
    | working =>
      refine iff_of_false ?_ (fun hc => by cases hc.1)
      rintro ⟨-, -, -, hlock⟩
      cases hlock
    | done => exact iff_of_false hs (fun hc => by cases hc.1)

/-- An action closes the cycle exactly when it does not conform. -/
theorem deadlocked_step_iff (h : Exclusive s) (hs : ¬Deadlocked s) (a : Action) :
    Deadlocked (s.step a) ↔ ¬Conforms s a := by
  cases a with
  | signal => exact iff_of_false hs (not_not.mpr trivial)
  | config request succeeds =>
    refine (deadlocked_move_iff h hs (stepConfig_move s request succeeds)).trans ?_
    simp [Conforms]
  | main =>
    refine (deadlocked_move_iff h hs (stepMain_move s)).trans ?_
    simp [Conforms]
  | tailer line =>
    refine (deadlocked_stepTailer_iff h hs line).trans ?_
    simp [Conforms]

/-- A joiner outside the cycle moves without opening it. -/
theorem Deadlocked.goto (hd : Deadlocked s) {j : Joiner} (hj : s.phase j ≠ .joining) (p : Phase) :
    Deadlocked (s.goto j p) := by
  rcases hd with ⟨j', ho, hj', ht⟩
  have hne : j' ≠ j := by
    rintro rfl
    exact hj hj'
  refine ⟨j', ho, ?_, ht⟩
  change Function.update s.phase j p j' = .joining
  rw [Function.update_of_ne hne]
  exact hj'

theorem Deadlocked.lock (hd : Deadlocked s) (j : Joiner) : Deadlocked (s.lock j) := by
  have ho : s.owner ≠ none := by
    rcases hd with ⟨j', ho, -, -⟩
    rw [ho]
    exact Option.some_ne_none _
  rw [Threads.lock, if_neg ho]
  exact hd

theorem Deadlocked.tailer_locking (hd : Deadlocked s) : s.tailer = some .locking := by
  rcases hd with ⟨j, -, -, ht⟩
  exact ht

/-- The one joiner in its critical section is the one that joins. -/
theorem Deadlocked.joining_of_holds (h : Exclusive s) (hd : Deadlocked s) {j : Joiner}
    (hj : (s.phase j).holds = true) : s.phase j = .joining := by
  rcases hd with ⟨j', -, hj', -⟩
  rw [h.eq_of_holds hj (by rw [hj']; rfl : (s.phase j').holds = true)]
  exact hj'

/-- A step of a joiner leaves the cycle closed: the one in its critical section
waits for a tailer that is not done. -/
theorem Deadlocked.move (h : Exclusive s) (hd : Deadlocked s) {j : Joiner} {s' : Threads}
    (hm : Move s j s') : Deadlocked s' := by
  cases hm with
  | stay hp => exact hd
  | pass p request hp hnew =>
    have hj : s.phase j ≠ .joining := by
      intro hj
      rw [hj] at hp
      cases hp
    exact hd.goto hj p
  | lock hp => exact hd.lock j
  | stop hp =>
    have hj := hd.joining_of_holds h (j := j) (by rw [hp]; rfl)
    rw [hp] at hj
    cases hj
  | join t hp hdone ht =>
    have hlock := hd.tailer_locking
    rw [hdone] at hlock
    cases hlock
  | leave p succeeds hp hnew =>
    have hj := hd.joining_of_holds h (j := j) (by rw [hp]; rfl)
    rw [hp] at hj
    cases hj

/-- The cycle stays closed: neither of its threads can move, and no other can
take the mutex. -/
theorem Deadlocked.step (h : Exclusive s) (hd : Deadlocked s) (a : Action) :
    Deadlocked (s.step a) := by
  cases a with
  | signal => exact hd
  | config request succeeds => exact hd.move h (stepConfig_move s request succeeds)
  | main => exact hd.move h (stepMain_move s)
  | tailer line =>
    have ho : s.owner ≠ none := by
      rcases hd with ⟨j, ho, -, -⟩
      rw [ho]
      exact Option.some_ne_none _
    change Deadlocked (s.stepTailer line)
    unfold Threads.stepTailer
    rw [hd.tailer_locking]
    dsimp only
    rw [if_neg ho]
    exact hd

end deadlock

section interleavings

/-- The threads after some actions of an interleaving. -/
def stateAt (start : Threads) (actions : ℕ → Action) (n : ℕ) : Threads :=
  interleaving.stateAt start actions n

theorem exclusive_stateAt {start : Threads} (h : Exclusive start) (actions : ℕ → Action) (n : ℕ) :
    Exclusive (stateAt start actions n) :=
  interleaving.invariant_of_step h (fun _ a hs => hs.step a) n

/-- From a booted agent no interleaving reaches the deadlock exactly when every
action conforms; and a deadlock that is reached stays. -/
theorem deadlock_free_iff (tailer : Bool) (idsMode : Bytes) (actions : ℕ → Action) :
    ((∀ n, ¬Deadlocked (stateAt (.boot tailer idsMode) actions n)) ↔
      ∀ n, Conforms (stateAt (.boot tailer idsMode) actions n) (actions n)) ∧
      ∀ m n, m ≤ n → Deadlocked (stateAt (.boot tailer idsMode) actions m) →
        Deadlocked (stateAt (.boot tailer idsMode) actions n) := by
  have hex := exclusive_stateAt (exclusive_boot tailer idsMode) actions
  refine ⟨⟨?_, ?_⟩, ?_⟩
  · intro hfree n
    by_contra hc
    exact hfree (n + 1) ((deadlocked_step_iff (hex n) (hfree n) (actions n)).mpr hc)
  · intro hc n
    induction n with
    | zero =>
      rintro ⟨j, ho, -, -⟩
      cases ho
    | succ n ih =>
      intro hd
      exact (deadlocked_step_iff (hex n) ih (actions n)).mp hd (hc n)
  · intro m n hmn hd
    induction n, hmn using Nat.le_induction with
    | base => exact hd
    | succ n _ ih => exact ih.step (hex n) (actions n)

end interleavings

/-- A line is in flight when a swap to the adapter is requested. -/
def lineInFlight : List Action :=
  [.tailer false, .tailer true, .config suricata true, .config suricata true,
    .config suricata true]

/-- The config server takes the mutex while the line is on its way to it, and
joins the tailer that waits for the mutex. -/
theorem lineInFlight_deadlocked : Deadlocked
    (stateAt (.boot true builtin) (fun n => lineInFlight.getD n .signal) 5) :=
  ⟨.config, by decide, by decide, by decide⟩

end Dlads.SwapLocking
