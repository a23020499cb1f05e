import Dlads.ByteText
import Dlads.StepMachine

/-!
# The alert publisher

Any number of threads call `publish`, which queues a serialized alert under
the mutex; the send loop takes one alert at a time under the mutex and sends
and counts it outside; one owner starts and stops the loop. A step is one
critical section, one call of `zmq_send`, one update of an atomic variable or
one part of `start` or `stop`. Beside its members the state records what was
accepted and sent, which no step reads.
-/

namespace Dlads.AlertPublishing

open ByteText StepMachine

/-- `QUEUE_CAPACITY`. -/
def queueCapacity : ℕ := 1024

/-- Where the thread of `send_loop` is. -/
inductive Sender
  /-- There is no thread. -/
  | absent
  /-- In `queue_cv_.wait`. -/
  | waiting
  /-- Before `zmq_send`, with the message taken out of the queue. -/
  | sending (json : Bytes)
  /-- Before `sent_.fetch_add`. -/
  | counting
  /-- Returned from `send_loop`, not joined yet. -/
  | exited

/-- Where the owner is. -/
inductive Owner
  /-- Not in a call. -/
  | idle
  /-- In `start`, before `stop_flag_.store(false)`. -/
  | resetting
  /-- In `start`, before `running_.store(true)`. -/
  | announcing
  /-- In `start`, before the thread is created. -/
  | spawning
  /-- In `stop`, before the critical section. -/
  | locking
  /-- In `stop`, at `send_thread_.join()`. -/
  | joining
  /-- In `stop`, before `running_.store(false)`. -/
  | closing
  deriving DecidableEq

/-- The publisher, and its history. -/
structure AlertPublisher where
  /-- `queue_`. -/
  queue : List Bytes
  /-- `stop_flag_`. -/
  stopFlag : Bool
  /-- `running_`. -/
  running : Bool
  /-- `dropped_`. -/
  dropped : UInt64
  /-- `sent_`. -/
  sent : UInt64
  /-- The send loop. -/
  sender : Sender
  /-- The owner. -/
  owner : Owner
  /-- The messages that `publish` has queued, in the order of its locks. -/
  accepted : List Bytes
  /-- How often `publish` has found the queue full. -/
  refused : ℕ
  /-- The messages that `zmq_send` has taken. -/
  shipped : List Bytes
  /-- What was accepted when `stop` was last called on a running publisher. -/
  atStop : List Bytes

/-- What happens next. -/
inductive Action
  /-- A thread calls `publish` on an alert with this text. -/
  | publish (json : Bytes)
  /-- The send loop takes a step, `zmq_send` succeeding or not. -/
  | send (ok : Bool)
  /-- The owner calls `start`, which can open its socket or not. -/
  | start (opens : Bool)
  /-- The owner calls `stop`. -/
  | stop
  /-- The owner goes on in its call. -/
  | proceed

/-- A publisher that was just constructed. -/
def AlertPublisher.init : AlertPublisher where
  queue := []
  stopFlag := false
  running := false
  dropped := 0
  sent := 0
  sender := .absent
  owner := .idle
  accepted := []
  refused := 0
  shipped := []
  atStop := []

namespace AlertPublisher

variable (s : AlertPublisher)

/-- The critical section of `publish`. -/
def publish (json : Bytes) : AlertPublisher :=
  if queueCapacity ≤ s.queue.length then
    { s with dropped := s.dropped + 1, refused := s.refused + 1 }
  else { s with queue := s.queue ++ [json], accepted := s.accepted ++ [json] }

/-- A step of `send_loop`. The predicate of the wait is tested under the mutex
under which the queue and the flag change. -/
def sendLoop (ok : Bool) : AlertPublisher :=
  match s.sender with
  | .waiting =>
    match s.queue with
    | [] => if s.stopFlag then { s with sender := .exited } else s
    | json :: rest => { s with queue := rest, sender := .sending json }
  | .sending json =>
    if ok then { s with shipped := s.shipped ++ [json], sender := .counting }
    else { s with sender := .exited }
  | .counting => { s with sent := s.sent + 1, sender := .waiting }
  | .absent | .exited => s

/-- The call of `start`: a running publisher and a failing socket end it. -/
def start (opens : Bool) : AlertPublisher :=
  if s.owner = .idle ∧ s.running = false ∧ opens = true then { s with owner := .resetting }
  else s

/-- The call of `stop`: a publisher that does not run ends it. -/
def stop : AlertPublisher :=
  if s.owner = .idle ∧ s.running = true then { s with owner := .locking, atStop := s.accepted }
  else s

/-- The owner goes on. -/
def proceed : AlertPublisher :=
  match s.owner with
  | .idle => s
  | .resetting => { s with stopFlag := false, owner := .announcing }
  | .announcing => { s with running := true, owner := .spawning }
  | .spawning => { s with sender := .waiting, owner := .idle }
  | .locking => { s with stopFlag := true, owner := .joining }
  | .joining =>
    match s.sender with
    | .absent | .exited => { s with sender := .absent, owner := .closing }
    | .waiting | .sending _ | .counting => s
  | .closing => { s with running := false, owner := .idle }

/-- A step of anyone. -/
def step : Action → AlertPublisher
  | .publish json => s.publish json
  | .send ok => s.sendLoop ok
  | .start opens => s.start opens
  | .stop => s.stop
  | .proceed => s.proceed

/-- The owner's next step returns from `stop`. -/
def returns : Action → Bool
  | .proceed => s.owner = .closing
  | _ => false

/-- The message taken out of the queue and not sent yet. -/
def taken : List Bytes :=
  match s.sender with
  | .sending json => [json]
  | _ => []

end AlertPublisher

/-- Publishing threads, send loop and owner, in any order; a step outputs
whether it returns from `stop`. -/
def machine : Machine AlertPublisher Action Bool where
  step := fun s action => (s.step action, s.returns action)

/-- The publisher before an action. -/
def stateAt (actions : ℕ → Action) (n : ℕ) : AlertPublisher := machine.stateAt .init actions n

section steps

variable {s : AlertPublisher}

/-- Where there is no thread, by the place of the owner. -/
def Staged (s : AlertPublisher) : Prop :=
  match s.owner with
  | .idle => s.running = false → s.sender = .absent
  | .resetting | .announcing | .closing => s.sender = .absent
  | .spawning => s.running = true ∧ s.sender = .absent
  | .locking | .joining => True

/-- Messages sent and not counted yet. -/
def AlertPublisher.uncounted (s : AlertPublisher) : UInt64 :=
  match s.sender with
  | .counting => 1
  | _ => 0

/-- Queue and counters, whatever `zmq_send` does. -/
structure Tallied (s : AlertPublisher) : Prop where
  /-- There is at most one send loop. -/
  staged : Staged s
  /-- The queue is bounded. -/
  bounded : s.queue.length ≤ queueCapacity
  /-- Each refusal is counted. -/
  dropped : s.dropped = UInt64.ofNat s.refused
  /-- Each message sent is counted, the last one in the step after. -/
  sent : s.sent + s.uncounted = UInt64.ofNat s.shipped.length

theorem ofNat_succ (n : ℕ) : UInt64.ofNat (n + 1) = UInt64.ofNat n + 1 := UInt64.ofNat_add n 1

theorem Tallied.publish (h : Tallied s) (json : Bytes) : Tallied (s.publish json) := by
  unfold AlertPublisher.publish
  split
  · refine ⟨h.staged, h.bounded, ?_, h.sent⟩
    change s.dropped + 1 = UInt64.ofNat (s.refused + 1)
    rw [h.dropped, ofNat_succ]
  · refine ⟨h.staged, ?_, h.dropped, h.sent⟩
    change (s.queue ++ [json]).length ≤ queueCapacity
    rw [List.length_append, List.length_singleton]
    omega

/-- The send loop neither starts nor stops anything. -/
theorem sendLoop_frame (s : AlertPublisher) (ok : Bool) :
    (s.sendLoop ok).owner = s.owner ∧ (s.sendLoop ok).running = s.running ∧
      (s.sendLoop ok).stopFlag = s.stopFlag ∧ (s.sendLoop ok).dropped = s.dropped ∧
      (s.sendLoop ok).refused = s.refused ∧ (s.sendLoop ok).accepted = s.accepted ∧
      (s.sendLoop ok).atStop = s.atStop := by
  unfold AlertPublisher.sendLoop
  split
  · split
    · split <;> exact ⟨rfl, rfl, rfl, rfl, rfl, rfl, rfl⟩
    · exact ⟨rfl, rfl, rfl, rfl, rfl, rfl, rfl⟩
  · split <;> exact ⟨rfl, rfl, rfl, rfl, rfl, rfl, rfl⟩
  · exact ⟨rfl, rfl, rfl, rfl, rfl, rfl, rfl⟩
  · exact ⟨rfl, rfl, rfl, rfl, rfl, rfl, rfl⟩
  · exact ⟨rfl, rfl, rfl, rfl, rfl, rfl, rfl⟩

theorem sendLoop_absent (h : s.sender = .absent) (ok : Bool) : s.sendLoop ok = s := by
  simp only [AlertPublisher.sendLoop, h]

theorem Staged.sendLoop (h : Staged s) (ok : Bool) : Staged (s.sendLoop ok) := by
  by_cases hs : s.sender = .absent
  · rw [sendLoop_absent hs]
    exact h
  · obtain ⟨howner, hrunning, -⟩ := sendLoop_frame s ok
    unfold Staged at h ⊢
    rw [howner, hrunning]
    cases ho : s.owner with
    | idle =>
      rw [ho] at h
      exact fun hr => absurd (h hr) hs
    | spawning =>
      rw [ho] at h
      exact absurd h.2 hs
    | locking => trivial
    | joining => trivial
    | _ =>
      rw [ho] at h
      exact absurd h hs

theorem Tallied.sendLoop (h : Tallied s) (ok : Bool) : Tallied (s.sendLoop ok) := by
  obtain ⟨-, -, -, hdropped, hrefused, -, -⟩ := sendLoop_frame s ok
  have hbounded := h.bounded
  have hsent := h.sent
  unfold AlertPublisher.uncounted at hsent
  refine ⟨h.staged.sendLoop ok, ?_, by rw [hdropped, hrefused, h.dropped], ?_⟩
  · unfold AlertPublisher.sendLoop
    split
    · split
      · split <;> exact hbounded
      · next hqueue =>
        rw [hqueue, List.length_cons] at hbounded
        exact Nat.le_of_succ_le hbounded
    · split <;> exact hbounded
    · exact hbounded
    · exact hbounded
    · exact hbounded
  · cases hs : s.sender with
    | absent =>
      rw [sendLoop_absent hs, AlertPublisher.uncounted]
      exact hsent
    | waiting =>
      rw [hs] at hsent
      cases hqueue : s.queue with
      | nil =>
        simp only [AlertPublisher.sendLoop, hs, hqueue]
        split
        · exact hsent
        · rw [AlertPublisher.uncounted, hs]
          exact hsent
      | cons json rest =>
        simp only [AlertPublisher.sendLoop, hs, hqueue]
        exact hsent
    | sending json =>
      rw [hs] at hsent
      cases ok with
      | true =>
        simp only [AlertPublisher.sendLoop, hs, if_true, AlertPublisher.uncounted]
        rw [List.length_append, List.length_singleton, ofNat_succ, ← hsent]
        exact congrArg (· + 1) (UInt64.add_zero s.sent).symm
      | false =>
        simp only [AlertPublisher.sendLoop, hs]
        exact hsent
    | counting =>
      rw [hs] at hsent
      simp only [AlertPublisher.sendLoop, hs, AlertPublisher.uncounted]
      rw [← hsent]
      exact UInt64.add_zero _
    | exited =>
      simp only [AlertPublisher.sendLoop, hs, AlertPublisher.uncounted]
      rw [hs] at hsent
      exact hsent

/-- The owner goes on. -/
theorem Tallied.proceed (h : Tallied s) : Tallied s.proceed := by
  have hs := h.staged
  cases ho : s.owner with
  | idle =>
    simp only [AlertPublisher.proceed, ho]
    exact h
  | resetting =>
    simp only [Staged, ho] at hs
    simp only [AlertPublisher.proceed, ho]
    exact ⟨hs, h.bounded, h.dropped, h.sent⟩
  | announcing =>
    simp only [Staged, ho] at hs
    simp only [AlertPublisher.proceed, ho]
    exact ⟨⟨rfl, hs⟩, h.bounded, h.dropped, h.sent⟩
  | spawning =>
    simp only [Staged, ho] at hs
    simp only [AlertPublisher.proceed, ho]
    have hsent := h.sent
    rw [AlertPublisher.uncounted, hs.2] at hsent
    exact ⟨fun hr => absurd (hs.1.symm.trans hr) (by decide), h.bounded, h.dropped, hsent⟩
  | locking =>
    simp only [AlertPublisher.proceed, ho]
    exact ⟨trivial, h.bounded, h.dropped, h.sent⟩
  | joining =>
    simp only [AlertPublisher.proceed, ho]
    have hsent := h.sent
    unfold AlertPublisher.uncounted at hsent
    split
    · next hthread =>
      rw [hthread] at hsent
      exact ⟨rfl, h.bounded, h.dropped, hsent⟩
    · next hthread =>
      rw [hthread] at hsent
      exact ⟨rfl, h.bounded, h.dropped, hsent⟩
    · exact h
    · exact h
    · exact h
  | closing =>
    simp only [Staged, ho] at hs
    simp only [AlertPublisher.proceed, ho]
    exact ⟨fun _ => hs, h.bounded, h.dropped, h.sent⟩

theorem Tallied.step (h : Tallied s) (action : Action) : Tallied (s.step action) := by
  cases action with
  | publish json => exact h.publish json
  | send ok => exact h.sendLoop ok
  | start opens =>
    simp only [AlertPublisher.step, AlertPublisher.start]
    split
    · next hc =>
      have hs := h.staged
      simp only [Staged, hc.1] at hs
      exact ⟨hs hc.2.1, h.bounded, h.dropped, h.sent⟩
    · exact h
  | stop =>
    simp only [AlertPublisher.step, AlertPublisher.stop]
    split
    · exact ⟨trivial, h.bounded, h.dropped, h.sent⟩
    · exact h
  | proceed => exact h.proceed

/-- The thread is in its loop. -/
def Sender.alive : Sender → Bool
  | .waiting | .sending _ | .counting => true
  | .absent | .exited => false

/-- The send loop ends only when it has sent what was accepted before the call
of `stop`. -/
def Serving (s : AlertPublisher) : Prop :=
  match s.owner with
  | .idle => s.running = true → s.stopFlag = false ∧ s.sender.alive = true
  | .resetting => True
  | .announcing | .spawning => s.stopFlag = false
  | .locking => s.stopFlag = false ∧ s.sender.alive = true
  | .joining => s.sender.alive = true ∨ s.atStop <+: s.shipped
  | .closing => s.atStop <+: s.shipped

/-- Messages while every `zmq_send` succeeds. -/
structure Ordered (s : AlertPublisher) : Prop where
  /-- No message is lost, doubled or overtaken. -/
  fifo : s.accepted = s.shipped ++ s.taken ++ s.queue
  /-- What was accepted stays accepted. -/
  atStop : s.atStop <+: s.accepted
  /-- The send loop serves. -/
  serving : Serving s

/-- A successful step of the send loop keeps every message in its place. -/
theorem fifo_sendLoop (h : s.accepted = s.shipped ++ s.taken ++ s.queue) :
    (s.sendLoop true).accepted =
      (s.sendLoop true).shipped ++ (s.sendLoop true).taken ++ (s.sendLoop true).queue := by
  unfold AlertPublisher.taken at h
  cases hs : s.sender with
  | absent =>
    rw [sendLoop_absent hs, AlertPublisher.taken]
    exact h
  | waiting =>
    rw [hs] at h
    cases hqueue : s.queue with
    | nil =>
      rw [hqueue] at h
      simp only [AlertPublisher.sendLoop, hs, hqueue]
      split
      · simpa [AlertPublisher.taken, hqueue] using h
      · simpa [AlertPublisher.taken, hs, hqueue] using h
    | cons json rest =>
      rw [hqueue] at h
      simpa [AlertPublisher.sendLoop, AlertPublisher.taken, hs, hqueue] using h
  | sending json =>
    rw [hs] at h
    simpa [AlertPublisher.sendLoop, AlertPublisher.taken, hs] using h
  | counting =>
    rw [hs] at h
    simpa [AlertPublisher.sendLoop, AlertPublisher.taken, hs] using h
  | exited =>
    rw [hs] at h
    simpa [AlertPublisher.sendLoop, AlertPublisher.taken, hs] using h

/-- What was sent stays sent. -/
theorem shipped_sendLoop (s : AlertPublisher) : s.shipped <+: (s.sendLoop true).shipped := by
  unfold AlertPublisher.sendLoop
  split
  · split
    · split <;> exact List.prefix_rfl
    · exact List.prefix_rfl
  · exact List.prefix_append _ _
  all_goals exact List.prefix_rfl

/-- A successful step leaves the loop only at an empty queue, and only when it
is to stop. -/
theorem alive_sendLoop (h : s.sender.alive = true) :
    (s.sendLoop true).sender.alive = true ∨
      s.stopFlag = true ∧ s.queue = [] ∧ s.taken = [] := by
  cases hs : s.sender with
  | absent => rw [hs] at h; cases h
  | waiting =>
    cases hqueue : s.queue with
    | nil =>
      cases hflag : s.stopFlag with
      | true => exact .inr ⟨rfl, rfl, by rw [AlertPublisher.taken, hs]⟩
      | false => exact .inl (by simp [AlertPublisher.sendLoop, hs, hqueue, hflag, Sender.alive])
    | cons json rest => exact .inl (by simp [AlertPublisher.sendLoop, hs, hqueue, Sender.alive])
  | sending json => exact .inl (by simp [AlertPublisher.sendLoop, hs, Sender.alive])
  | counting => exact .inl (by simp [AlertPublisher.sendLoop, hs, Sender.alive])
  | exited => rw [hs] at h; cases h

theorem Ordered.sendLoop (h : Ordered s) : Ordered (s.sendLoop true) := by
  obtain ⟨howner, hrunning, hflag, -, -, haccepted, hatStop⟩ := sendLoop_frame s true
  have hserving := h.serving
  refine ⟨fifo_sendLoop h.fifo, by rw [hatStop, haccepted]; exact h.atStop, ?_⟩
  unfold Serving at hserving ⊢
  rw [howner, hrunning, hflag, hatStop]
  have hstay : s.stopFlag = false → s.sender.alive = true →
      (s.sendLoop true).sender.alive = true := fun hf ha =>
    (alive_sendLoop ha).resolve_right fun hstop => absurd (hf.symm.trans hstop.1) (by decide)
  have hdone : s.atStop <+: s.shipped → s.atStop <+: (s.sendLoop true).shipped :=
    fun hp => hp.trans (shipped_sendLoop s)
  cases ho : s.owner with
  | idle =>
    rw [ho] at hserving
    exact fun hr => ⟨(hserving hr).1, hstay (hserving hr).1 (hserving hr).2⟩
  | resetting => trivial
  | announcing =>
    rw [ho] at hserving
    exact hserving
  | spawning =>
    rw [ho] at hserving
    exact hserving
  | locking =>
    rw [ho] at hserving
    exact ⟨hserving.1, hstay hserving.1 hserving.2⟩
  | joining =>
    rw [ho] at hserving
    rcases hserving with halive | hp
    · rcases alive_sendLoop halive with halive | ⟨-, hqueue, htaken⟩
      · exact .inl halive
      · have hall := h.fifo
        rw [hqueue, htaken, List.append_nil, List.append_nil] at hall
        exact .inr (hdone (hall ▸ h.atStop))
    · exact .inr (hdone hp)
  | closing =>
    rw [ho] at hserving
    exact hdone hserving

theorem Ordered.publish (h : Ordered s) (json : Bytes) : Ordered (s.publish json) := by
  unfold AlertPublisher.publish
  split
  · exact ⟨h.fifo, h.atStop, h.serving⟩
  · refine ⟨?_, h.atStop.trans (List.prefix_append _ _), h.serving⟩
    change s.accepted ++ [json] = s.shipped ++ s.taken ++ (s.queue ++ [json])
    rw [h.fifo, List.append_assoc _ s.queue]

/-- The owner starts a loop that serves, and closes one that has served. -/
theorem Ordered.proceed (h : Ordered s) (hstaged : Staged s) : Ordered s.proceed := by
  have hserving := h.serving
  have hfifo := h.fifo
  cases ho : s.owner with
  | idle =>
    simp only [AlertPublisher.proceed, ho]
    exact h
  | resetting =>
    simp only [AlertPublisher.proceed, ho]
    exact ⟨h.fifo, h.atStop, rfl⟩
  | announcing =>
    simp only [Serving, ho] at hserving
    simp only [AlertPublisher.proceed, ho]
    exact ⟨h.fifo, h.atStop, hserving⟩
  | spawning =>
    simp only [Serving, ho] at hserving
    simp only [Staged, ho] at hstaged
    rw [AlertPublisher.taken, hstaged.2] at hfifo
    simp only [AlertPublisher.proceed, ho]
    exact ⟨hfifo, h.atStop, fun _ => ⟨hserving, rfl⟩⟩
  | locking =>
    simp only [Serving, ho] at hserving
    simp only [AlertPublisher.proceed, ho]
    exact ⟨h.fifo, h.atStop, .inl hserving.2⟩
  | joining =>
    simp only [Serving, ho] at hserving
    simp only [AlertPublisher.proceed, ho]
    unfold AlertPublisher.taken at hfifo
    split
    · next hthread =>
      rw [hthread] at hserving hfifo
      exact ⟨hfifo, h.atStop, hserving.resolve_left (by decide)⟩
    · next hthread =>
      rw [hthread] at hserving hfifo
      exact ⟨hfifo, h.atStop, hserving.resolve_left (by decide)⟩
    all_goals exact h
  | closing =>
    simp only [AlertPublisher.proceed, ho]
    exact ⟨h.fifo, h.atStop, fun hr => by cases hr⟩

theorem Ordered.step (h : Ordered s) (hstaged : Staged s) {action : Action}
    (ha : action ≠ .send false) : Ordered (s.step action) := by
  cases action with
  | publish json => exact h.publish json
  | send ok =>
    cases ok with
    | true => exact h.sendLoop
    | false => exact absurd rfl ha
  | start opens =>
    simp only [AlertPublisher.step, AlertPublisher.start]
    split
    · exact ⟨h.fifo, h.atStop, trivial⟩
    · exact h
  | stop =>
    simp only [AlertPublisher.step, AlertPublisher.stop]
    split
    · next hc =>
      have hserving := h.serving
      simp only [Serving, hc.1] at hserving
      exact ⟨h.fifo, List.prefix_rfl, hserving hc.2⟩
    · exact h
  | proceed => exact h.proceed hstaged

end steps

section runs

/-- Queue and counters agree with the history in every state of every run. -/
theorem tallied_stateAt (actions : ℕ → Action) (n : ℕ) : Tallied (stateAt actions n) :=
  Machine.invariant_of_step ⟨fun _ => rfl, Nat.zero_le _, rfl, rfl⟩
    (fun _ action h => h.step action) n

/-- While every send succeeds, messages stay in order. -/
theorem ordered_stateAt {actions : ℕ → Action} (h : ∀ n, actions n ≠ .send false) (n : ℕ) :
    Ordered (stateAt actions n) := by
  induction n with
  | zero => exact ⟨rfl, List.prefix_rfl, fun hr => by cases hr⟩
  | succ n ih => exact ih.step (tallied_stateAt actions n).staged (h n)

/-- What the steps before step `n` add to a record, one after the other. -/
def history (part : AlertPublisher → Action → List Bytes) (actions : ℕ → Action) (n : ℕ) :
    List Bytes :=
  (List.range n).flatMap fun k => part (stateAt actions k) (actions k)

/-- The alert of a call of `publish`. -/
def publishes (_s : AlertPublisher) : Action → List Bytes
  | .publish json => [json]
  | _ => []

/-- The alert of a call that finds room in the queue. -/
def admits (s : AlertPublisher) : Action → List Bytes
  | .publish json => if queueCapacity ≤ s.queue.length then [] else [json]
  | _ => []

/-- The alert of a call that finds the queue full. -/
def rejects (s : AlertPublisher) : Action → List Bytes
  | .publish json => if queueCapacity ≤ s.queue.length then [json] else []
  | _ => []

/-- The message that `zmq_send` takes. -/
def ships (s : AlertPublisher) : Action → List Bytes
  | .send true => s.taken
  | _ => []

/-- `stop` is called on a running publisher. -/
def StopCalled (actions : ℕ → Action) (k : ℕ) : Prop :=
  actions k = .stop ∧ (stateAt actions k).owner = .idle ∧ (stateAt actions k).running = true

theorem history_succ (part : AlertPublisher → Action → List Bytes) (actions : ℕ → Action) (n : ℕ) :
    history part actions (n + 1) =
      history part actions n ++ part (stateAt actions n) (actions n) := by
  rw [history, history, List.range_succ, List.flatMap_append, List.flatMap_singleton]

/-- The send loop ships what `zmq_send` takes. -/
theorem shipped_eq (s : AlertPublisher) (ok : Bool) :
    (s.sendLoop ok).shipped = s.shipped ++ ships s (.send ok) := by
  unfold AlertPublisher.sendLoop ships AlertPublisher.taken
  cases hs : s.sender with
  | sending json =>
    cases ok with
    | true => rfl
    | false => exact (List.append_nil _).symm
  | waiting =>
    cases hqueue : s.queue with
    | nil => cases ok <;> dsimp only <;> split <;> exact (List.append_nil _).symm
    | cons json rest => cases ok <;> exact (List.append_nil _).symm
  | _ => cases ok <;> exact (List.append_nil _).symm

/-- What a step adds to the record of the state. -/
theorem step_records (s : AlertPublisher) (action : Action) :
    (s.step action).accepted = s.accepted ++ admits s action ∧
      (s.step action).refused = s.refused + (rejects s action).length ∧
      (s.step action).shipped = s.shipped ++ ships s action := by
  cases action with
  | publish json =>
    change (s.publish json).accepted = _ ∧ (s.publish json).refused = _ ∧
      (s.publish json).shipped = _
    unfold AlertPublisher.publish admits rejects
    split
    · exact ⟨(List.append_nil _).symm, rfl, (List.append_nil _).symm⟩
    · exact ⟨rfl, rfl, (List.append_nil _).symm⟩
  | send ok =>
    obtain ⟨-, -, -, -, hrefused, haccepted, -⟩ := sendLoop_frame s ok
    exact ⟨haccepted.trans (List.append_nil _).symm, hrefused, shipped_eq s ok⟩
  | start opens =>
    change (s.start opens).accepted = s.accepted ++ [] ∧ (s.start opens).refused = s.refused + 0 ∧
      (s.start opens).shipped = s.shipped ++ []
    rw [List.append_nil, List.append_nil]
    unfold AlertPublisher.start
    split <;> exact ⟨rfl, rfl, rfl⟩
  | stop =>
    change s.stop.accepted = s.accepted ++ [] ∧ s.stop.refused = s.refused + 0 ∧
      s.stop.shipped = s.shipped ++ []
    rw [List.append_nil, List.append_nil]
    unfold AlertPublisher.stop
    split <;> exact ⟨rfl, rfl, rfl⟩
  | proceed =>
    change s.proceed.accepted = s.accepted ++ [] ∧ s.proceed.refused = s.refused + 0 ∧
      s.proceed.shipped = s.shipped ++ []
    rw [List.append_nil, List.append_nil]
    unfold AlertPublisher.proceed
    split
    case h_6 => split <;> exact ⟨rfl, rfl, rfl⟩
    all_goals exact ⟨rfl, rfl, rfl⟩

/-- The record of a state is that of the calls before it. -/
theorem records_stateAt (actions : ℕ → Action) (n : ℕ) :
    (stateAt actions n).accepted = history admits actions n ∧
      (stateAt actions n).refused = (history rejects actions n).length ∧
      (stateAt actions n).shipped = history ships actions n := by
  induction n with
  | zero => exact ⟨rfl, rfl, rfl⟩
  | succ n ih =>
    obtain ⟨haccepted, hrefused, hshipped⟩ := step_records (stateAt actions n) (actions n)
    rw [history_succ, history_succ, history_succ, List.length_append, ← ih.1, ← ih.2.1, ← ih.2.2]
    exact ⟨haccepted, hrefused, hshipped⟩

/-- Each call of `publish` finds room or finds the queue full. -/
theorem length_publishes (actions : ℕ → Action) (n : ℕ) : (history publishes actions n).length =
    (history admits actions n).length + (history rejects actions n).length := by
  induction n with
  | zero => rfl
  | succ n ih =>
    have hone : ∀ s action, (publishes s action).length =
        (admits s action).length + (rejects s action).length := by
      intro s action
      cases action with
      | publish json =>
        change 1 = (if queueCapacity ≤ s.queue.length then [] else [json]).length +
          (if queueCapacity ≤ s.queue.length then [json] else []).length
        split <;> rfl
      | _ => rfl
    rw [history_succ, history_succ, history_succ, List.length_append, List.length_append,
      List.length_append, ih, hone]
    omega

/-- The owner is in a call of `stop`. -/
def Owner.stopping : Owner → Bool
  | .locking | .joining | .closing => true
  | .idle | .resetting | .announcing | .spawning => false

/-- A call of `stop` records what was accepted, and keeps the record until it
returns. -/
theorem atStop_step (s : AlertPublisher) (action : Action)
    (h : (s.step action).owner.stopping = true) :
    (action = .stop ∧ s.owner = .idle ∧ s.running = true ∧ (s.step action).atStop = s.accepted) ∨
      (s.owner.stopping = true ∧ (s.step action).atStop = s.atStop) := by
  cases action with
  | publish json =>
    have hframe : (s.publish json).owner = s.owner ∧ (s.publish json).atStop = s.atStop := by
      unfold AlertPublisher.publish
      split <;> exact ⟨rfl, rfl⟩
    exact .inr ⟨hframe.1 ▸ h, hframe.2⟩
  | send ok =>
    obtain ⟨howner, -, -, -, -, -, hatStop⟩ := sendLoop_frame s ok
    exact .inr ⟨howner ▸ h, hatStop⟩
  | start opens =>
    simp only [AlertPublisher.step, AlertPublisher.start] at h ⊢
    split at h
    · cases h
    · next hc => exact .inr ⟨h, by rw [if_neg hc]⟩
  | stop =>
    simp only [AlertPublisher.step, AlertPublisher.stop] at h ⊢
    split at h
    · next hc => exact .inl ⟨trivial, hc.1, hc.2, by rw [if_pos hc]⟩
    · next hc => exact .inr ⟨h, by rw [if_neg hc]⟩
  | proceed =>
    simp only [AlertPublisher.step, AlertPublisher.proceed] at h ⊢
    cases ho : s.owner with
    | locking => exact .inr ⟨rfl, rfl⟩
    | joining =>
      refine .inr ⟨rfl, ?_⟩
      dsimp only
      split <;> rfl
    | closing =>
      simp only [ho] at h
      cases h
    | _ =>
      simp only [ho] at h
      cases h

/-- In a call of `stop` the owner knows what was accepted before it. -/
theorem atStop_stateAt (actions : ℕ → Action) (n : ℕ)
    (h : (stateAt actions n).owner.stopping = true) :
    ∃ k, LastBefore (StopCalled actions) k n ∧
      (stateAt actions n).atStop = (stateAt actions k).accepted := by
  induction n with
  | zero => cases h
  | succ n ih =>
    rcases atStop_step (stateAt actions n) (actions n) h with
      ⟨hstop, hidle, hrunning, hrecord⟩ | ⟨hstopping, hrecord⟩
    · exact ⟨n, .self ⟨hstop, hidle, hrunning⟩, hrecord⟩
    · obtain ⟨k, hlast, hk⟩ := ih hstopping
      refine ⟨k, hlast.succ fun hcalled => ?_, hrecord.trans hk⟩
      rw [hcalled.2.1] at hstopping
      cases hstopping

end runs

/-- While every `zmq_send` succeeds, the queue is bounded; the messages sent, the
one taken and the queue are those of the calls of `publish` that found room, in
order; the calls that found the queue full are counted; and when `stop` returns,
everything accepted before its call has been sent. The counters then account for
all calls of `publish` but those whose messages came later and are queued, and
for all if there are none of these. -/
theorem fifo_publisher (actions : ℕ → Action) (hsend : ∀ n, actions n ≠ .send false) (n : ℕ) :
    (stateAt actions n).queue.length ≤ queueCapacity ∧
    history admits actions n = history ships actions n ++ (stateAt actions n).taken ++
      (stateAt actions n).queue ∧
    (stateAt actions n).dropped = UInt64.ofNat (history rejects actions n).length ∧
    (machine.outputAt .init actions n = true → ∃ k, LastBefore (StopCalled actions) k n ∧
      history admits actions k <+: history ships actions n ∧
      history admits actions n = history ships actions n ++ (stateAt actions n).queue ∧
      (stateAt actions n).sent + (stateAt actions n).dropped = UInt64.ofNat
        ((history ships actions n).length + (history rejects actions n).length) ∧
      (history admits actions n = history admits actions k →
        history ships actions n = history admits actions n ∧
        (stateAt actions n).sent + (stateAt actions n).dropped =
          UInt64.ofNat (history publishes actions n).length)) := by
  have htally := tallied_stateAt actions n
  have horder := ordered_stateAt hsend n
  obtain ⟨haccepted, hrefused, hshipped⟩ := records_stateAt actions n
  rw [← haccepted, ← hrefused, ← hshipped]
  refine ⟨htally.bounded, horder.fifo, htally.dropped, fun hreturn => ?_⟩
  have hclosing : (stateAt actions n).owner = .closing := by
    change (stateAt actions n).returns (actions n) = true at hreturn
    unfold AlertPublisher.returns at hreturn
    split at hreturn
    · simpa using hreturn
    · cases hreturn
  obtain ⟨k, hlast, hatStop⟩ := atStop_stateAt actions n (by rw [hclosing]; rfl)
  have hserving := horder.serving
  have hstaged := htally.staged
  simp only [Serving, hclosing] at hserving
  simp only [Staged, hclosing] at hstaged
  have hfifo := horder.fifo
  have hsent := htally.sent
  rw [AlertPublisher.taken, hstaged] at hfifo
  rw [AlertPublisher.uncounted, hstaged] at hsent
  have hcount : (stateAt actions n).sent + (stateAt actions n).dropped =
      UInt64.ofNat ((stateAt actions n).shipped.length + (stateAt actions n).refused) := by
    rw [UInt64.ofNat_add, ← hsent, htally.dropped]
    exact congrArg (· + _) (UInt64.add_zero _).symm
  rw [hatStop, (records_stateAt actions k).1] at hserving
  refine ⟨k, hlast, hserving, by simpa using hfifo, hcount, fun hnone => ?_⟩
  have hprefix : (stateAt actions n).shipped <+: (stateAt actions n).accepted :=
    ⟨_, by simpa using hfifo.symm⟩
  have hall : (stateAt actions n).shipped = (stateAt actions n).accepted :=
    hprefix.eq_of_length_le (hnone ▸ hserving).length_le
  refine ⟨hall, hcount.trans ?_⟩
  rw [hall, haccepted, hrefused, length_publishes]

/-- The publisher is started, given two messages and stopped with the first of
them in flight. -/
def twoMessages : ℕ → Action
  | 0 => .start true
  | 6 => .publish (text "first")
  | 7 => .publish (text "second")
  | 10 => .stop
  | n => if n % 2 = 0 then .send true else .proceed

theorem twoMessages_succeeds (n : ℕ) : twoMessages n ≠ .send false := by
  unfold twoMessages
  split
  all_goals try split
  all_goals simp

theorem fifo_publisher_twoMessages :
    machine.outputAt .init twoMessages 25 = true ∧
    history publishes twoMessages 25 = [text "first", text "second"] ∧
    history ships twoMessages 25 = history admits twoMessages 25 ∧
    (stateAt twoMessages 25).sent + (stateAt twoMessages 25).dropped = 2 := by
  have hreturn : machine.outputAt .init twoMessages 25 = true := by decide
  have hcalls : history publishes twoMessages 25 = [text "first", text "second"] := by decide
  obtain ⟨-, -, -, hstop⟩ := fifo_publisher twoMessages twoMessages_succeeds 25
  obtain ⟨k, hlast, -, -, -, hnone⟩ := hstop hreturn
  have hk : k = 10 := by
    have hcalled := hlast.2.1.1
    unfold twoMessages at hcalled
    split at hcalled
    case h_4 => rfl
    case h_5 => split at hcalled <;> cases hcalled
    all_goals cases hcalled
  obtain ⟨hall, hcount⟩ := hnone (by rw [hk]; decide +kernel)
  exact ⟨hreturn, hcalls, hall, hcount.trans (by rw [hcalls]; rfl)⟩

end Dlads.AlertPublishing
