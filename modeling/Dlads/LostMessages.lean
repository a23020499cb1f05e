import Dlads.AlertPublishing
import Mathlib.Algebra.BigOperators.Fin

/-!
# Messages lost by the publisher

Each call of `publish` is refused and counted, or its message is queued, taken
out of the queue, sent and counted. The exit of the send loop when `zmq_send`
fails is the one way out of this account: the message taken is gone, and no
counter knows of it. The calls are accounted for exactly as long as no
`zmq_send` fails.
-/

namespace Dlads.LostMessages

open ByteText StepMachine AlertPublishing

/-- Messages that the send loop holds: the one it sends, or counts. -/
def held (s : AlertPublisher) : ℕ :=
  match s.sender with
  | .sending _ | .counting => 1
  | .absent | .waiting | .exited => 0

/-- Calls of `publish` that a step makes. -/
def asks : Action → ℕ
  | .publish _ => 1
  | _ => 0

/-- Calls that a step refuses. -/
def refuses (s : AlertPublisher) : Action → ℕ
  | .publish _ => if queueCapacity ≤ s.queue.length then 1 else 0
  | _ => 0

/-- Messages that a step counts as sent. -/
def counts (s : AlertPublisher) : Action → ℕ
  | .send _ =>
    match s.sender with
    | .counting => 1
    | _ => 0
  | _ => 0

/-- Messages that a step takes with it when `zmq_send` fails. -/
def loses (s : AlertPublisher) : Action → ℕ
  | .send false => s.taken.length
  | _ => 0

/-- `zmq_send` fails on a message taken out of the queue. -/
def SendFails (s : AlertPublisher) (action : Action) : Prop := action = .send false ∧ s.taken ≠ []

/-- Calls of `publish` before step `n`. -/
def calls (actions : ℕ → Action) (n : ℕ) : ℕ := ∑ k ∈ Finset.range n, asks (actions k)

/-- What a quantity of the steps adds up to before step `n`. -/
def total (quantity : AlertPublisher → Action → ℕ) (actions : ℕ → Action) (n : ℕ) : ℕ :=
  ∑ k ∈ Finset.range n, quantity (stateAt actions k) (actions k)

/-- Each call is counted as sent or as dropped, or its message is queued or
held. -/
def Accounted (actions : ℕ → Action) (n : ℕ) : Prop :=
  UInt64.ofNat (calls actions n) = (stateAt actions n).sent + (stateAt actions n).dropped +
    UInt64.ofNat ((stateAt actions n).queue.length + held (stateAt actions n))

instance (actions : ℕ → Action) (n : ℕ) : Decidable (Accounted actions n) := by
  unfold Accounted
  infer_instance

section steps

variable {s : AlertPublisher}

/-- What a step does to the counters, and to what is queued or held. -/
structure Effect (s s' : AlertPublisher) (action : Action) : Prop where
  /-- A refusal is counted. -/
  dropped : s'.dropped = s.dropped + UInt64.ofNat (refuses s action)
  /-- A message sent is counted. -/
  sent : s'.sent = s.sent + UInt64.ofNat (counts s action)
  /-- What is queued or held changes by the call, the counts and the loss. -/
  balance : s'.queue.length + held s' + refuses s action + counts s action + loses s action =
    s.queue.length + held s + asks action

theorem add_ofNat_zero (a : UInt64) : a = a + UInt64.ofNat 0 := (UInt64.add_zero a).symm

theorem effect_publish (s : AlertPublisher) (json : Bytes) :
    Effect s (s.publish json) (.publish json) := by
  unfold AlertPublisher.publish
  split
  · next hfull =>
    have hrefuses : refuses s (.publish json) = 1 := if_pos hfull
    exact ⟨by rw [hrefuses]; rfl, add_ofNat_zero _, by rw [hrefuses]; rfl⟩
  · next hfull =>
    have hrefuses : refuses s (.publish json) = 0 := if_neg hfull
    refine ⟨by rw [hrefuses]; exact add_ofNat_zero _, add_ofNat_zero _, ?_⟩
    rw [hrefuses]
    simp only [held, asks, counts, loses, List.length_append, List.length_singleton]
    omega

/-- The send loop counts a message in the step after `zmq_send`. -/
theorem sent_sendLoop (s : AlertPublisher) (ok : Bool) :
    (s.sendLoop ok).sent = s.sent + UInt64.ofNat (counts s (.send ok)) := by
  unfold counts AlertPublisher.sendLoop
  cases hs : s.sender with
  | absent => exact add_ofNat_zero _
  | waiting =>
    cases s.queue with
    | nil =>
      dsimp only
      split
      · exact add_ofNat_zero _
      · exact add_ofNat_zero _
    | cons json rest => exact add_ofNat_zero _
  | sending json =>
    cases ok with
    | true => exact add_ofNat_zero _
    | false => exact add_ofNat_zero _
  | counting => rfl
  | exited => exact add_ofNat_zero _

/-- A message taken out of the queue is held until it is counted or lost. -/
theorem held_sendLoop (s : AlertPublisher) (ok : Bool) :
    (s.sendLoop ok).queue.length + held (s.sendLoop ok) + counts s (.send ok) +
      loses s (.send ok) = s.queue.length + held s := by
  have hloses : s.taken = [] → loses s (.send ok) = 0 := by
    intro h
    cases ok with
    | true => rfl
    | false => exact congrArg List.length h
  cases hs : s.sender with
  | absent =>
    rw [hloses (by rw [AlertPublisher.taken, hs]), sendLoop_absent hs]
    simp only [counts, hs, Nat.add_zero]
  | waiting =>
    rw [hloses (by rw [AlertPublisher.taken, hs])]
    cases hqueue : s.queue with
    | nil =>
      simp only [AlertPublisher.sendLoop, counts, held, hs, hqueue]
      split
      · rfl
      · simp [hs, hqueue]
    | cons json rest => simp [AlertPublisher.sendLoop, counts, held, hs, hqueue]
  | sending json =>
    cases ok with
    | true => simp [AlertPublisher.sendLoop, counts, held, loses, hs]
    | false => simp [AlertPublisher.sendLoop, AlertPublisher.taken, counts, held, loses, hs]
  | counting =>
    rw [hloses (by rw [AlertPublisher.taken, hs])]
    simp [AlertPublisher.sendLoop, counts, held, hs]
  | exited =>
    rw [hloses (by rw [AlertPublisher.taken, hs])]
    simp [AlertPublisher.sendLoop, counts, held, hs]

/-- The owner goes on without the counters, the queue or a message held. -/
theorem proceed_frame (h : Staged s) : s.proceed.dropped = s.dropped ∧ s.proceed.sent = s.sent ∧
    s.proceed.queue = s.queue ∧ held s.proceed = held s := by
  unfold AlertPublisher.proceed
  cases ho : s.owner with
  | spawning =>
    simp only [Staged, ho] at h
    simp [held, h.2]
  | joining =>
    cases hs : s.sender <;> simp [held, hs]
  | _ => exact ⟨rfl, rfl, rfl, rfl⟩

theorem Effect.of_frame {s' : AlertPublisher} {action : Action} (hasks : asks action = 0)
    (hrefuses : refuses s action = 0) (hcounts : counts s action = 0) (hloses : loses s action = 0)
    (h : s'.dropped = s.dropped ∧ s'.sent = s.sent ∧ s'.queue = s.queue ∧ held s' = held s) :
    Effect s s' action := by
  obtain ⟨hdropped, hsent, hqueue, hheld⟩ := h
  refine ⟨?_, ?_, ?_⟩
  · rw [hdropped, hrefuses]
    exact add_ofNat_zero _
  · rw [hsent, hcounts]
    exact add_ofNat_zero _
  · rw [hqueue, hheld, hasks, hrefuses, hcounts, hloses]

theorem effect_step (h : Staged s) (action : Action) : Effect s (s.step action) action := by
  cases action with
  | publish json => exact effect_publish s json
  | send ok =>
    have hdropped := (sendLoop_frame s ok).2.2.2.1
    exact ⟨hdropped.trans (add_ofNat_zero _), sent_sendLoop s ok, held_sendLoop s ok⟩
  | start opens =>
    refine .of_frame rfl rfl rfl rfl ?_
    simp only [AlertPublisher.step, AlertPublisher.start]
    split
    · exact ⟨rfl, rfl, rfl, rfl⟩
    · exact ⟨rfl, rfl, rfl, rfl⟩
  | stop =>
    refine .of_frame rfl rfl rfl rfl ?_
    simp only [AlertPublisher.step, AlertPublisher.stop]
    split
    · exact ⟨rfl, rfl, rfl, rfl⟩
    · exact ⟨rfl, rfl, rfl, rfl⟩
  | proceed => exact .of_frame rfl rfl rfl rfl (proceed_frame h)

/-- A step loses a message exactly if `zmq_send` fails on it. -/
theorem loses_eq_zero_iff (s : AlertPublisher) (action : Action) :
    loses s action = 0 ↔ ¬SendFails s action := by
  unfold loses SendFails
  split
  · simp
  · next hne =>
    simp only [true_iff]
    exact fun h => hne h.1

end steps

section runs

variable (actions : ℕ → Action) (n : ℕ)

/-- The account of a run: calls are refused, counted as sent, queued or held,
or lost. -/
theorem account_stateAt :
    (stateAt actions n).dropped = UInt64.ofNat (total refuses actions n) ∧
    (stateAt actions n).sent = UInt64.ofNat (total counts actions n) ∧
    (stateAt actions n).queue.length + held (stateAt actions n) + total refuses actions n +
      total counts actions n + total loses actions n = calls actions n := by
  induction n with
  | zero => exact ⟨rfl, rfl, rfl⟩
  | succ n ih =>
    obtain ⟨hdropped, hsent, hbalance⟩ := ih
    have heffect := effect_step (tallied_stateAt actions n).staged (actions n)
    have hstep : stateAt actions (n + 1) = (stateAt actions n).step (actions n) := rfl
    simp only [total, calls] at hdropped hsent hbalance ⊢
    rw [Finset.sum_range_succ, Finset.sum_range_succ, Finset.sum_range_succ,
      Finset.sum_range_succ, UInt64.ofNat_add, UInt64.ofNat_add, ← hdropped, ← hsent, hstep]
    refine ⟨heffect.dropped, heffect.sent, ?_⟩
    have := heffect.balance
    omega

/-- Nothing is lost exactly if no `zmq_send` fails. -/
theorem loses_total_iff : total loses actions n = 0 ↔
    ∀ k < n, ¬SendFails (stateAt actions k) (actions k) := by
  simp only [total, Finset.sum_eq_zero_iff, Finset.mem_range, loses_eq_zero_iff]

/-- What the counters and the queue lack of the calls is what was lost. -/
theorem calls_eq : UInt64.ofNat (calls actions n) =
    (stateAt actions n).sent + (stateAt actions n).dropped +
      UInt64.ofNat ((stateAt actions n).queue.length + held (stateAt actions n)) +
      UInt64.ofNat (total loses actions n) := by
  obtain ⟨hdropped, hsent, hbalance⟩ := account_stateAt actions n
  rw [hdropped, hsent, ← UInt64.ofNat_add, ← UInt64.ofNat_add, ← UInt64.ofNat_add, ← hbalance]
  congr 1
  omega

theorem accounted_iff : Accounted actions n ↔ UInt64.ofNat (total loses actions n) = 0 := by
  rw [Accounted, calls_eq]
  exact UInt64.add_eq_left

/-- A step loses one message at most. -/
theorem loses_cases (s : AlertPublisher) (action : Action) :
    loses s action = 0 ∨ UInt64.ofNat (loses s action) ≠ 0 := by
  unfold loses AlertPublisher.taken
  split
  · split
    · exact .inr (by rw [List.length_singleton]; decide)
    · exact .inl rfl
  · exact .inl rfl

/-- A call that neither counter knows of and that is neither queued nor held
is lost to a `zmq_send` that fails: a run up to a step accounts for all calls
exactly if none fails before it. While the counters have not wrapped, this is
so for the number of calls as it is. -/
theorem accounted_runs : ((∀ m ≤ n, Accounted actions m) ↔
      ∀ k < n, ¬SendFails (stateAt actions k) (actions k)) ∧
    (calls actions n < 2 ^ 64 →
      (calls actions n = (stateAt actions n).sent.toNat + (stateAt actions n).dropped.toNat +
          (stateAt actions n).queue.length + held (stateAt actions n) ↔
        ∀ k < n, ¬SendFails (stateAt actions k) (actions k))) := by
  constructor
  · constructor
    · intro h k hk
      have hnow := (accounted_iff actions k).mp (h k hk.le)
      have hnext := (accounted_iff actions (k + 1)).mp (h (k + 1) hk)
      rw [total, Finset.sum_range_succ, UInt64.ofNat_add, ← total, hnow, UInt64.zero_add] at hnext
      have hnone := (loses_cases (stateAt actions k) (actions k)).resolve_right (not_not.mpr hnext)
      exact (loses_eq_zero_iff _ _).mp hnone
    · intro h m hm
      rw [accounted_iff, (loses_total_iff actions m).mpr fun k hk => h k (by omega)]
      rfl
  · intro hfew
    obtain ⟨hdropped, hsent, hbalance⟩ := account_stateAt actions n
    have hsize : UInt64.size = 2 ^ 64 := rfl
    rw [← loses_total_iff, hdropped, hsent, UInt64.toNat_ofNat_of_lt' (by omega),
      UInt64.toNat_ofNat_of_lt' (by omega)]
    omega

end runs

theorem accounted_twoMessages : calls twoMessages 25 < 2 ^ 64 ∧
    calls twoMessages 25 = (stateAt twoMessages 25).sent.toNat +
      (stateAt twoMessages 25).dropped.toNat + (stateAt twoMessages 25).queue.length +
      held (stateAt twoMessages 25) := by
  have hfew : calls twoMessages 25 < 2 ^ 64 := by decide
  have hsend : ∀ k < 25, ¬SendFails (stateAt twoMessages k) (twoMessages k) :=
    fun k _ hfails => twoMessages_succeeds k hfails.1
  exact ⟨hfew, ((accounted_runs twoMessages 25).2 hfew).mpr hsend⟩

/-- The publisher is started and given a message that cannot be sent. -/
def brokenSocket : ℕ → Action
  | 0 => .start true
  | 4 => .publish (text "lost")
  | n => if n < 5 then .proceed else .send false

/-- The message is in neither counter, nor in the queue, nor held. -/
theorem brokenSocket_lost : calls brokenSocket 7 = 1 ∧ (stateAt brokenSocket 7).sent = 0 ∧
    (stateAt brokenSocket 7).dropped = 0 ∧ (stateAt brokenSocket 7).queue = [] ∧
    held (stateAt brokenSocket 7) = 0 ∧ ¬Accounted brokenSocket 7 := by
  decide

end Dlads.LostMessages
