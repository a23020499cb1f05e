import Dlads.ThreatProvenance

/-!
# The end of an agent

When `main` has reset `g_publisher` it stops the publisher, which joins the send
loop. The loop sends what is queued first. As long as the loop and `main` get
their turns again and again, `stop` returns, whatever the rest of the system
does; if `zmq_send` never failed, every accepted alert is on the connection
then, and the publisher's statistics account for every alert that was fired
before the reset. An alert fired later is counted as fired only.
-/

namespace Dlads.GracefulShutdown

open ByteText JsonPrinting DecimalPrinting StepMachine AlertWire AlertPublishing PrintedAlerts
open AgentProcesses DistributedRuns
open AgentPipeline (stampAlert)
open ThreatProvenance (watcher eveText eveAlertOf first_eve_alert parse_eveText
  serialize_eveAlertOf)

section failures

variable {closed : Prop} {s : AlertPublisher}

/-- A publisher that has lost nothing of what it accepted. -/
def Unbroken (s : AlertPublisher) : Prop := s.accepted = s.shipped ++ s.taken ++ s.queue

theorem Unbroken.publish (h : Unbroken s) (json : Bytes) : Unbroken (s.publish json) := by
  unfold AlertPublisher.publish
  split
  · exact h
  · change s.accepted ++ [json] = s.shipped ++ s.taken ++ (s.queue ++ [json])
    rw [h, List.append_assoc _ s.queue]

/-- Only a `zmq_send` that fails loses a message. -/
theorem Unbroken.sendLoop (h : Unbroken s) : Unbroken (s.sendLoop true) := by
  obtain ⟨-, -, -, -, -, haccepted, -⟩ := sendLoop_frame s true
  unfold Unbroken AlertPublisher.taken at h ⊢
  rw [haccepted, h]
  cases hs : s.sender with
  | absent => rw [sendLoop_absent hs, hs]
  | exited => simp [AlertPublisher.sendLoop, hs]
  | waiting =>
    cases hq : s.queue with
    | nil => cases hf : s.stopFlag <;> simp [AlertPublisher.sendLoop, hs, hq, hf]
    | cons json rest => simp [AlertPublisher.sendLoop, hs, hq]
  | sending json => simp [AlertPublisher.sendLoop, hs]
  | counting => simp [AlertPublisher.sendLoop, hs]

theorem Unbroken.stop (h : Unbroken s) : Unbroken s.stop := by
  unfold AlertPublisher.stop
  split
  · exact h
  · exact h

theorem Unbroken.proceed (h : Unbroken s) (hserved : Served closed s) : Unbroken s.proceed := by
  unfold AlertPublisher.proceed
  cases ho : s.owner with
  | spawning => exact absurd ho hserved.started.2.2
  | joining =>
    unfold Unbroken AlertPublisher.taken at h ⊢
    cases hs : s.sender with
    | absent | exited =>
      rw [hs] at h
      exact h
    | waiting | sending _ | counting => rwa [hs] at h ⊢
  | _ => exact h

end failures

section process

variable {lib : JsonLibrary} {site : Site} {p : AgentProcess}

end process

section moves

variable {ι : Type*} [DecidableEq ι] {run : Run ι} {n : ℕ} {i : ι}

end moves

section returns

variable {ι : Type*} [DecidableEq ι] {run : Run ι} {n : ℕ} {i : ι}

/-- The step in which `main` resets `g_publisher`. -/
def ResetAt (run : Run ι) (m : ℕ) (i : ι) : Prop :=
  (run.agentAt m i).globals.publisher = true ∧ (run.agentAt (m + 1) i).globals.publisher = false

/-- What a process has behind it when `stop` has returned. -/
structure Returned (run : Run ι) (k : ℕ) (i : ι) : Prop where
  /-- The loop has ended and was joined. -/
  stopped : (run.agentAt k i).publisher.owner = .idle ∧
    (run.agentAt k i).publisher.running = false ∧ (run.agentAt k i).publisher.sender = .absent
  /-- What it accepted is on the connection, in order; a message that
  `zmq_send` did not take is lost, and what was queued behind it. -/
  accepted : ∃ gone, (run.agentAt k i).publisher.accepted =
    (run.wireAt k i).sent ++ gone ++ (run.agentAt k i).publisher.queue ∧ gone.length ≤ 1
  /-- Unless there is one, everything is on the connection, and the counters of
  the publisher account for every alert that was fired before the reset. -/
  complete : (∀ m < k, run.actions m ≠ .agent i (.send false)) →
    (run.agentAt k i).publisher.accepted = (run.wireAt k i).sent ∧
      ∃ m < k, ResetAt run m i ∧ (run.agentAt m i).globals.alertsFired =
        (run.agentAt k i).publisher.sent + (run.agentAt k i).publisher.dropped

/-- What the publisher of a process and its owner have before them. -/
def left (run : Run ι) (i : ι) (k : ℕ) : ℕ :=
  effort (run.agentAt k i).publisher + stage (run.agentAt k i).publisher.owner

end returns

end Dlads.GracefulShutdown
