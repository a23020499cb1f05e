import Dlads.DistributedRuns
import Dlads.ErasedInputs

/-!
# Processes and the pipeline

In a process the callback gets its alerts and publishes them one by one, while
the send loop, the heartbeats, the shutdown and the other processes go on. As
long as its engine is not swapped, what it has raised is all the same what the
pipeline, which takes a line in one step, returns on the lines that the
callback was called on, one after the other.
-/

namespace Dlads.ProcessPipeline

open ByteText Records YamlConfig DetectionRules RuleDriver AgentPipeline LineParsing StepMachine
open PrintedAlerts AgentProcesses DistributedRuns
open PublishedTexts (tailer)

/-- What the callback is called with. -/
abbrev Taken := Clock × Bytes × (Rule → Reading)

/-- The line that a step of a process hands to its callback. -/
def takes (p : AgentProcess) : AgentProcesses.Action → Option Taken
  | .line clock bytes readings =>
    if p.crashed = false ∧ p.ids = some .builtin ∧ p.pending = [] then
      some (clock, bytes, readings)
    else none
  | _ => none

section callback

/-- Globals that detection does not tell apart. -/
structure Agrees (g s : AgentState) : Prop where
  /-- The same ring. -/
  ring : g.ring = s.ring
  /-- The same engine. -/
  engine : g.engine = s.engine
  /-- The same counter. -/
  counter : g.counter = s.counter
  /-- The same counts of lines. -/
  lines : g.linesSeen = s.linesSeen ∧ g.linesParsed = s.linesParsed ∧
    g.parseFailures = s.parseFailures

variable {g s : AgentState}

/-- Detection gives the same on globals that agree, and they agree again. -/
theorem Agrees.detect (h : Agrees g s) (nodeId : Bytes) (parsed : Option LogEvent)
    (readings : Rule → Reading) :
    Agrees (detect nodeId parsed readings g).1 (detect nodeId parsed readings s).1 ∧
      (detect nodeId parsed readings g).2 = (detect nodeId parsed readings s).2 := by
  obtain ⟨hring, hengine, hcounter, hseen, hparsed, hfailures⟩ := h
  unfold AgentProcesses.detect
  cases parsed with
  | none =>
    exact ⟨⟨hring, hengine, hcounter, by rw [hseen], hparsed, by rw [hfailures]⟩, rfl⟩
  | some ev =>
    rw [hring, hengine, hcounter]
    cases s.engine with
    | none => exact ⟨⟨rfl, rfl, rfl, by rw [hseen], by rw [hparsed], hfailures⟩, rfl⟩
    | some engine => exact ⟨⟨rfl, rfl, rfl, by rw [hseen], by rw [hparsed], hfailures⟩, rfl⟩

/-- The pipeline's callback does what detection does. -/
theorem Agrees.onLine (h : Agrees g s) (hopen : s.publisher = true) (nodeId : Bytes)
    (parsed : Option LogEvent) (readings : Rule → Reading) :
    Agrees (AgentProcesses.detect nodeId parsed readings g).1
        (onLine nodeId parsed readings s).1 ∧
      (onLine nodeId parsed readings s).2 =
        (AgentProcesses.detect nodeId parsed readings g).2.map (stampAlert nodeId) ∧
      (onLine nodeId parsed readings s).1.publisher = true := by
  obtain ⟨hagrees, halerts⟩ := h.detect nodeId parsed readings
  obtain ⟨-, hpublisher, -⟩ := detect_counters nodeId parsed readings s
  rw [onLine_eq_detect, hopen, if_pos rfl, halerts]
  exact ⟨⟨hagrees.ring, hagrees.engine, hagrees.counter, hagrees.lines⟩, rfl,
    hpublisher.trans hopen⟩

end callback

section process

variable {lib : JsonLibrary} {site : Site} {p : AgentProcess} {lines : List Taken}

/-- The pipeline behind some lines. -/
def pipelineState (site : Site) (lines : List Taken) : AgentState :=
  (tailer site.nodeId).finalState (.init site.cfg) lines

/-- What the pipeline returns on some lines, one after the other. -/
def pipelineAlerts (site : Site) (lines : List Taken) : List AlertEvent :=
  ((tailer site.nodeId).outputs (.init site.cfg) lines).flatten

/-- A process and the pipeline on the lines that the process has taken. -/
structure Follows (site : Site) (p : AgentProcess) (lines : List Taken) : Prop where
  /-- It runs the rules. -/
  ids : p.ids = some .builtin
  /-- Their globals agree. -/
  agrees : Agrees p.globals (pipelineState site lines)
  /-- The pipeline publishes. -/
  publishes : (pipelineState site lines).publisher = true
  /-- What the process has raised is what the pipeline returned. -/
  raised : p.raised = pipelineAlerts site lines

theorem follows_init (hids : site.ids = .builtin) : Follows site (.init site) [] :=
  ⟨congrArg some hids, ⟨rfl, rfl, rfl, rfl, rfl, rfl⟩, rfl, rfl⟩

/-- One more line for the pipeline. -/
theorem pipeline_concat (site : Site) (lines : List Taken) (line : Taken) :
    pipelineState site (lines ++ [line]) = (onLine site.nodeId (parse line.1 line.2.1) line.2.2
        (pipelineState site lines)).1 ∧
      pipelineAlerts site (lines ++ [line]) = pipelineAlerts site lines ++
        (onLine site.nodeId (parse line.1 line.2.1) line.2.2 (pipelineState site lines)).2 := by
  constructor
  · exact (tailer site.nodeId).finalState_append _ lines [line]
  · rw [pipelineAlerts, Machine.outputs_append, List.flatten_append]
    exact congrArg (_ ++ ·) (List.append_nil _)

/-- A change of a process that detection does not see. -/
theorem Follows.frame (h : Follows site p lines) {q : AgentProcess} (hids : q.ids = p.ids)
    (hglobals : Agrees q.globals p.globals) (hraised : q.raised = p.raised) :
    Follows site q lines := by
  obtain ⟨hring, hengine, hcounter, hseen, hparsed, hfailures⟩ := hglobals
  obtain ⟨hring', hengine', hcounter', hseen', hparsed', hfailures'⟩ := h.agrees
  exact ⟨hids.trans h.ids, ⟨hring.trans hring', hengine.trans hengine', hcounter.trans hcounter',
    hseen.trans hseen', hparsed.trans hparsed', hfailures.trans hfailures'⟩, h.publishes,
    hraised.trans h.raised⟩

/-- A line that the callback is called on. -/
theorem Follows.takeLine (h : Follows site p lines) (clock : Clock) (bytes : Bytes)
    (readings : Rule → Reading) :
    Follows site (p.begin site (detect site.nodeId (parse clock bytes) readings p.globals).1
        (detect site.nodeId (parse clock bytes) readings p.globals).2)
      (lines ++ [(clock, bytes, readings)]) := by
  obtain ⟨hstate, halerts⟩ := pipeline_concat site lines (clock, bytes, readings)
  obtain ⟨hagrees, hreturned, hpublishes⟩ :=
    h.agrees.onLine h.publishes site.nodeId (parse clock bytes) readings
  refine ⟨h.ids, ?_, ?_, ?_⟩
  · rw [hstate]
    exact hagrees
  · rw [hstate]
    exact hpublishes
  · rw [halerts, hreturned, ← h.raised]
    rfl

/-- A step of a process whose engine is not swapped. -/
theorem Follows.step (h : Follows site p lines) {action : AgentProcesses.Action}
    (hno : ∀ ids fresh, action ≠ .swap ids fresh) :
    Follows site (p.step lib site action) (lines ++ (takes p action).toList) := by
  have hnone : lines ++ (none : Option Taken).toList = lines := List.append_nil lines
  unfold AgentProcess.step
  cases hcrashed : p.crashed with
  | true =>
    rw [if_pos rfl]
    have hquiet : takes p action = none := by
      cases action <;> simp [takes, hcrashed]
    rw [hquiet, hnone]
    exact h
  | false =>
    rw [if_neg Bool.false_ne_true]
    cases action with
    | line clock bytes readings =>
      dsimp only [AgentProcess.takeLine, takes]
      by_cases hready : p.ids = some .builtin ∧ p.pending = []
      · rw [if_pos hready, if_pos ⟨hcrashed, hready⟩]
        exact h.takeLine clock bytes readings
      · rw [if_neg hready, if_neg fun hall => hready hall.2, hnone]
        exact h
    | eveLine now bytes =>
      have hother : ¬(p.ids = some .suricata ∧ p.pending = []) := by
        rw [h.ids]
        simp
      dsimp only [AgentProcess.takeEveLine, takes]
      rw [if_neg hother, hnone]
      exact h
    | publish =>
      dsimp only [AgentProcess.publishNext, takes]
      rw [hnone]
      split
      · exact h
      · split
        · split <;> exact h.frame rfl ⟨rfl, rfl, rfl, rfl, rfl, rfl⟩ rfl
        · exact h.frame rfl ⟨rfl, rfl, rfl, rfl, rfl, rfl⟩ rfl
    | send ok => exact hnone.symm ▸ h.frame rfl ⟨rfl, rfl, rfl, rfl, rfl, rfl⟩ rfl
    | swap ids fresh => exact absurd rfl (hno ids fresh)
    | shutdown => exact hnone.symm ▸ h.frame rfl ⟨rfl, rfl, rfl, rfl, rfl, rfl⟩ rfl
    | proceed => exact hnone.symm ▸ h.frame rfl ⟨rfl, rfl, rfl, rfl, rfl, rfl⟩ rfl

end process

section runs

variable {ι : Type*} [DecidableEq ι] (run : Run ι)

/-- The line that a process hands to its callback in a step. -/
def takenAt (i : ι) (k : ℕ) : Option Taken :=
  match run.actions k with
  | .agent j action => if j = i then takes (run.agentAt k i) action else none
  | _ => none

/-- The lines that the callback of a process was called on before a step. -/
def taken (n : ℕ) (i : ι) : List Taken := (List.range n).filterMap (takenAt run i)

/-- Before a step a process runs the rules that it started with. -/
def Unswapped (n : ℕ) (i : ι) : Prop := (run.site i).ids = .builtin ∧
  ∀ k < n, ∀ ids fresh, run.actions k ≠ .agent i (.swap ids fresh)

theorem taken_succ (n : ℕ) (i : ι) :
    taken run (n + 1) i = taken run n i ++ (takenAt run i n).toList := by
  rw [taken, List.range_succ, List.filterMap_append]
  refine congrArg (taken run n i ++ ·) ?_
  cases hline : takenAt run i n <;> simp [hline]

theorem taken_mono {k n : ℕ} (h : k ≤ n) (i : ι) : taken run k i <+: taken run n i := by
  obtain ⟨m, rfl⟩ := Nat.exists_eq_add_of_le h
  rw [taken, taken, List.range_add, List.filterMap_append]
  exact List.prefix_append _ _

variable {run} {n : ℕ} {i : ι}

theorem takenAt_of_agent {action : AgentProcesses.Action} (h : run.actions n = .agent i action) :
    takenAt run i n = takes (run.agentAt n i) action := by
  rw [takenAt, h]
  exact if_pos rfl

/-- Only a step of the process hands it a line. -/
theorem takenAt_of_ne (h : ∀ action, run.actions n ≠ .agent i action) : takenAt run i n = none := by
  unfold takenAt
  split
  · next j action hact =>
    refine if_neg fun hj => h action ?_
    rw [hact, hj]
  · rfl

/-- A process follows the pipeline as long as its engine is not swapped. -/
theorem follows_agentAt (h : Unswapped run n i) :
    Follows (run.site i) (run.agentAt n i) (taken run n i) := by
  induction n with
  | zero => exact follows_init h.1
  | succ n ih =>
    have hprevious := ih ⟨h.1, fun k hk => h.2 k (Nat.lt_succ_of_lt hk)⟩
    rw [taken_succ]
    rcases agent_moves run n i with ⟨action, haction, hmove⟩ | ⟨hno, hmove⟩
    · rw [hmove, takenAt_of_agent haction]
      refine hprevious.step fun ids fresh hswap => h.2 n (Nat.lt_succ_self n) ids fresh ?_
      rw [haction, hswap]
    · rw [takenAt_of_ne hno, Option.toList_none, List.append_nil]
      rcases hmove with ⟨-, hsame⟩ | ⟨-, hended⟩
      · exact hsame ▸ hprevious
      · rw [hended]
        exact hprevious.frame rfl ⟨rfl, rfl, rfl, rfl, rfl, rfl⟩ rfl

/-- What a process raises is what the pipeline returns on the lines that the
process has taken, whatever is done in between. -/
theorem process_refines_pipeline (run : Run ι) {n : ℕ} {i : ι} (h : Unswapped run n i) :
    run.raisedBefore n i = pipelineAlerts (run.site i) (taken run n i) ∧
      Agrees (run.agentAt n i).globals (pipelineState (run.site i) (taken run n i)) := by
  have hfollows := follows_agentAt h
  rw [← (histories run n i).1]
  exact ⟨hfollows.raised, hfollows.agrees⟩

end runs

end Dlads.ProcessPipeline
