import Dlads.SimulatedAttacks
import Mathlib.Data.Fintype.Fin

/-!
# The simulator's attack phases

`LogSimulator::agent_loop` passes from a warm-up to attack phases with pauses
in between. Its counters are those of the lines that it has written since the
present attack phase began. So an agent that reads the log raises an alert of
each rule in every attack phase in which the lines come close enough together:
the phase goes on until the thresholds are reached.
-/

namespace Dlads.AttackPhases

open ByteText StringMaps Records YamlConfig LineParsing SyslogLines StepMachine DetectionRules
open NaiveScan RingStorage RuleDriver AgentPipeline OffenderCooldown SimulatedLogs SimulatedAttacks

/-- `phase`. -/
inductive Phase
  /-- Background noise only, at first. -/
  | warmup
  /-- An attack. -/
  | attack
  /-- Background noise only, between attacks. -/
  | cooldown
  deriving DecidableEq

/-- The local variables of `agent_loop`. -/
structure LoopState where
  /-- `phase`. -/
  phase : Phase
  /-- `phase_ticks`. -/
  phaseTicks : ℕ
  /-- `bg_counter`. -/
  bgCounter : ℕ
  /-- `attack_counter`. -/
  attackCounter : ℕ
  /-- `scan_port`. -/
  scanPort : ℕ
  /-- The scan starts at port 1024. -/
  scanPort_ge : 1024 ≤ scanPort

namespace LoopState

/-- The variables before the first pass. -/
def init : LoopState where
  phase := .warmup
  phaseTicks := 0
  bgCounter := 0
  attackCounter := 0
  scanPort := 1024
  scanPort_ge := le_refl 1024

variable (cfg : AgentConfig) (s : LoopState)

/-- The start of an attack phase. -/
def beginAttack : LoopState where
  phase := .attack
  phaseTicks := 0
  bgCounter := s.bgCounter
  attackCounter := 0
  scanPort := 1024
  scanPort_ge := le_refl 1024

/-- The cycle of the phases. -/
def cycle : LoopState :=
  if s.phase = .warmup ∧ 10000 / cfg.intervalMs < s.phaseTicks then s.beginAttack
  else if s.phase = .attack ∧ 30000 / cfg.intervalMs < s.phaseTicks then
    { s with phase := .cooldown, phaseTicks := 0 }
  else if s.phase = .cooldown ∧ 10000 / cfg.intervalMs < s.phaseTicks then s.beginAttack
  else s

/-- The lines of one pass of an attack. -/
def attackLines : List Line :=
  [.sshFail 0, .sshFail 1, .sshFail 2] ++
    (if h : s.scanPort < 1024 + 60 then [.portScan ⟨s.scanPort - 1024, by omega⟩] else []) ++
    (if s.attackCounter % 5 = 0 then [.nginxFail] else []) ++
    (if s.attackCounter % 7 = 0 then [.sshdFail] else []) ++
    (if s.attackCounter = 2 then [.sudoOpen] else [])

/-- The variables behind the lines of one pass of an attack. -/
def advance : LoopState where
  phase := s.phase
  phaseTicks := s.phaseTicks
  bgCounter := s.bgCounter
  attackCounter := s.attackCounter + 1
  scanPort := if s.scanPort < 1024 + 60 then s.scanPort + 1 else s.scanPort
  scanPort_ge := by
    have h := s.scanPort_ge
    split <;> omega

/-- The variables once the background line is written and the phase is settled. -/
def turn : LoopState :=
  { s with bgCounter := s.bgCounter + 1, phaseTicks := s.phaseTicks + 1 }.cycle cfg

/-- One pass of the loop, with the lines it writes. -/
def pass : LoopState × List Line :=
  let s' := s.turn cfg
  if s'.phase = .attack then (s'.advance, .background s.bgCounter :: s'.attackLines)
  else (s', [.background s.bgCounter])

end LoopState

/-- The loop; a pass does nothing if the file cannot be opened. -/
def simulator (cfg : AgentConfig) : Machine LoopState Bool (List Line) where
  step := fun s opened => if opened then s.pass cfg else (s, [])

/-- The loop before a pass. -/
def loopAt (cfg : AgentConfig) (opened : ℕ → Bool) (k : ℕ) : LoopState :=
  (simulator cfg).stateAt .init opened k

/-- The log before a pass. -/
def written (cfg : AgentConfig) (opened : ℕ → Bool) : ℕ → List Line
  | 0 => [.started]
  | k + 1 => written cfg opened k ++ (simulator cfg).outputAt .init opened k

/-- A simulator and an agent that watches its log. -/
structure Session extends Simulation where
  /-- Whether the file could be opened in a pass. -/
  opened : ℕ → Bool
  /-- The agent reads the log. -/
  reads : ∀ k, (List.range (written cfg opened k).length).map lines = written cfg opened k

section loop

variable {cfg : AgentConfig} {s : LoopState}

/-- A pass is in an attack phase that it begins or that goes on. -/
theorem turn_attack (h : (s.turn cfg).phase = .attack) :
    (s.turn cfg).attackCounter = 0 ∧ (s.turn cfg).scanPort = 1024 ∨
      s.phase = .attack ∧ (s.turn cfg).attackCounter = s.attackCounter ∧
        (s.turn cfg).scanPort = s.scanPort := by
  unfold LoopState.turn LoopState.cycle at h ⊢
  dsimp only at h ⊢
  split at h
  · next hb => rw [if_pos hb]; exact .inl ⟨rfl, rfl⟩
  · next hb =>
    rw [if_neg hb]
    split at h
    · cases h
    · next ha =>
      rw [if_neg ha]
      split at h
      · next hc => rw [if_pos hc]; exact .inl ⟨rfl, rfl⟩
      · next hc => rw [if_neg hc]; exact .inr ⟨h, rfl, rfl⟩

/-- The counters of an attack phase, by the lines written since it began. -/
structure Counted (s : LoopState) (since : List Line) : Prop where
  /-- Three failed logins in each pass. -/
  logins : since.countP isLogin = 3 * s.attackCounter
  /-- The ports below the next one. -/
  ports : ∀ i : Fin 60, .portScan i ∈ since ↔ 1024 + (i : ℕ) < s.scanPort
  /-- One port in each pass, as long as there are any. -/
  next : s.scanPort = 1024 + min s.attackCounter 60
  /-- Failures of both services in the first pass. -/
  services : 0 < s.attackCounter → .nginxFail ∈ since ∧ .sshdFail ∈ since
  /-- At most eight lines in each pass. -/
  length : since.length ≤ 8 * s.attackCounter

/-- The counters of a new phase. -/
theorem counted_nil (hcounter : s.attackCounter = 0) (hport : s.scanPort = 1024) :
    Counted s [] := by
  refine ⟨by simp [hcounter], fun i => ?_, by simp [hcounter, hport], by simp [hcounter],
    Nat.zero_le _⟩
  rw [hport]
  simp

/-- Which lines a pass of an attack writes. -/
theorem attackLines_facts (s : LoopState) : s.attackLines.countP isLogin = 3 ∧
    (∀ i : Fin 60, .portScan i ∈ s.attackLines ↔ 1024 + (i : ℕ) = s.scanPort) ∧
      (s.attackCounter = 0 → .nginxFail ∈ s.attackLines ∧ .sshdFail ∈ s.attackLines) ∧
        s.attackLines.length ≤ 7 := by
  have hge := s.scanPort_ge
  unfold LoopState.attackLines
  refine ⟨?_, fun i => ?_, fun hcounter => ?_, ?_⟩
  · simp only [List.countP_append]
    split <;> split <;> split <;> split <;> rfl
  · by_cases hscan : s.scanPort < 1024 + 60
    · rw [dif_pos hscan]
      have hport : i = ⟨s.scanPort - 1024, by omega⟩ ↔ 1024 + (i : ℕ) = s.scanPort := by
        rw [Fin.ext_iff]
        dsimp only
        omega
      rw [← hport]
      split <;> split <;> split <;> simp
    · rw [dif_neg hscan]
      have hnot : ¬1024 + (i : ℕ) = s.scanPort := by omega
      rw [iff_false_right hnot]
      split <;> split <;> split <;> simp
  · simp [hcounter]
  · simp only [List.length_append]
    split <;> split <;> split <;> split <;> simp

/-- A pass of an attack keeps the counters right. -/
theorem Counted.advance {since : List Line} (h : Counted s since) (b : ℕ) :
    Counted s.advance (since ++ .background b :: s.attackLines) := by
  obtain ⟨hlogins, hports, hservices, hlength⟩ := attackLines_facts s
  have hnext := h.next
  refine ⟨?_, fun i => ?_, ?_, fun _ => ?_, ?_⟩
  · rw [List.countP_append, List.countP_cons_of_neg (by simp [isLogin]), h.logins, hlogins]
    dsimp only [LoopState.advance]
    omega
  · have hadvance : 1024 + (i : ℕ) < s.advance.scanPort ↔
        1024 + (i : ℕ) < s.scanPort ∨ 1024 + (i : ℕ) = s.scanPort := by
      dsimp only [LoopState.advance]
      split <;> omega
    rw [hadvance, List.mem_append, List.mem_cons, h.ports, hports]
    simp
  · dsimp only [LoopState.advance]
    split <;> omega
  · rcases Nat.eq_zero_or_pos s.attackCounter with hzero | hpos
    · obtain ⟨hnginx, hsshd⟩ := hservices hzero
      simp [hnginx, hsshd]
    · obtain ⟨hnginx, hsshd⟩ := h.services hpos
      simp [hnginx, hsshd]
  · have hsince := h.length
    simp only [List.length_append, List.length_cons, LoopState.advance]
    omega

end loop

section phases

variable (cfg : AgentConfig) (opened : ℕ → Bool)

theorem loopAt_succ (k : ℕ) : loopAt cfg opened (k + 1) =
      (if opened k then ((loopAt cfg opened k).pass cfg).1 else loopAt cfg opened k) ∧
    written cfg opened (k + 1) =
      written cfg opened k ++ if opened k then ((loopAt cfg opened k).pass cfg).2 else [] := by
  have hloop : loopAt cfg opened (k + 1) = ((simulator cfg).step (loopAt cfg opened k) (opened k)).1 := rfl
  have hwritten : written cfg opened (k + 1) =
      written cfg opened k ++ ((simulator cfg).step (loopAt cfg opened k) (opened k)).2 := rfl
  rw [hloop, hwritten]
  dsimp only [simulator]
  split <;> exact ⟨rfl, rfl⟩

/-- A pass of an attack: the loop once the phase is settled, and the lines since
the phase began. -/
structure AttackPass (k : ℕ) (settled : LoopState) (before since : List Line) : Prop where
  /-- The log so far. -/
  log : written cfg opened k = before ++ since
  /-- The counters before the pass. -/
  counted : Counted settled since
  /-- The loop behind the pass. -/
  loop : loopAt cfg opened (k + 1) = settled.advance
  /-- The log behind the pass. -/
  more : ∃ b, written cfg opened (k + 1) = written cfg opened k ++ .background b :: settled.attackLines

/-- In an attack phase the log ends in the lines that the counters count. -/
def InAttack (k : ℕ) : Prop := (loopAt cfg opened k).phase = .attack →
  ∃ before since, written cfg opened k = before ++ since ∧ Counted (loopAt cfg opened k) since

/-- What a pass of an attack finds. -/
theorem attackPass_of_inAttack {k : ℕ} (h : InAttack cfg opened k) (hopen : opened k = true)
    (hphase : (loopAt cfg opened (k + 1)).phase = .attack) :
    ∃ settled before since, AttackPass cfg opened k settled before since := by
  obtain ⟨hloop, hwritten⟩ := loopAt_succ cfg opened k
  rw [hopen] at hloop hwritten
  have hattack : ((loopAt cfg opened k).turn cfg).phase = .attack := by
    rw [hloop, if_pos rfl, LoopState.pass] at hphase
    split at hphase
    · next hattack => exact hattack
    · exact hphase
  have hpass : (loopAt cfg opened k).pass cfg = (((loopAt cfg opened k).turn cfg).advance,
      .background (loopAt cfg opened k).bgCounter :: ((loopAt cfg opened k).turn cfg).attackLines) :=
    if_pos hattack
  rw [hpass] at hloop hwritten
  rcases turn_attack hattack with ⟨hcounter, hport⟩ | ⟨hwas, hcounter, hport⟩
  · exact ⟨_, written cfg opened k, [], (List.append_nil _).symm, counted_nil hcounter hport, hloop,
      _, hwritten⟩
  · obtain ⟨before, since, hlog, hcounted⟩ := h hwas
    refine ⟨_, before, since, hlog, ⟨?_, ?_, ?_, ?_, ?_⟩, hloop, _, hwritten⟩
    · rw [hcounter, hcounted.logins]
    · rw [hport]
      exact hcounted.ports
    · rw [hcounter, hport, hcounted.next]
    · rw [hcounter]
      exact hcounted.services
    · rw [hcounter]
      exact hcounted.length

theorem inAttack (k : ℕ) : InAttack cfg opened k := by
  induction k with
  | zero => exact fun h => nomatch h
  | succ k ih =>
    intro hphase
    cases hopen : opened k with
    | true =>
      obtain ⟨settled, before, since, hpass⟩ := attackPass_of_inAttack cfg opened ih hopen hphase
      obtain ⟨b, hmore⟩ := hpass.more
      refine ⟨before, since ++ .background b :: settled.attackLines, ?_, ?_⟩
      · rw [hmore, hpass.log, List.append_assoc]
      · rw [hpass.loop]
        exact hpass.counted.advance b
    | false =>
      obtain ⟨hloop, hwritten⟩ := loopAt_succ cfg opened k
      rw [hopen] at hloop hwritten
      rw [hloop] at hphase ⊢
      rw [hwritten]
      obtain ⟨before, since, hlog, hcounted⟩ := ih hphase
      exact ⟨before, since, by rw [hlog]; exact List.append_nil _, hcounted⟩

/-- In every attack phase of every run a pass finds what its counters count. -/
theorem exists_attackPass {k : ℕ} (hopen : opened k = true)
    (hphase : (loopAt cfg opened (k + 1)).phase = .attack) :
    ∃ settled before since, AttackPass cfg opened k settled before since :=
  attackPass_of_inAttack cfg opened (inAttack cfg opened k) hopen hphase

end phases

section schedule

variable (cfg : AgentConfig) (opened : ℕ → Bool)

/-- The passes of the warm-up and of a pause. -/
def quietTicks : ℕ := 10000 / cfg.intervalMs

/-- The passes of an attack phase, but for the first. -/
def attackTicks : ℕ := 30000 / cfg.intervalMs

/-- The passes from the start of one attack phase to the next. -/
def period : ℕ := attackTicks cfg + quietTicks cfg + 2

/-- The loop behind some passes. -/
structure OnSchedule (s : LoopState) (n : ℕ) : Prop where
  /-- The warm-up. -/
  warmup : n ≤ quietTicks cfg → s.phase = .warmup ∧ s.phaseTicks = n
  /-- An attack phase. -/
  attack : quietTicks cfg < n → (n - quietTicks cfg - 1) % period cfg ≤ attackTicks cfg →
    s.phase = .attack ∧ s.phaseTicks = (n - quietTicks cfg - 1) % period cfg ∧
      s.attackCounter = (n - quietTicks cfg - 1) % period cfg + 1
  /-- A pause. -/
  cooldown : quietTicks cfg < n → attackTicks cfg < (n - quietTicks cfg - 1) % period cfg →
    s.phase = .cooldown ∧
      s.phaseTicks + attackTicks cfg + 1 = (n - quietTicks cfg - 1) % period cfg

variable {cfg opened} {s : LoopState} {n : ℕ}

/-- One pass, by the phase before it. -/
theorem pass_fst (s : LoopState) : (s.pass cfg).1.phase = (s.turn cfg).phase ∧
    (s.pass cfg).1.phaseTicks = (s.turn cfg).phaseTicks ∧
      ((s.turn cfg).phase = .attack →
        (s.pass cfg).1.attackCounter = (s.turn cfg).attackCounter + 1) := by
  unfold LoopState.pass
  dsimp only
  split
  · exact ⟨rfl, rfl, fun _ => rfl⟩
  · next hquiet => exact ⟨rfl, rfl, fun h => absurd h hquiet⟩

/-- The counters of a phase that begins or goes on. -/
theorem turn_cases (s : LoopState) :
    (s.phase ≠ .attack ∧ quietTicks cfg < s.phaseTicks + 1 ∧ (s.turn cfg).phase = .attack ∧
      (s.turn cfg).phaseTicks = 0 ∧ (s.turn cfg).attackCounter = 0) ∨
    (s.phase = .attack ∧ attackTicks cfg < s.phaseTicks + 1 ∧ (s.turn cfg).phase = .cooldown ∧
      (s.turn cfg).phaseTicks = 0) ∨
    ((s.phase = .attack → s.phaseTicks + 1 ≤ attackTicks cfg) ∧
      (s.phase ≠ .attack → s.phaseTicks + 1 ≤ quietTicks cfg) ∧
      (s.turn cfg).phase = s.phase ∧ (s.turn cfg).phaseTicks = s.phaseTicks + 1 ∧
      (s.turn cfg).attackCounter = s.attackCounter) := by
  unfold LoopState.turn LoopState.cycle quietTicks attackTicks
  dsimp only
  split
  · next h => exact .inl ⟨by simp [h.1], h.2, rfl, rfl, rfl⟩
  · next hwarmup =>
    split
    · next h => exact .inr (.inl ⟨h.1, h.2, rfl, rfl⟩)
    · next hattack =>
      split
      · next h => exact .inl ⟨by simp [h.1], h.2, rfl, rfl, rfl⟩
      · next hcooldown =>
        refine .inr (.inr ⟨fun h => ?_, fun h => ?_, rfl, rfl, rfl⟩)
        · exact not_lt.mp fun hlong => hattack ⟨h, hlong⟩
        · refine not_lt.mp fun hlong => ?_
          cases hphase : s.phase with
          | warmup => exact hwarmup ⟨hphase, hlong⟩
          | attack => exact h hphase
          | cooldown => exact hcooldown ⟨hphase, hlong⟩

/-- A place in a cycle moves on by one, and from the end to the start. -/
theorem succ_mod_eq {x period : ℕ} (hpos : 0 < period) :
    (x + 1) % period = if x % period + 1 = period then 0 else x % period + 1 := by
  have hlt := Nat.mod_lt x hpos
  rw [← Nat.mod_add_mod]
  split
  · next h => rw [h, Nat.mod_self]
  · next h => exact Nat.mod_eq_of_lt (by omega)

/-- A pass keeps the schedule. -/
theorem OnSchedule.pass (h : OnSchedule cfg s n) : OnSchedule cfg (s.pass cfg).1 (n + 1) := by
  obtain ⟨hphase, hticks, hcounter⟩ := @pass_fst cfg s
  have hperiod : period cfg = attackTicks cfg + quietTicks cfg + 2 := rfl
  rw [← hphase] at hcounter
  rcases Nat.lt_or_ge (quietTicks cfg) n with hlater | hearly
  · have hnext : n + 1 - quietTicks cfg - 1 = (n - quietTicks cfg - 1) + 1 := by omega
    have hmod := @succ_mod_eq (n - quietTicks cfg - 1) (period cfg) (by omega)
    have hattack := h.attack hlater
    have hcooldown := h.cooldown hlater
    have hlt := Nat.mod_lt (n - quietTicks cfg - 1) (show 0 < period cfg by omega)
    rw [← hnext] at hmod
    generalize (n - quietTicks cfg - 1) % period cfg = place at hlt hmod hattack hcooldown
    rcases Nat.lt_or_ge (attackTicks cfg) place with hpause | hbusy
    · obtain ⟨hwas, htime⟩ := hcooldown hpause
      rcases @turn_cases cfg s with ⟨-, hlong, hturn, hzero, hnone⟩ | ⟨hin, -⟩ |
        ⟨-, hshort, hturn, hgoes, -⟩
      · rw [if_pos (by omega)] at hmod
        refine ⟨fun _ => by omega, fun _ _ => ?_, fun _ _ => by omega⟩
        rw [hphase, hturn] at hcounter ⊢
        exact ⟨rfl, by omega, by rw [hcounter rfl, hnone, hmod]⟩
      · rw [hwas] at hin
        cases hin
      · have hquiet := hshort (by simp [hwas])
        rw [if_neg (by omega)] at hmod
        refine ⟨fun _ => by omega, fun _ _ => by omega, fun _ _ => ?_⟩
        exact ⟨by rw [hphase, hturn, hwas], by omega⟩
    · obtain ⟨hwas, htime, hcount⟩ := hattack hbusy
      rw [if_neg (by omega)] at hmod
      rcases @turn_cases cfg s with ⟨hnot, -⟩ | ⟨-, hlong, hturn, hzero⟩ |
        ⟨hshort, -, hturn, hgoes, hsame⟩
      · exact absurd hwas hnot
      · refine ⟨fun _ => by omega, fun _ _ => by omega, fun _ _ => ?_⟩
        exact ⟨by rw [hphase, hturn], by omega⟩
      · have hbelow := hshort hwas
        refine ⟨fun _ => by omega, fun _ _ => ?_, fun _ _ => by omega⟩
        rw [hphase, hturn, hwas] at hcounter ⊢
        exact ⟨rfl, by omega, by rw [hcounter rfl, hsame, hcount, hmod]⟩
  · obtain ⟨hwas, htime⟩ := h.warmup hearly
    rcases @turn_cases cfg s with ⟨-, hlong, hturn, hzero, hnone⟩ | ⟨hin, -⟩ |
      ⟨-, hshort, hturn, hgoes, -⟩
    · have hstart : n + 1 - quietTicks cfg - 1 = 0 := by omega
      rw [hphase, hturn] at hcounter
      refine ⟨fun _ => by omega, fun _ _ => ?_, fun _ hpause => ?_⟩
      · rw [hstart, Nat.zero_mod]
        exact ⟨by rw [hphase, hturn], by omega, by rw [hcounter rfl, hnone]⟩
      · rw [hstart, Nat.zero_mod] at hpause
        omega
    · rw [hwas] at hin
      cases hin
    · have hquiet := hshort (by simp [hwas])
      exact ⟨fun _ => ⟨by rw [hphase, hturn, hwas], by omega⟩, fun _ _ => by omega,
        fun _ _ => by omega⟩

variable (cfg opened)

/-- How many passes have found the file open. -/
def passes (k : ℕ) : ℕ := (List.range k).countP opened

/-- The phases follow each other on schedule in every run. -/
theorem onSchedule (k : ℕ) : OnSchedule cfg (loopAt cfg opened k) (passes opened k) := by
  induction k with
  | zero => exact ⟨fun _ => ⟨rfl, rfl⟩, fun h => absurd h (Nat.not_lt_zero _),
      fun h => absurd h (Nat.not_lt_zero _)⟩
  | succ k ih =>
    have hpasses : passes opened (k + 1) =
        passes opened k + if opened k then 1 else 0 := by
      unfold passes
      rw [List.range_succ, List.countP_append, List.countP_singleton]
    rw [(loopAt_succ cfg opened k).1, hpasses]
    cases opened k with
    | true => exact ih.pass
    | false => exact ih

end schedule

section detection

variable (s : Session)

/-- The lines of some passes come close together. -/
def Timely (k m : ℕ) (d : ℤ) : Prop := ∀ i j,
  (written s.cfg s.opened (k + 1)).length ≤ j + 8 * m → j ≤ i →
    i < (written s.cfg s.opened (k + 1)).length → s.time i - seconds d ≤ s.time j

/-- The agent raises an alert on a line of a pass. -/
def Raises (k : ℕ) (rule : Rule) (subject : Bytes) : Prop := ∃ n,
  (written s.cfg s.opened k).length ≤ n ∧ n < (written s.cfg s.opened (k + 1)).length ∧
    (s.feed.verdictAt n rule).returned.map (alertSubject rule) = some (some subject)

variable {s}

/-- The front of a list of values is a list of the first values. -/
theorem map_range_front {α : Type*} {f : ℕ → α} {n : ℕ} {front back : List α}
    (h : (List.range n).map f = front ++ back) : (List.range front.length).map f = front := by
  have hlength := congrArg List.length h
  rw [List.length_map, List.length_range, List.length_append] at hlength
  have htake := congrArg (List.take front.length) h
  rw [List.take_left, ← List.map_take, List.take_range, Nat.min_eq_left (by omega)] at htake
  exact htake

/-- The last lines of the log are among those that the rules look back at. -/
theorem recent_tail {sim : Simulation} {q : ℕ} {d : ℤ} {lead tail : List Line}
    (hlines : (List.range (q + 1)).map sim.lines = lead ++ tail)
    (hring : tail.length ≤ ringCapacity) (hday : seconds d ≤ hours 24)
    (hclose : ∀ j, lead.length ≤ j → j ≤ q → sim.time q - seconds d ≤ sim.time j) :
    ∃ near : List (Line × ℤ), near.Sublist (sim.past q) ∧ near.map Prod.fst = tail ∧
      ∀ x ∈ near, sim.time q - seconds d ≤ x.2 := by
  have hlength := congrArg List.length hlines
  rw [List.length_map, List.length_range, List.length_append] at hlength
  let near := (List.range tail.length).map fun j =>
    (sim.lines (lead.length + j), sim.time (lead.length + j))
  have hall : (List.range (q + 1)).map (fun k => (sim.lines k, sim.time k)) =
      (List.range lead.length).map (fun k => (sim.lines k, sim.time k)) ++ near := by
    rw [hlength, List.range_add, List.map_append, List.map_map]
    rfl
  have hnear : ∀ x ∈ near, sim.time q - seconds d ≤ x.2 := by
    intro x hx
    obtain ⟨j, hj, rfl⟩ := List.mem_map.mp hx
    rw [List.mem_range] at hj
    exact hclose _ (Nat.le_add_right _ _) (by omega)
  refine ⟨near, ?_, ?_, hnear⟩
  · have hkept : near.filter (fun x => decide (sim.time q - hours 24 ≤ x.2)) = near := by
      rw [List.filter_eq_self]
      intro x hx
      have hlate := hnear x hx
      simp only [decide_eq_true_eq]
      omega
    have hsub : near.Sublist (sim.retained q) := by
      rw [Simulation.retained, hall, List.rtake]
      refine List.IsSuffix.sublist ?_
      rw [List.drop_append_of_le_length]
      · exact List.suffix_append _ _
      · rw [List.length_append, List.length_map, List.length_range, List.length_map,
          List.length_range]
        omega
    rw [← hkept]
    exact hsub.filter _
  · have hsplit := congrArg (List.map Prod.fst) hall
    rw [List.map_append, List.map_map, List.map_map] at hsplit
    have hlead := map_range_front hlines
    exact List.append_cancel_left
      (((congrArg (· ++ near.map Prod.fst) hlead).symm.trans hsplit.symm).trans hlines)

/-- A line of an attack pass, with those that the rules look back at. -/
structure Placed (s : Session) (k : ℕ) (d : ℤ) (since front : List Line) (l : Line) (b n : ℕ)
    (near : List (Line × ℤ)) : Prop where
  /-- It belongs to the pass. -/
  first : (written s.cfg s.opened k).length ≤ n
  /-- It belongs to the pass. -/
  last : n < (written s.cfg s.opened (k + 1)).length
  /-- These lines are before it. -/
  earlier : (List.range n).map s.lines = written s.cfg s.opened k ++ .background b :: front
  /-- It is the line. -/
  line : s.lines n = l
  /-- The rules look back at lines close before it. -/
  sub : near.Sublist (s.past n)
  /-- These are the lines since the phase began. -/
  lines : near.map Prod.fst = since ++ .background b :: (front ++ [l])
  /-- They come close together. -/
  close : ∀ x ∈ near, s.time n - seconds d ≤ x.2

variable {k : ℕ} {settled : LoopState} {before since : List Line} {d : ℤ}

/-- The rules look back at the whole phase. -/
theorem exists_placed (hpass : AttackPass s.cfg s.opened k settled before since)
    (hring : 8 * (settled.attackCounter + 1) ≤ ringCapacity) (hday : d ≤ 86400)
    (htimely : Timely s k (settled.attackCounter + 1) d) {l : Line} {front back : List Line}
    (hsplit : settled.attackLines = front ++ l :: back) :
    ∃ b n near, Placed s k d since front l b n near := by
  obtain ⟨b, hmore⟩ := hpass.more
  have hwritten : written s.cfg s.opened (k + 1) =
      (written s.cfg s.opened k ++ .background b :: front) ++ [l] ++ back := by
    rw [hmore, hsplit]
    simp
  obtain ⟨-, -, -, hshort⟩ := attackLines_facts settled
  have hsince := hpass.counted.length
  have hlog := congrArg List.length hpass.log
  have htotal := congrArg List.length hwritten
  have hparts := congrArg List.length hsplit
  simp only [List.length_append, List.length_cons, List.length_nil] at hlog htotal hparts
  let n := (written s.cfg s.opened k ++ .background b :: front).length
  have hn : n = (written s.cfg s.opened k).length + (front.length + 1) := by
    simp [n]
  have hread : (List.range (n + 1)).map s.lines =
      (written s.cfg s.opened k ++ .background b :: front) ++ [l] := by
    have hfront := map_range_front ((s.reads (k + 1)).trans hwritten)
    rw [List.length_append, List.length_singleton] at hfront
    exact hfront
  have hconcat := hread
  rw [List.range_succ, List.map_append, List.map_singleton] at hconcat
  obtain ⟨hearlier, hline⟩ := List.append_inj' hconcat rfl
  have htail : (List.range (n + 1)).map s.lines =
      before ++ (since ++ .background b :: (front ++ [l])) := by
    rw [hread, hpass.log]
    simp
  obtain ⟨near, hsub, hlines, hclose⟩ := recent_tail htail (by simp; omega)
    (by unfold seconds hours; omega) fun j hj hjn =>
      htimely n j (by omega) hjn (by omega)
  exact ⟨b, n, near, by omega, by omega, hearlier, List.singleton_inj.mp hline, hsub, hlines,
    hclose⟩

variable {front : List Line} {l : Line} {b n : ℕ} {near : List (Line × ℤ)}

/-- The lines of the phase are in every window that is long enough. -/
theorem Placed.recent (h : Placed s k d since front l b n near) {window : ℤ} (hwindow : d ≤ window)
    {x : Line × ℤ} (hx : x ∈ near) : recent window (s.time n) x.2 = true := by
  have hclose := h.close x hx
  unfold SimulatedAttacks.recent
  unfold seconds at hclose ⊢
  rw [decide_eq_true_eq]
  omega

theorem Placed.exists_mem (h : Placed s k d since front l b n near) {window : ℤ} (hwindow : d ≤ window)
    {l' : Line} (hl : l' ∈ since ++ .background b :: (front ++ [l])) :
    ∃ x ∈ s.past n, x.1 = l' ∧ SimulatedAttacks.recent window (s.time n) x.2 = true := by
  rw [← h.lines] at hl
  obtain ⟨x, hx, rfl⟩ := List.mem_map.mp hl
  exact ⟨x, h.sub.subset hx, rfl, h.recent hwindow hx⟩

/-- The rules look back at lines of the log. -/
theorem exists_of_mem_past {x : Line × ℤ} (hx : x ∈ s.past n) :
    ∃ j ≤ n, x = (s.lines j, s.time j) := by
  have hretained := List.mem_of_mem_drop (List.mem_of_mem_filter hx)
  obtain ⟨j, hj, rfl⟩ := List.mem_map.mp hretained
  exact ⟨j, Nat.lt_succ_iff.mp (List.mem_range.mp hj), rfl⟩

/-- A positive decision raises an alert. -/
theorem Placed.raises (h : Placed s k d since front l b n near) {rule : Rule} {subject : Bytes}
    (hsubject : lineSubject s.cfg rule l = some subject)
    (hdecided : decided s.rules (s.past n) (s.time n) l rule = true) :
    Raises s k rule subject := by
  refine ⟨n, h.first, h.last, ?_⟩
  rw [← h.line] at hsubject hdecided
  rw [returned_subject s.toSimulation n hsubject, if_pos hdecided]

section rules

variable (hpass : AttackPass s.cfg s.opened k settled before since)
  (hring : 8 * (settled.attackCounter + 1) ≤ ringCapacity) (hday : d ≤ 86400)
  (htimely : Timely s k (settled.attackCounter + 1) d)

include hpass hring hday htimely

/-- The failed logins of the phase raise an alert. -/
theorem raises_ssh (hwindow : d ≤ s.rules.sshWindowSeconds)
    (hthreshold : s.rules.sshThreshold ≤ 3 * settled.attackCounter + 4) :
    Raises s k .sshBruteForce s.cfg.atkSsh := by
  obtain ⟨back, hsplit⟩ : ∃ back, settled.attackLines =
      [.sshFail 0, .sshFail 1] ++ .sshFail 2 :: back := ⟨_, rfl⟩
  obtain ⟨b, n, near, hplaced⟩ := exists_placed hpass hring hday htimely hsplit
  refine hplaced.raises rfl ?_
  have hnear : near.countP (fun x => isLogin x.1 &&
      recent s.rules.sshWindowSeconds (s.time n) x.2) = 3 * settled.attackCounter + 3 := by
    have hlogins := congrArg (List.countP isLogin) hplaced.lines
    rw [List.countP_map, List.countP_append, hpass.counted.logins] at hlogins
    rw [List.countP_congr fun x hx => by rw [hplaced.recent hwindow hx, Bool.and_true]]
    exact hlogins
  have hpast : near.countP (fun x => isLogin x.1 &&
      recent s.rules.sshWindowSeconds (s.time n) x.2) ≤ (s.past n).countP fun x =>
        isLogin x.1 && recent s.rules.sshWindowSeconds (s.time n) x.2 := hplaced.sub.countP_le
  rw [hnear] at hpast
  rw [decided, decide_eq_true_eq]
  omega

/-- The rejected packets of the phase raise an alert. -/
theorem raises_scan (hports : settled.attackCounter < 60)
    (hwindow : d ≤ s.rules.scanWindowSeconds)
    (hthreshold : s.rules.scanThreshold ≤ settled.attackCounter + 1) :
    Raises s k .portScan s.cfg.atkScan := by
  have hnext := hpass.counted.next
  rw [Nat.min_eq_left hports.le] at hnext
  have hscan : settled.scanPort < 1024 + 60 := by omega
  have hport : settled.scanPort - 1024 < 60 := by omega
  obtain ⟨back, hsplit⟩ : ∃ back, settled.attackLines =
      [.sshFail 0, .sshFail 1, .sshFail 2] ++ .portScan ⟨settled.scanPort - 1024, hport⟩ ::
        back := by
    unfold LoopState.attackLines
    rw [dif_pos hscan]
    exact ⟨_, by simp only [List.append_assoc, List.singleton_append]; rfl⟩
  obtain ⟨b, n, near, hplaced⟩ := exists_placed hpass hring hday htimely hsplit
  refine hplaced.raises rfl ?_
  have hhit : Finset.univ.filter (fun i : Fin 60 => (i : ℕ) < settled.attackCounter + 1) ⊆
      insert ⟨settled.scanPort - 1024, hport⟩
        (portsHit (s.past n) s.rules.scanWindowSeconds (s.time n)) := by
    intro i hi
    rw [Finset.mem_filter] at hi
    rw [Finset.mem_insert, Fin.ext_iff]
    rcases Nat.lt_succ_iff_lt_or_eq.mp hi.2 with hbelow | hlast
    · have hsince : .portScan i ∈ since := (hpass.counted.ports i).mpr (by omega)
      obtain ⟨x, hx, hline, hrecent⟩ := hplaced.exists_mem hwindow
        (List.mem_append_left _ hsince)
      exact .inr (mem_portsHit.mpr ⟨x, hx, by rw [hline]; rfl, hrecent⟩)
    · exact .inl (by dsimp only; omega)
  have hcard := Finset.card_le_card hhit
  rw [Fin.card_filter_val_lt] at hcard
  rw [decided, decide_eq_true_eq]
  omega

/-- A failure of one service in a phase that has one of the other raises an
alert. -/
theorem raises_multi (hwindow : d ≤ s.rules.multiWindowSeconds)
    (hservices : s.rules.multiMinServices ≤ 2)
    (hturn : settled.attackCounter % 7 = 0 ∨
      settled.attackCounter % 5 = 0 ∧ 0 < settled.attackCounter) :
    Raises s k .multiServiceAuth s.cfg.atkMulti := by
  rcases hturn with hsshd | ⟨hnginx, hpos⟩
  · obtain ⟨front, back, hsplit, hfirst⟩ : ∃ front back, settled.attackLines =
        front ++ .sshdFail :: back ∧ (settled.attackCounter = 0 → .nginxFail ∈ front) := by
      unfold LoopState.attackLines
      rw [if_pos hsshd]
      exact ⟨_, _, by rw [List.append_assoc, List.singleton_append],
        fun hzero => by simp [hzero]⟩
    obtain ⟨b, n, near, hplaced⟩ := exists_placed hpass hring hday htimely hsplit
    refine hplaced.raises rfl ?_
    have hother : .nginxFail ∈ since ++ .background b :: (front ++ [.sshdFail]) := by
      rcases Nat.eq_zero_or_pos settled.attackCounter with hzero | hpos
      · simp [hfirst hzero]
      · simp [(hpass.counted.services hpos).1]
    obtain ⟨x, hx, hline, hrecent⟩ := hplaced.exists_mem hwindow hother
    have hany : (s.past n).any (fun x => x.1 = .nginxFail &&
        recent s.rules.multiWindowSeconds (s.time n) x.2) = true :=
      List.any_eq_true.mpr ⟨x, hx, by simp [hline, hrecent]⟩
    rw [decided, hany, if_pos rfl, decide_eq_true_eq]
    exact hservices
  · obtain ⟨front, back, hsplit⟩ : ∃ front back, settled.attackLines =
        front ++ .nginxFail :: back := by
      unfold LoopState.attackLines
      rw [if_pos hnginx]
      exact ⟨_, _, by rw [List.append_assoc, List.append_assoc, List.singleton_append]⟩
    obtain ⟨b, n, near, hplaced⟩ := exists_placed hpass hring hday htimely hsplit
    refine hplaced.raises rfl ?_
    obtain ⟨x, hx, hline, hrecent⟩ := hplaced.exists_mem hwindow
      (List.mem_append_left _ (hpass.counted.services hpos).2)
    have hany : (s.past n).any (fun x => x.1 = .sshdFail &&
        recent s.rules.multiWindowSeconds (s.time n) x.2) = true :=
      List.any_eq_true.mpr ⟨x, hx, by simp [hline, hrecent]⟩
    rw [decided, hany, if_pos rfl, decide_eq_true_eq]
    exact hservices

/-- The first session of the new user raises an alert. -/
theorem raises_priv (hturn : settled.attackCounter = 2)
    (hfirst : .sudoOpen ∉ written s.cfg s.opened k) : Raises s k .privEsc (text "newuser") := by
  obtain ⟨front, hsplit, hnone⟩ : ∃ front, settled.attackLines = front ++ .sudoOpen :: [] ∧
      .sudoOpen ∉ front := by
    unfold LoopState.attackLines
    rw [if_pos hturn]
    refine ⟨_, rfl, ?_⟩
    split <;> split <;> split <;> simp
  obtain ⟨b, n, near, hplaced⟩ := exists_placed hpass hring hday htimely hsplit
  refine hplaced.raises rfl ?_
  have hlate : ∀ x ∈ s.past n, x.1 = .sudoOpen → ¬x.2 < s.time n := by
    rintro x hx hline
    obtain ⟨j, hj, rfl⟩ := exists_of_mem_past hx
    rcases hj.lt_or_eq with hearly | rfl
    · have hmem : .sudoOpen ∈ (List.range n).map s.lines :=
        List.mem_map.mpr ⟨j, List.mem_range.mpr hearly, hline⟩
      rw [hplaced.earlier] at hmem
      simp [hfirst, hnone] at hmem
    · exact lt_irrefl _
  rw [decided, Bool.not_eq_true', List.any_eq_false]
  intro x hx hfound
  simp only [Bool.and_eq_true, decide_eq_true_eq] at hfound
  exact hlate x hx hfound.1.1 hfound.2

end rules

/-- In the `m`-th pass of an attack phase whose lines come close together the
agent raises an alert of each rule whose threshold the phase has reached: on
the failed logins, on the ports, on the failures of two services, and on the
first session of the new user. -/
theorem attack_detected (s : Session) (k c m : ℕ) (d : ℤ) (hopen : s.opened k = true)
    (hpasses : passes s.opened (k + 1) = quietTicks s.cfg + c * period s.cfg + m)
    (hfirst : 0 < m) (hlast : m ≤ attackTicks s.cfg + 1) (hring : 8 * m ≤ ringCapacity)
    (hday : d ≤ 86400) (htimely : Timely s k m d) :
    (d ≤ s.rules.sshWindowSeconds → s.rules.sshThreshold ≤ 3 * m + 1 →
        Raises s k .sshBruteForce s.cfg.atkSsh) ∧
      (m ≤ 60 → d ≤ s.rules.scanWindowSeconds → s.rules.scanThreshold ≤ m →
        Raises s k .portScan s.cfg.atkScan) ∧
      (m % 7 = 1 ∨ m % 5 = 1 ∧ 1 < m → d ≤ s.rules.multiWindowSeconds →
        s.rules.multiMinServices ≤ 2 → Raises s k .multiServiceAuth s.cfg.atkMulti) ∧
      (m = 3 → .sudoOpen ∉ written s.cfg s.opened k →
        Raises s k .privEsc (text "newuser")) := by
  have hplace : (passes s.opened (k + 1) - quietTicks s.cfg - 1) % period s.cfg = m - 1 := by
    have hsub : passes s.opened (k + 1) - quietTicks s.cfg - 1 = m - 1 + c * period s.cfg := by
      omega
    rw [hsub, Nat.add_mul_mod_self_right]
    exact Nat.mod_eq_of_lt (by unfold period; omega)
  obtain ⟨hphase, -, hcounter⟩ := (onSchedule s.cfg s.opened (k + 1)).attack (by omega)
    (by omega)
  obtain ⟨settled, before, since, hpass⟩ := exists_attackPass s.cfg s.opened hopen hphase
  have hm : m = settled.attackCounter + 1 := by
    rw [hpass.loop, hplace] at hcounter
    dsimp only [LoopState.advance] at hcounter
    omega
  subst hm
  refine ⟨fun hwindow hthreshold => ?_, fun hports hwindow hthreshold => ?_,
    fun hturn hwindow hservices => ?_, fun hturn hnone => ?_⟩
  · exact raises_ssh hpass hring hday htimely hwindow (by omega)
  · exact raises_scan hpass hring hday htimely (by omega) hwindow (by omega)
  · exact raises_multi hpass hring hday htimely hwindow hservices (by omega)
  · exact raises_priv hpass hring hday htimely (by omega) hnone

end detection

section session

variable (cfg : AgentConfig)

/-- The log of a simulator that can always open its file. -/
def logLine (n : ℕ) : Line := ((written cfg (fun _ => true) n)[n]?).getD .started

/-- Every pass adds to the log. -/
theorem written_grows (n : ℕ) : n < (written cfg (fun _ => true) n).length ∧
    written cfg (fun _ => true) n <+: written cfg (fun _ => true) (n + 1) := by
  have hnext : ∀ n, ∃ b more, written cfg (fun _ => true) (n + 1) =
      written cfg (fun _ => true) n ++ .background b :: more := by
    intro n
    rw [(loopAt_succ cfg (fun _ => true) n).2, if_pos rfl, LoopState.pass]
    split <;> exact ⟨_, _, rfl⟩
  refine ⟨?_, ?_⟩
  · induction n with
    | zero => exact Nat.one_pos
    | succ n ih =>
      obtain ⟨b, more, hmore⟩ := hnext n
      rw [hmore, List.length_append, List.length_cons]
      omega
  · obtain ⟨b, more, hmore⟩ := hnext n
    rw [hmore]
    exact List.prefix_append _ _

theorem written_mono {n k : ℕ} (h : n ≤ k) :
    written cfg (fun _ => true) n <+: written cfg (fun _ => true) k := by
  induction k, h using Nat.le_induction with
  | base => exact List.prefix_refl _
  | succ k _ ih => exact ih.trans (written_grows cfg k).2

theorem logLine_reads (k : ℕ) :
    (List.range (written cfg (fun _ => true) k).length).map (logLine cfg) =
      written cfg (fun _ => true) k := by
  refine List.ext_getElem (by simp) fun i hi hk => ?_
  rw [List.getElem_map, List.getElem_range, logLine]
  have hown := (written_grows cfg i).1
  rw [List.getElem?_eq_getElem hown, Option.getD_some]
  rcases Nat.le_total i k with hle | hle
  · exact (written_mono cfg hle).getElem hown
  · exact ((written_mono cfg hle).getElem hk).symm

/-- A simulator that writes every five seconds, while the clock stands still. -/
def standing : Session where
  cfg := {
    host := text "web01"
    attackIpBase := text "10.0.0."
    intervalMs := 5000
    host_word := isWord_of_all (by decide) (by decide)
    base_chars := by decide +kernel
    interval_pos := by decide }
  lines := logLine _
  stamps := fun _ => {
    month := text "Mar"
    day := text " 5"
    hour := text "07"
    minute := text "08"
    second := text "09"
    month_known := by decide
    day_number := by decide
    hour_number := by decide
    minute_number := by decide
    second_number := by decide }
  clocks := fun _ => ⟨0, 0, fun _ => 70, fun _ => 0⟩
  nodeId := text "node-1"
  rules := { scanThreshold := 3 }
  readings := fun _ _ => ⟨0, 0⟩
  opened := fun _ => true
  reads := logLine_reads _

theorem timely_standing (k m : ℕ) : Timely standing k m 0 := by
  have htime : ∀ i, standing.time i = standing.time 0 := fun i =>
    ((event_readAs standing.toSimulation i).1).trans
      (event_readAs standing.toSimulation 0).1.symm
  intro i j _ _ _
  rw [htime i, htime j]
  unfold seconds
  omega

end session

end Dlads.AttackPhases
