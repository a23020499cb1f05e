import Dlads.IdsSwap

/-!
# What a failed swap leaves behind

Every swap has one of three outcomes: it is answered before anything is
touched, it succeeds with one engine that the new mode names, or it fails with
no engine left. A failed swap therefore never leaves the agent as it was, and
over any sequence of requests the agent keeps one engine, the one its mode
names, exactly as long as no swap fails.
-/

namespace Dlads.SwapRollback

open ByteText YamlConfig RuleDriver StepMachine IdsSwap

/-- Both texts that name the tailer. -/
def NamesBuiltin (mode : Bytes) : Prop := mode = builtin ∨ mode = builtinFallback

/-- Exactly one engine is running, and the mode names it. -/
inductive OneNamedEngine (s : IdsState) : Prop
  /-- The tailer alone. -/
  | tailing (file : Bytes) (ht : s.tailer = some file) (ha : s.suricataAdapter = none)
      (hm : NamesBuiltin s.idsMode)
  /-- The adapter alone. -/
  | adapting (file : Bytes) (ha : s.suricataAdapter = some file) (ht : s.tailer = none)
      (hm : s.idsMode = suricata)

/-- The `ids_mode` stored in `agent.yaml`. -/
def storedMode (s : IdsState) : Bytes := readYamlField (some s.yaml) (text "ids_mode") builtin

/-- The same engine runs on the same file, and mode, watch file and stored mode
are what they were. -/
structure Unchanged (s s' : IdsState) : Prop where
  /-- The tailer and its file. -/
  tailer : s'.tailer = s.tailer
  /-- The adapter and its file. -/
  suricataAdapter : s'.suricataAdapter = s.suricataAdapter
  /-- `g_ids_mode`. -/
  idsMode : s'.idsMode = s.idsMode
  /-- `g_watch_file`. -/
  watchFile : s'.watchFile = s.watchFile
  /-- The mode in `agent.yaml`. -/
  stored : storedMode s' = storedMode s

/-- A swap that returns anything but `ok` leaves the agent as it was. -/
def FailureLeavesUnchanged (s : IdsState) (mode : Bytes) (env : SwapEnv) : Prop :=
  (doIdsSwap s mode env).2 ≠ text "ok" → Unchanged s (doIdsSwap s mode env).1

/-- The swap is answered before it touches anything. -/
def AnsweredEarly (s : IdsState) (mode : Bytes) : Prop :=
  (mode ≠ builtin ∧ mode ≠ suricata) ∨ mode = s.idsMode

/-- The environment lets the swap through: the file can be written, `eve.json`
is there when it is needed, and the engine starts. -/
def EnvAllows (mode : Bytes) (env : SwapEnv) : Prop :=
  env.write.inOpens = true ∧ env.write.outOpens = true ∧
    (mode = suricata → env.eveExists = true) ∧ env.startThrows = none

/-- The swap does not fail half-way. -/
def Conforms (s : IdsState) (mode : Bytes) (env : SwapEnv) : Prop :=
  AnsweredEarly s mode ∨ EnvAllows mode env

/-- A text that starts differently is a different text. -/
theorem append_ne_of_head? {a b c : Bytes} (ha : a ≠ []) (h : a.head? ≠ c.head?) : a ++ b ≠ c := by
  intro he
  rw [← he, List.head?_append_of_ne_nil a ha] at h
  exact h rfl

/-- The three outcomes of a swap. -/
inductive Outcome (s : IdsState) (mode : Bytes) (env : SwapEnv) (after : IdsState)
    (result : Bytes) : Prop
  /-- Answered early. -/
  | early (h : AnsweredEarly s mode) (hs : after = s) (hr : result ≠ text "ok")
  /-- Swapped. -/
  | swapped (he : EnvAllows mode env) (hs : OneNamedEngine after) (hr : result = text "ok")
  /-- Failed after the teardown. -/
  | failed (h : ¬AnsweredEarly s mode) (he : ¬EnvAllows mode env) (ht : after.tailer = none)
      (ha : after.suricataAdapter = none) (hr : result ≠ text "ok")

theorem startSuricata_outcome {s₀ s : IdsState} {env : SwapEnv} (h : ¬AnsweredEarly s₀ suricata)
    (hw : env.write.inOpens = true ∧ env.write.outOpens = true) (ht : s.tailer = none)
    (ha : s.suricataAdapter = none) :
    Outcome s₀ suricata env (startSuricata s env).1 (startSuricata s env).2 := by
  unfold startSuricata
  cases heve : env.eveExists with
  | false =>
    refine .failed h ?_ ht ha (append_ne_of_head? (by decide) (by decide))
    intro hallow
    have hexists := hallow.2.2.1 rfl
    rw [heve] at hexists
    cases hexists
  | true =>
    dsimp only
    rw [if_neg (by decide)]
    cases hthrow : env.startThrows with
    | none =>
      exact .swapped ⟨hw.1, hw.2, fun _ => heve, hthrow⟩ (.adapting s.eveJsonPath rfl ht rfl) rfl
    | some what =>
      refine .failed h ?_ ht rfl (append_ne_of_head? (by decide) (by decide))
      intro hallow
      have hnone := hallow.2.2.2
      rw [hthrow] at hnone
      cases hnone

theorem startBuiltin_outcome {s₀ s : IdsState} {env : SwapEnv} (h : ¬AnsweredEarly s₀ builtin)
    (hw : env.write.inOpens = true ∧ env.write.outOpens = true)
    (ha : s.suricataAdapter = none) :
    Outcome s₀ builtin env (startBuiltin s env).1 (startBuiltin s env).2 := by
  unfold startBuiltin
  dsimp only
  cases hthrow : env.startThrows with
  | none =>
    refine .swapped ⟨hw.1, hw.2, fun hb => ?_, hthrow⟩ (.tailing s.watchFile rfl ha (.inl rfl)) rfl
    exact absurd hb (by decide)
  | some what =>
    refine .failed h ?_ rfl ha (append_ne_of_head? (by decide) (by decide))
    intro hallow
    have hnone := hallow.2.2.2
    rw [hthrow] at hnone
    cases hnone

/-- Every swap has one of the three outcomes. -/
theorem doIdsSwap_outcome (s : IdsState) (mode : Bytes) (env : SwapEnv) :
    Outcome s mode env (doIdsSwap s mode env).1 (doIdsSwap s mode env).2 := by
  unfold doIdsSwap
  split
  · next hinvalid =>
    have hne : text "invalid mode" ≠ text "ok" := by decide
    have hearly : AnsweredEarly s mode := .inl (by simpa using hinvalid)
    exact .early hearly rfl hne
  · next hvalid =>
    split
    · next hsame =>
      have hne : text "already in " ++ mode ++ text " mode" ≠ text "ok" := by
        rw [List.append_assoc]
        exact append_ne_of_head? (by decide) (by decide)
      exact .early (.inr (by simpa using hsame)) rfl hne
    · next hother =>
      have hearly : ¬AnsweredEarly s mode := by
        rintro (hinv | hsame)
        · exact hvalid (by simpa using hinv)
        · exact hother (by simpa using hsame)
      have hmode : mode = builtin ∨ mode = suricata := by
        by_contra hinv
        exact hearly (.inl (not_or.mp hinv))
      dsimp only
      -- the engines are gone from here on, whatever the write does
      have htail : (storeMode (teardown s) mode env.write).2.tailer = none := rfl
      have hadapt : (storeMode (teardown s) mode env.write).2.suricataAdapter = none := rfl
      cases hw : env.write.inOpens && env.write.outOpens with
      | false =>
        have hstored : (storeMode (teardown s) mode env.write).1 = false := by
          simp [storeMode, writeYamlField, hw]
        have hne : text "yaml write failed" ≠ text "ok" := by decide
        rw [hstored]
        refine .failed hearly ?_ htail hadapt hne
        intro hallow
        rw [hallow.1, hallow.2.1] at hw
        cases hw
      | true =>
        have hstored : (storeMode (teardown s) mode env.write).1 = true := by
          simp [storeMode, writeYamlField, hw]
        rw [hstored, if_neg (by decide)]
        have hopens : env.write.inOpens = true ∧ env.write.outOpens = true := by simpa using hw
        rcases hmode with rfl | rfl
        · rw [if_neg (by decide)]
          exact startBuiltin_outcome hearly hopens hadapt
        · rw [if_pos (by decide)]
          exact startSuricata_outcome hearly hopens htail hadapt

section requests

variable {s : IdsState} {mode : Bytes} {env : SwapEnv}

/-- One running engine is not none. -/
theorem OneNamedEngine.running (h : OneNamedEngine s) :
    ¬(s.tailer = none ∧ s.suricataAdapter = none) := by
  rintro ⟨ht, ha⟩
  cases h with
  | tailing file htail => simp [htail] at ht
  | adapting file hadapt => simp [hadapt] at ha

/-- A failure leaves the agent as it was exactly when the swap does not fail
half-way. -/
theorem failureLeavesUnchanged_iff (h : OneNamedEngine s) :
    FailureLeavesUnchanged s mode env ↔ Conforms s mode env := by
  have houtcome := doIdsSwap_outcome s mode env
  constructor
  · intro hkeep
    cases houtcome with
    | early hearly => exact .inl hearly
    | swapped he => exact .inr he
    | failed hearly he ht ha hr =>
      have hun := hkeep hr
      exact absurd ⟨hun.tailer.symm.trans ht, hun.suricataAdapter.symm.trans ha⟩ h.running
  · intro hc hr
    cases houtcome with
    | early hearly hs =>
      rw [hs]
      exact ⟨rfl, rfl, rfl, rfl, rfl⟩
    | swapped he hs hok => exact absurd hok hr
    | failed hearly he =>
      rcases hc with hc | hc
      · exact absurd hc hearly
      · exact absurd hc he

/-- One swap keeps one named engine exactly when it does not fail half-way. -/
theorem oneNamedEngine_doIdsSwap_iff (h : OneNamedEngine s) :
    OneNamedEngine (doIdsSwap s mode env).1 ↔ Conforms s mode env := by
  have houtcome := doIdsSwap_outcome s mode env
  constructor
  · intro hone
    cases houtcome with
    | early hearly => exact .inl hearly
    | swapped he => exact .inr he
    | failed hearly he ht ha => exact absurd ⟨ht, ha⟩ hone.running
  · intro hc
    cases houtcome with
    | early hearly hs =>
      rw [hs]
      exact h
    | swapped he hs => exact hs
    | failed hearly he =>
      rcases hc with hc | hc
      · exact absurd hc hearly
      · exact absurd hc he

/-- The handler swaps the mode its request names; without one it does nothing,
as a swap to an invalid mode. -/
theorem postConfig_fst (request : Bytes) :
    (postConfig s request env).1 = (doIdsSwap s (newMode request) env).1 := by
  unfold postConfig
  dsimp only
  split
  · next hempty =>
    have hnil : newMode request = [] := List.isEmpty_iff.mp hempty
    have hinvalid : ((newMode request != builtin) && (newMode request != suricata)) = true := by
      rw [hnil]
      decide
    rw [doIdsSwap, if_pos hinvalid]
  · split <;> rfl

end requests

/-- State of the agent before a request. -/
def stateAt (start : IdsState) (requests : ℕ → Bytes × SwapEnv) (n : ℕ) : IdsState :=
  configServer.stateAt start requests n

theorem stateAt_succ (start : IdsState) (requests : ℕ → Bytes × SwapEnv) (n : ℕ) :
    stateAt start requests (n + 1) =
      (doIdsSwap (stateAt start requests n) (newMode (requests n).1) (requests n).2).1 :=
  postConfig_fst (requests n).1

/-- From one named engine on, over any sequence of requests: failures leave the
agent as it was and one named engine keeps running, exactly as long as every
swap is answered early or let through by its environment. -/
theorem swaps_conform_iff (start : IdsState) (h : OneNamedEngine start)
    (requests : ℕ → Bytes × SwapEnv) :
    (∀ n, OneNamedEngine (stateAt start requests n) ∧
      FailureLeavesUnchanged (stateAt start requests n) (newMode (requests n).1) (requests n).2) ↔
      ∀ n, Conforms (stateAt start requests n) (newMode (requests n).1) (requests n).2 := by
  constructor
  · intro hall n
    exact (failureLeavesUnchanged_iff (hall n).1).mp (hall n).2
  · intro hconf n
    have hone : OneNamedEngine (stateAt start requests n) := by
      induction n with
      | zero => exact h
      | succ n ih =>
        rw [stateAt_succ]
        exact (oneNamedEngine_doIdsSwap_iff ih).mpr (hconf n)
    exact ⟨hone, (failureLeavesUnchanged_iff hone).mpr (hconf n)⟩

/-- An agent that tails its log. -/
def tailingAgent : IdsState where
  suricataAdapter := none
  tailer := some (text "auth.log")
  engine := .init {}
  idsMode := builtin
  watchFile := text "auth.log"
  eveJsonPath := text "eve.json"
  yaml := text "ids_mode: builtin\n"

theorem tailingAgent_one : OneNamedEngine tailingAgent :=
  .tailing (text "auth.log") rfl rfl (.inl rfl)

/-- A writable file, and no `eve.json`. -/
def eveMissing : SwapEnv where
  write := ⟨true, true⟩
  eveExists := false
  configOpens := true
  startThrows := none
  rollback := ⟨true, true⟩

/-- A request for the adapter that finds no `eve.json` is refused, but the
tailer is gone. -/
theorem eveMissing_changes : OneNamedEngine tailingAgent ∧
    (doIdsSwap tailingAgent suricata eveMissing).2 = text "eve.json not found at eve.json" ∧
    ¬FailureLeavesUnchanged tailingAgent suricata eveMissing ∧
    ¬OneNamedEngine (doIdsSwap tailingAgent suricata eveMissing).1 := by
  have hr : (doIdsSwap tailingAgent suricata eveMissing).2 =
      text "eve.json not found at eve.json" := by decide
  have hgone : (doIdsSwap tailingAgent suricata eveMissing).1.tailer = none ∧
      (doIdsSwap tailingAgent suricata eveMissing).1.suricataAdapter = none := by decide
  refine ⟨tailingAgent_one, hr, ?_, fun hone => hone.running hgone⟩
  intro hkeep
  have hne : (doIdsSwap tailingAgent suricata eveMissing).2 ≠ text "ok" := by
    rw [hr]
    decide
  have hsame := (hkeep hne).tailer
  rw [hgone.1] at hsame
  cases hsame

/-- A request for the adapter. -/
def suricataRequest : Bytes := text "POST /config\x0d\n\x0d\n\x7b\"ids_mode\":\"suricata\"\x7d"

/-- An agent that is asked for the adapter again and again, with `eve.json` in
place: it starts with its tailer, swaps and stays with the adapter. -/
theorem suricataRequest_conforms : OneNamedEngine tailingAgent ∧ ∀ n,
    OneNamedEngine (stateAt tailingAgent
      (fun _ => (suricataRequest, { eveMissing with eveExists := true })) n) ∧
    FailureLeavesUnchanged (stateAt tailingAgent
      (fun _ => (suricataRequest, { eveMissing with eveExists := true })) n)
      (newMode suricataRequest) { eveMissing with eveExists := true } := by
  constructor
  · exact tailingAgent_one
  · exact (swaps_conform_iff tailingAgent tailingAgent_one
      fun _ => (suricataRequest, { eveMissing with eveExists := true })).mpr
      fun _ => .inr ⟨rfl, rfl, fun _ => rfl, rfl⟩

end Dlads.SwapRollback
