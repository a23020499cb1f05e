import Dlads.SwapRollback

/-!
# The log that the agent watches

`main` is given a log to watch. A swap to the adapter overwrites the name of
this log by that of `eve.json`, and a swap to the tailer assigns the name to
itself. After a swap there and back the tailer therefore reads `eve.json`; it
reads the log of `main` as long as no swap to the adapter is followed by one
to the tailer.
-/

namespace Dlads.WatchedLog

open ByteText YamlConfig RuleDriver StepMachine IdsSwap SwapRollback

/-- How the environment answers while `main` starts an engine. -/
structure StartEnv where
  /-- `agent.yaml` can be opened by `from_yaml`. -/
  configOpens : Bool
  /-- It can be opened to read `ids_mode`. -/
  modeOpens : Bool
  /-- It can be opened to read `eve_json_path`. -/
  eveOpens : Bool
  /-- `eve.json` can be opened. -/
  eveExists : Bool
  /-- `start()` throws. -/
  startThrows : Bool
  /-- Opens of the `write_yaml_field` of the fallback. -/
  rollback : WriteOutcome

/-- The globals before `main` starts an engine. -/
def loaded (watch yaml : Bytes) (env : StartEnv) : IdsState :=
  let mode := readYamlField (if env.modeOpens then some yaml else none) (text "ids_mode") builtin
  { suricataAdapter := none
    tailer := none
    engine := .init (.fromYaml (if env.configOpens then some yaml else none))
    idsMode := if mode != suricata then builtin else mode
    watchFile := watch
    eveJsonPath := readYamlField (if env.eveOpens then some yaml else none) (text "eve_json_path")
      (text "/var/log/suricata/eve.json")
    yaml := yaml }

/-- `main` up to its background threads: the globals with an engine started,
or nothing if the process ends. -/
def mainStart (watch yaml : Bytes) (env : StartEnv) : Option IdsState :=
  let s := loaded watch yaml env
  if s.idsMode == suricata && env.eveExists then
    if env.startThrows then none else some { s with suricataAdapter := some s.eveJsonPath }
  else
    let s :=
      if s.idsMode == suricata then
        { (storeMode s builtin env.rollback).2 with idsMode := builtinFallback }
      else s
    if env.startThrows then none else some { s with tailer := some watch }

/-- The handler of `POST /config` reports success. -/
def Successful (result : Bytes) : Prop := result = text "ok" ∨ (text "already").isPrefixOf result

instance : DecidablePred Successful := fun result => by
  unfold Successful
  infer_instance

/-- Calls of `do_ids_swap`, one after the other. -/
def swapper : Machine IdsState (Bytes × SwapEnv) Bytes where
  step := fun s call => doIdsSwap s call.1 call.2

/-- The running tailer reads the log that `main` was given, and `/status`
reports this log. -/
def Watches (watch : Bytes) (s : IdsState) : Prop :=
  ∀ file, s.tailer = some file → file = watch ∧ s.watchFile = watch

section main

variable {watch yaml : Bytes} {env : StartEnv} {start : IdsState}

/-- Any other mode is read as that of the tailer. -/
theorem loaded_mode (watch yaml : Bytes) (env : StartEnv) :
    (loaded watch yaml env).idsMode = builtin ∨ (loaded watch yaml env).idsMode = suricata := by
  unfold loaded
  dsimp only
  generalize readYamlField (if env.modeOpens then some yaml else none) (text "ids_mode") builtin =
    mode
  by_cases hmode : mode = suricata
  · subst hmode
    exact .inr rfl
  · exact .inl (if_pos (by simpa using hmode))

/-- `main` starts the engine that its mode names, the tailer on the log. -/
theorem mainStart_spec (h : mainStart watch yaml env = some start) :
    OneNamedEngine start ∧ start.watchFile = watch ∧
      ∀ file, start.tailer = some file → file = watch := by
  unfold mainStart at h
  dsimp only at h
  split at h
  · next hmode =>
    split at h
    · cases h
    · cases h
      have hnamed : (loaded watch yaml env).idsMode = suricata := by
        simp only [Bool.and_eq_true, beq_iff_eq] at hmode
        exact hmode.1
      exact ⟨.adapting _ rfl rfl hnamed, rfl, fun file hfile => by cases hfile⟩
  · split at h
    · cases h
    · split at h
      · cases h
        exact ⟨.tailing watch rfl rfl (.inr rfl), rfl, fun file hfile => by cases hfile; rfl⟩
      · next hmode =>
        cases h
        have hnamed : (loaded watch yaml env).idsMode = builtin :=
          (loaded_mode watch yaml env).resolve_right (by simpa using hmode)
        exact ⟨.tailing watch rfl rfl (.inl hnamed), rfl, fun file hfile => by cases hfile; rfl⟩

end main

section swaps

variable {s : IdsState} {mode : Bytes} {env : SwapEnv}

/-- What a successful call does: nothing if the mode is the present one, else
a swap to the adapter, which overwrites the name of the log, or a swap to the
tailer, which starts it on the file of that name. -/
inductive Swap (s : IdsState) (mode : Bytes) (after : IdsState) : Prop
  /-- The mode is the present one. -/
  | same (hmode : mode = s.idsMode) (hafter : after = s)
  /-- To the adapter. -/
  | toSuricata (hmode : mode = suricata) (hother : mode ≠ s.idsMode) (htailer : after.tailer = none)
      (hwatch : after.watchFile = s.eveJsonPath) (heve : after.eveJsonPath = s.eveJsonPath)
  /-- To the tailer. -/
  | toBuiltin (hmode : mode = builtin) (hother : mode ≠ s.idsMode)
      (htailer : after.tailer = some s.watchFile) (hwatch : after.watchFile = s.watchFile)
      (heve : after.eveJsonPath = s.eveJsonPath)

/-- A report of success starts with a letter that no report of a failure starts
with. -/
theorem not_successful {lead : Bytes}
    (hlead : lead ≠ [] ∧ lead.head? ≠ some 111 ∧ lead.head? ≠ some 97) (rest : Bytes) :
    ¬Successful (lead ++ rest) := by
  obtain ⟨hne, hok, halready⟩ := hlead
  have hhead : (lead ++ rest).head? = lead.head? := List.head?_append_of_ne_nil lead hne
  rintro (h | hprefix)
  · rw [h] at hhead
    exact hok hhead.symm
  · obtain ⟨more, h⟩ := List.isPrefixOf_iff_prefix.mp hprefix
    rw [← h] at hhead
    exact halready hhead.symm

theorem startSuricata_swap {s₀ : IdsState} (hother : suricata ≠ s₀.idsMode)
    (heve : s.eveJsonPath = s₀.eveJsonPath) (htailer : s.tailer = none)
    (h : Successful (startSuricata s env).2) : Swap s₀ suricata (startSuricata s env).1 := by
  unfold startSuricata at h ⊢
  dsimp only at h ⊢
  split at h
  · exact absurd h (not_successful (by decide) _)
  · next hexists =>
    rw [if_neg hexists]
    split at h
    · exact .toSuricata rfl hother htailer heve heve
    · exact absurd h (not_successful (by decide) _)

theorem startBuiltin_swap {s₀ : IdsState} (hother : builtin ≠ s₀.idsMode)
    (heve : s.eveJsonPath = s₀.eveJsonPath) (hwatch : s.watchFile = s₀.watchFile)
    (h : Successful (startBuiltin s env).2) : Swap s₀ builtin (startBuiltin s env).1 := by
  unfold startBuiltin at h ⊢
  dsimp only at h ⊢
  split at h
  · exact .toBuiltin rfl hother (congrArg some hwatch) hwatch heve
  · exact absurd h (not_successful (by decide) _)

theorem swap_of_successful (h : Successful (doIdsSwap s mode env).2) :
    Swap s mode (doIdsSwap s mode env).1 := by
  unfold doIdsSwap at h ⊢
  split at h
  · exact absurd h (@not_successful (text "invalid mode") (by decide) [])
  · next hvalid =>
    rw [if_neg hvalid]
    split at h
    · next hsame =>
      rw [if_pos hsame]
      exact .same (by simpa using hsame) rfl
    · next hdiffers =>
      have hother : mode ≠ s.idsMode := by simpa using hdiffers
      rw [if_neg hdiffers]
      dsimp only at h ⊢
      split at h
      · exact absurd h (@not_successful (text "yaml write failed") (by decide) [])
      · next hstored =>
        rw [if_neg hstored]
        split at h
        · next hmode =>
          rw [if_pos hmode]
          rw [beq_iff_eq] at hmode
          subst hmode
          exact startSuricata_swap hother rfl rfl h
        · next hmode =>
          rw [if_neg hmode]
          have hbuiltin : mode = builtin := by
            rw [beq_iff_eq] at hmode
            simpa [hmode] using hvalid
          subst hbuiltin
          exact startBuiltin_swap hother rfl rfl h

end swaps

section runs

variable (start : IdsState) (calls : ℕ → Bytes × SwapEnv)

/-- The agent before a call. -/
def agentAt (n : ℕ) : IdsState := swapper.stateAt start calls n

/-- A call names a mode that is not the present one. -/
def SwapsTo (mode : Bytes) (k : ℕ) : Prop :=
  (calls k).1 = mode ∧ mode ≠ (agentAt start calls k).idsMode

/-- Every call before a point reports success. -/
def AllSuccessful (n : ℕ) : Prop := ∀ k < n, Successful (swapper.outputAt start calls k)

/-- What successful calls have made of the watched log. -/
structure Watching (n : ℕ) : Prop where
  /-- The tailer reads the file of that name. -/
  tailed : ∀ file, (agentAt start calls n).tailer = some file →
    file = (agentAt start calls n).watchFile
  /-- The path of `eve.json` stays. -/
  eve : (agentAt start calls n).eveJsonPath = start.eveJsonPath
  /-- Without a swap to the adapter the name stays. -/
  kept : (∀ i < n, ¬SwapsTo start calls suricata i) →
    (agentAt start calls n).watchFile = start.watchFile
  /-- A swap to the adapter overwrites it for good. -/
  overwritten : ∀ i < n, SwapsTo start calls suricata i →
    (agentAt start calls n).watchFile = start.eveJsonPath
  /-- A tailer that runs behind such a swap was started behind it. -/
  back : (agentAt start calls n).tailer ≠ none → ∀ i < n, SwapsTo start calls suricata i →
    ∃ j, i < j ∧ j < n ∧ SwapsTo start calls builtin j

variable {start calls}

/-- A call up to a point that swaps to another mode than the last one is an
earlier one. -/
theorem lt_of_swapsTo {mode : Bytes} {n i : ℕ} (hlast : ¬SwapsTo start calls mode n)
    (hi : i < n + 1) (hto : SwapsTo start calls mode i) : i < n := by
  rcases Nat.lt_succ_iff_lt_or_eq.mp hi with hlt | rfl
  · exact hlt
  · exact absurd hto hlast

/-- One more successful call. -/
theorem Watching.succ {n : ℕ} (h : Watching start calls n)
    (hswap : Swap (agentAt start calls n) (calls n).1 (agentAt start calls (n + 1))) :
    Watching start calls (n + 1) := by
  cases hswap with
  | same hmode hafter =>
    have hno : ¬SwapsTo start calls suricata n := fun hto => hto.2 (hto.1 ▸ hmode)
    refine ⟨?_, ?_, fun hnone => ?_, fun i hi hto => ?_, fun hsome i hi hto => ?_⟩
    · rw [hafter]
      exact h.tailed
    · rw [hafter]
      exact h.eve
    · rw [hafter]
      exact h.kept fun i hi => hnone i (Nat.lt_succ_of_lt hi)
    · rw [hafter]
      exact h.overwritten i (lt_of_swapsTo hno hi hto) hto
    · rw [hafter] at hsome
      obtain ⟨j, hij, hjn, hback⟩ := h.back hsome i (lt_of_swapsTo hno hi hto) hto
      exact ⟨j, hij, Nat.lt_succ_of_lt hjn, hback⟩
  | toSuricata hmode hother htailer hwatch heve =>
    have hto : SwapsTo start calls suricata n := ⟨hmode, hmode ▸ hother⟩
    refine ⟨?_, heve.trans h.eve, fun hnone => ?_, fun i hi hto => hwatch.trans h.eve, ?_⟩
    · rw [htailer]
      exact fun file hfile => by cases hfile
    · exact absurd hto (hnone n (Nat.lt_succ_self n))
    · exact fun hsome => absurd htailer hsome
  | toBuiltin hmode hother htailer hwatch heve =>
    have hto : SwapsTo start calls builtin n := ⟨hmode, hmode ▸ hother⟩
    have hno : ¬SwapsTo start calls suricata n := fun hgone =>
      absurd (hto.1.symm.trans hgone.1) (by decide)
    refine ⟨?_, heve.trans h.eve, fun hnone => ?_, fun i hi hgone => ?_, fun _ i hi hgone => ?_⟩
    · rw [htailer, hwatch]
      exact fun file hfile => by cases hfile; rfl
    · rw [hwatch]
      exact h.kept fun i hi => hnone i (Nat.lt_succ_of_lt hi)
    · rw [hwatch]
      exact h.overwritten i (lt_of_swapsTo hno hi hgone) hgone
    · exact ⟨n, lt_of_swapsTo hno hi hgone, Nat.lt_succ_self n, hto⟩

theorem watching_agentAt (htailed : ∀ file, start.tailer = some file → file = start.watchFile)
    {n : ℕ} (h : AllSuccessful start calls n) : Watching start calls n := by
  induction n with
  | zero =>
    exact ⟨htailed, rfl, fun _ => rfl, fun i hi => absurd hi (Nat.not_lt_zero i),
      fun _ i hi => absurd hi (Nat.not_lt_zero i)⟩
  | succ n ih =>
    have hsuccess : Successful (doIdsSwap (agentAt start calls n) (calls n).1 (calls n).2).2 :=
      h n (Nat.lt_succ_self n)
    exact (ih fun k hk => h k (Nat.lt_succ_of_lt hk)).succ (swap_of_successful hsuccess)

/-- A successful swap to the tailer starts it on the file of the name. -/
theorem tailer_of_swapsTo {n : ℕ} (h : Successful (swapper.outputAt start calls n))
    (hto : SwapsTo start calls builtin n) :
    (agentAt start calls (n + 1)).tailer = some (agentAt start calls n).watchFile := by
  have hswap : Swap (agentAt start calls n) (calls n).1 (agentAt start calls (n + 1)) :=
    swap_of_successful h
  cases hswap with
  | same hmode => exact absurd (hto.1.symm.trans hmode) hto.2
  | toSuricata hmode => exact absurd (hto.1.symm.trans hmode) (by decide)
  | toBuiltin hmode hother htailer => exact htailer

end runs

/-- From the start of the process on, over any calls that succeed: wherever the
tailer runs it reads the log given to `main`, exactly if that log is `eve.json`
itself or no swap to the adapter is followed by one to the tailer. -/
theorem watches_iff {watch yaml : Bytes} {env : StartEnv} {start : IdsState}
    (hstart : mainStart watch yaml env = some start) (calls : ℕ → Bytes × SwapEnv) (n : ℕ)
    (h : AllSuccessful start calls n) :
    (∀ m ≤ n, Watches watch (agentAt start calls m)) ↔ watch = start.eveJsonPath ∨
      ∀ i j, i < j → j < n → ¬(SwapsTo start calls suricata i ∧ SwapsTo start calls builtin j) := by
  obtain ⟨-, hwatch, htailed⟩ := mainStart_spec hstart
  have hfile : ∀ file, start.tailer = some file → file = start.watchFile :=
    fun file hfile => (htailed file hfile).trans hwatch.symm
  have hwatching : ∀ m ≤ n, Watching start calls m := fun m hm =>
    watching_agentAt hfile fun k hk => h k (hk.trans_le hm)
  constructor
  · intro hall
    by_cases heve : watch = start.eveJsonPath
    · exact .inl heve
    · refine .inr fun i j hij hjn ⟨hsuricata, hbuiltin⟩ => heve ?_
      have htailer := tailer_of_swapsTo (h j hjn) hbuiltin
      have hname := (hwatching j hjn.le).overwritten i hij hsuricata
      rw [hname] at htailer
      exact (hall (j + 1) hjn _ htailer).1.symm
  · intro hcond m hm file htailer
    have hinv := hwatching m hm
    have hname : (agentAt start calls m).watchFile = watch := by
      by_cases hswapped : ∃ i < m, SwapsTo start calls suricata i
      · obtain ⟨i, him, hto⟩ := hswapped
        rcases hcond with heve | hnever
        · rw [hinv.overwritten i him hto, heve]
        · have hsome : (agentAt start calls m).tailer ≠ none := by
            rw [htailer]
            exact Option.some_ne_none file
          obtain ⟨j, hij, hjm, hback⟩ := hinv.back hsome i him hto
          exact absurd ⟨hto, hback⟩ (hnever i j hij (hjm.trans_le hm))
      · rw [hinv.kept fun i hi hto => hswapped ⟨i, hi, hto⟩, hwatch]
    exact ⟨(hinv.tailed file htailer).trans hname, hname⟩

/-- Everything can be opened and started. -/
def everythingOpens : StartEnv := ⟨true, true, true, true, false, ⟨true, true⟩⟩

/-- A call that can open and start everything. -/
def swapTo (mode : Bytes) : Bytes × SwapEnv := (mode, { eveMissing with eveExists := true })

/-- A configuration for the adapter. -/
def suricataYaml : Bytes := text "ids_mode: suricata\neve_json_path: eve.json\n"

/-- The agent that `main` starts on `eve.json`, with `auth.log` for the tailer. -/
def adaptingAgent : IdsState :=
  { tailingAgent with
    suricataAdapter := some (text "eve.json")
    tailer := none
    idsMode := suricata
    yaml := suricataYaml }

theorem adaptingAgent_started :
    mainStart (text "auth.log") suricataYaml everythingOpens = some adaptingAgent := by
  decide +kernel

/-- To the tailer, the same once more, and back to the adapter. -/
def tailedBetween (n : ℕ) : Bytes × SwapEnv := swapTo (if n < 2 then builtin else suricata)

theorem watches_tailedBetween :
    mainStart (text "auth.log") suricataYaml everythingOpens = some adaptingAgent ∧
    AllSuccessful adaptingAgent tailedBetween 3 ∧
    (agentAt adaptingAgent tailedBetween 1).tailer = some (text "auth.log") ∧
    (agentAt adaptingAgent tailedBetween 2).tailer = some (text "auth.log") ∧
    SwapsTo adaptingAgent tailedBetween suricata 2 ∧
    ∀ m ≤ 3, Watches (text "auth.log") (agentAt adaptingAgent tailedBetween m) := by
  have hsuccess : AllSuccessful adaptingAgent tailedBetween 3 := by
    unfold AllSuccessful
    decide +kernel
  have hnever : ∀ i j, i < j → j < 3 → ¬(SwapsTo adaptingAgent tailedBetween suricata i ∧
      SwapsTo adaptingAgent tailedBetween builtin j) := by
    rintro i j hij hj ⟨hsuricata, -⟩
    -- The calls before the last one name the tailer.
    have hi : i < 2 := by omega
    have hmode : (tailedBetween i).1 = builtin := by simp [tailedBetween, swapTo, hi]
    exact absurd (hsuricata.1.symm.trans hmode) (by decide)
  have hto : SwapsTo adaptingAgent tailedBetween suricata 2 := by
    unfold SwapsTo
    decide +kernel
  exact ⟨adaptingAgent_started, hsuccess, by decide +kernel, by decide +kernel, hto,
    (watches_iff adaptingAgent_started tailedBetween 3 hsuccess).mpr (.inr hnever)⟩

/-- A configuration for the tailer. -/
def agentYaml : Bytes := text "ids_mode: builtin\neve_json_path: eve.json\n"

/-- The agent that `main` starts on `auth.log`. -/
def startedAgent : IdsState := { tailingAgent with yaml := agentYaml }

theorem startedAgent_started :
    mainStart (text "auth.log") agentYaml everythingOpens = some startedAgent := by
  decide +kernel

/-- There and back. -/
def roundTrip (n : ℕ) : Bytes × SwapEnv := swapTo (if n = 0 then suricata else builtin)

/-- Behind the round trip the tailer reads `eve.json`. -/
theorem roundTrip_loses :
    mainStart (text "auth.log") agentYaml everythingOpens = some startedAgent ∧
    AllSuccessful startedAgent roundTrip 2 ∧
    (agentAt startedAgent roundTrip 2).tailer = some (text "eve.json") ∧
    (agentAt startedAgent roundTrip 2).watchFile = text "eve.json" ∧
    ¬Watches (text "auth.log") (agentAt startedAgent roundTrip 2) := by
  have hsuccess : AllSuccessful startedAgent roundTrip 2 := by
    unfold AllSuccessful
    decide +kernel
  have htailer : (agentAt startedAgent roundTrip 2).tailer = some (text "eve.json") := by
    decide +kernel
  refine ⟨startedAgent_started, hsuccess, htailer, by decide +kernel, fun h => ?_⟩
  exact absurd (h _ htailer).1 (by decide)

end Dlads.WatchedLog
