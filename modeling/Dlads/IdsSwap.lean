import Dlads.RuleDriver

/-!
# The hot swap of the detection engine

`do_ids_swap` and the handler of `POST /config` that calls it. A swap stops
the running engine, writes the new mode to `agent.yaml`, and only then looks
whether the other engine can run; each failure returns after a rollback of its
own. What no rollback restores is the stopped engine, so a swap that gets past
its two early answers either succeeds or leaves the agent without an engine.
-/

namespace Dlads.IdsSwap

open ByteText YamlConfig RuleDriver StepMachine

/-- The globals that a swap reads and writes. An engine object that runs is
represented by the file it reads. -/
structure IdsState where
  /-- `g_suricata_adapter`, none while the pointer is null. -/
  suricataAdapter : Option Bytes
  /-- `g_tailer`, none while the pointer is null. -/
  tailer : Option Bytes
  /-- `g_engine`. -/
  engine : RuleEngine
  /-- `g_ids_mode`. -/
  idsMode : Bytes
  /-- `g_watch_file`. -/
  watchFile : Bytes
  /-- `g_eve_json_path`. -/
  eveJsonPath : Bytes
  /-- Content of `agent.yaml`. -/
  yaml : Bytes
  deriving DecidableEq

/-- How the environment answers during one swap. -/
structure SwapEnv where
  /-- Opens of the first `write_yaml_field`. -/
  write : WriteOutcome
  /-- `eve.json` can be opened. -/
  eveExists : Bool
  /-- `agent.yaml` can be opened by `from_yaml`. -/
  configOpens : Bool
  /-- Message of the exception that `start()` throws, if it does. -/
  startThrows : Option Bytes
  /-- Opens of the `write_yaml_field` that rolls back. -/
  rollback : WriteOutcome
  deriving DecidableEq

/-- The mode of the tailer. -/
def builtin : Bytes := text "builtin"

/-- The mode of the adapter. -/
def suricata : Bytes := text "suricata"

/-- The mode `main` sets when it falls back to the tailer. -/
def builtinFallback : Bytes := text "builtin (fallback " ++ emDash ++ text " eve.json missing)"

/-- Stop and reset whichever engine runs. -/
def teardown (s : IdsState) : IdsState := { s with suricataAdapter := none, tailer := none }

/-- Write `ids_mode`; whether the write succeeded, and the state after it. -/
def storeMode (s : IdsState) (mode : Bytes) (outcome : WriteOutcome) : Bool × IdsState :=
  let written := writeYamlField s.yaml (text "ids_mode") mode outcome
  (written.1, { s with yaml := written.2 })

/-- The branch of `do_ids_swap` that starts the adapter. -/
def startSuricata (s : IdsState) (env : SwapEnv) : IdsState × Bytes :=
  if !env.eveExists then
    ((storeMode s builtin env.rollback).2, text "eve.json not found at " ++ s.eveJsonPath)
  else
    let s := { s with watchFile := s.eveJsonPath, suricataAdapter := some s.eveJsonPath }
    match env.startThrows with
    | none => ({ s with idsMode := suricata }, text "ok")
    | some what =>
      ((storeMode { s with suricataAdapter := none } builtin env.rollback).2,
        text "suricata start failed: " ++ what)

/-- The branch of `do_ids_swap` that starts the tailer, with a new rule engine. -/
def startBuiltin (s : IdsState) (env : SwapEnv) : IdsState × Bytes :=
  let cfg := RuleConfig.fromYaml (if env.configOpens then some s.yaml else none)
  let s := { s with engine := .init cfg, tailer := some s.watchFile }
  match env.startThrows with
  | none => ({ s with idsMode := builtin }, text "ok")
  | some what =>
    ((storeMode { s with tailer := none } suricata env.rollback).2,
      text "builtin start failed: " ++ what)

/-- `do_ids_swap`: the state after it and the text it returns. -/
def doIdsSwap (s : IdsState) (newMode : Bytes) (env : SwapEnv) : IdsState × Bytes :=
  if newMode != builtin && newMode != suricata then (s, text "invalid mode")
  else if newMode == s.idsMode then (s, text "already in " ++ newMode ++ text " mode")
  else
    let stored := storeMode (teardown s) newMode env.write
    if !stored.1 then (stored.2, text "yaml write failed")
    else if newMode == suricata then startSuricata stored.2 env
    else startBuiltin stored.2 env

/-- What follows the first occurrence of a needle, as the handler's chain of
`find` calls walks on. -/
def newMode (request : Bytes) : Bytes :=
  let jsonBody := (after (text "\x0d\n\x0d\n") request).getD []
  match (find (text "\"ids_mode\"") jsonBody).map (jsonBody.drop ·) with
  | none => []
  | some field =>
    match (after (text ":") field).bind (after (text "\"")) with
    | none => []
    | some value => ((find (text "\"") value).map (value.take ·)).getD []

/-- The handler of `POST /config`: status code and body of the response. -/
def postConfig (s : IdsState) (request : Bytes) (env : SwapEnv) : IdsState × ℕ × Bytes :=
  let mode := newMode request
  if mode.isEmpty then (s, 400, text "\x7b\"error\":\"missing ids_mode field\"\x7d")
  else
    let swap := doIdsSwap s mode env
    if swap.2 == text "ok" || (text "already").isPrefixOf swap.2 then
      (swap.1, 200, text "\x7b\"ok\":true,\"ids_mode\":\"" ++ swap.1.idsMode ++ text "\"\x7d")
    else (swap.1, 500, text "\x7b\"ok\":false,\"error\":\"" ++ swap.2 ++ text "\"\x7d")

/-- The agent under `POST /config` requests. -/
def configServer : Machine IdsState (Bytes × SwapEnv) (ℕ × Bytes) where
  step := fun s input => postConfig s input.1 input.2

end Dlads.IdsSwap
