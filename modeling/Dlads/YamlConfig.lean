import Dlads.Records

/-!
# The flat configuration file

The agent's `agent.yaml` is read by two hand-written readers and rewritten by
one writer, each with its own trimming. All three are given here on the bytes
of the file; a file that cannot be opened is `none`.
-/

namespace Dlads.YamlConfig

open ByteText StringMaps Records

/-- `RuleConfig`, with the defaults of its members. -/
structure RuleConfig where
  /-- SSH brute force: window. -/
  sshWindowSeconds : ℤ := 60
  /-- SSH brute force: failed logins needed. -/
  sshThreshold : ℤ := 10
  /-- SSH brute force: cooldown. -/
  sshCooldownSeconds : ℤ := 120
  /-- Port scan: window. -/
  scanWindowSeconds : ℤ := 30
  /-- Port scan: distinct ports needed. -/
  scanThreshold : ℤ := 15
  /-- Port scan: cooldown. -/
  scanCooldownSeconds : ℤ := 60
  /-- Privilege escalation: history looked back at. -/
  privHistoryHours : ℤ := 24
  /-- Privilege escalation: cooldown. -/
  privCooldownSeconds : ℤ := 300
  /-- Multi-service failure: window. -/
  multiWindowSeconds : ℤ := 300
  /-- Multi-service failure: distinct services needed. -/
  multiMinServices : ℤ := 2
  /-- Multi-service failure: cooldown. -/
  multiCooldownSeconds : ℤ := 180
  deriving DecidableEq

/-- The lines `std::getline` delivers: a last line without a line feed counts,
an empty one does not. -/
def getLines : Bytes → List Bytes
  | [] => []
  | c :: rest =>
    if c == 10 then [] :: getLines rest
    else match getLines rest with
      | [] => [[c]]
      | line :: more => (c :: line) :: more

/-- `find_first_not_of`. -/
def findFirstNotOf (set s : Bytes) : Option ℕ := s.findIdx? (!set.contains ·)

/-- `find_last_not_of`. -/
def findLastNotOf (set s : Bytes) : Option ℕ :=
  (s.reverse.findIdx? (!set.contains ·)).map (s.length - 1 - ·)

/-- Cut a line at its first `#`. -/
def stripComment (line : Bytes) : Bytes := line.takeWhile (· != 35)

/-- The trimming of both readers. When nothing but line ends remains, the end
position is `npos` and the length computed from it wraps: zero when the text
starts at 0, and past the end of the string otherwise. -/
def readerTrim (s : Bytes) : Bytes :=
  match findFirstNotOf (text " \t") s with
  | none => []
  | some b =>
    match findLastNotOf (text " \t\x0d\n") s with
    | some e => (s.drop b).take (e - b + 1)
    | none => if b = 0 then [] else s.drop b

/-- The trimming of the writer, which keeps a blank key as it is. -/
def writerTrim (s : Bytes) : Bytes :=
  match findFirstNotOf (text " \t") s, findLastNotOf (text " \t") s with
  | some b, some e => (s.drop b).take (e - b + 1)
  | _, _ => s

/-- Key and value of a line as both readers see it. -/
def readerEntry (line : Bytes) : Option (Bytes × Bytes) :=
  let line := stripComment line
  match line.findIdx? (· == 58) with
  | none => none
  | some colon => some (readerTrim (line.take colon), readerTrim (line.drop (colon + 1)))

/-- Key of a line as the writer sees it. -/
def writerKey (line : Bytes) : Option Bytes :=
  let stripped := stripComment line
  (stripped.findIdx? (· == 58)).map fun colon => writerTrim (stripped.take colon)

/-- `parse_flat_yaml`: a later line for a key overwrites an earlier one. -/
def parseFlatYaml (file : Option Bytes) : StringMap Bytes :=
  match file with
  | none => ∅
  | some content =>
    (getLines content).foldl (fun out line =>
      match readerEntry line with
      | some (key, value) => if key.isEmpty then out else assign out key value
      | none => out) ∅

/-- `to_int`: the default when the key is absent or no `int` can be read. -/
def toInt (m : StringMap Bytes) (key : Bytes) (default : ℤ) : ℤ :=
  match m.lookup key with
  | none => default
  | some value => (fromChars value).getD default

/-- `RuleConfig::from_yaml`. -/
def RuleConfig.fromYaml (file : Option Bytes) : RuleConfig :=
  let m := parseFlatYaml file
  let c : RuleConfig := {}
  { sshWindowSeconds := toInt m (text "window_seconds") c.sshWindowSeconds
    sshThreshold := toInt m (text "threshold") c.sshThreshold
    sshCooldownSeconds := toInt m (text "cooldown_seconds") c.sshCooldownSeconds
    scanWindowSeconds := toInt m (text "scan_window_seconds") c.scanWindowSeconds
    scanThreshold := toInt m (text "scan_threshold") c.scanThreshold
    scanCooldownSeconds := toInt m (text "scan_cooldown_seconds") c.scanCooldownSeconds
    privHistoryHours := toInt m (text "priv_history_hours") c.privHistoryHours
    privCooldownSeconds := toInt m (text "priv_cooldown_seconds") c.privCooldownSeconds
    multiWindowSeconds := toInt m (text "multi_window_seconds") c.multiWindowSeconds
    multiMinServices := toInt m (text "multi_min_services") c.multiMinServices
    multiCooldownSeconds := toInt m (text "multi_cooldown_seconds") c.multiCooldownSeconds }

/-- `read_yaml_field`: the value on the first line for the key. -/
def readYamlField (file : Option Bytes) (key : Bytes) (default : Bytes) : Bytes :=
  match file with
  | none => default
  | some content =>
    match ((getLines content).filterMap readerEntry).find? (·.1 == key) with
    | some (_, value) => value
    | none => default

/-- The line the writer puts in for a key. -/
def yamlLine (key value : Bytes) : Bytes := key ++ text ": " ++ value

/-- The content `write_yaml_field` writes: each line for the key replaced, or
one line appended when there is none, every line ended by a line feed. -/
def rewriteYaml (content key value : Bytes) : Bytes :=
  let lines := getLines content
  let found := lines.any fun line => writerKey line == some key
  let replaced := lines.map fun line =>
    if writerKey line == some key then yamlLine key value else line
  let out := if found then replaced else replaced ++ [yamlLine key value]
  (out.map (· ++ text "\n")).flatten

/-- How the two opens of one `write_yaml_field` call turn out. -/
structure WriteOutcome where
  /-- The file opens for reading. -/
  inOpens : Bool
  /-- The file opens for writing. -/
  outOpens : Bool
  deriving DecidableEq

/-- `write_yaml_field`: whether it succeeds, and the file afterwards. -/
def writeYamlField (file key value : Bytes) (outcome : WriteOutcome) : Bool × Bytes :=
  if outcome.inOpens && outcome.outOpens then (true, rewriteYaml file key value)
  else (false, file)

/-- A reading of an `int` is in its range. -/
theorem fromChars_inInt32 {s : Bytes} {n : ℤ} (hn : fromChars s = some n) : inInt32 n = true := by
  unfold fromChars at hn
  extract_lets negative digits value at hn
  split at hn
  · cases hn
  · split at hn
    · next hr =>
      rw [← Option.some.inj hn]
      exact hr
    · cases hn

/-- A configuration value is in the range of `int` when its default is. -/
theorem toInt_inInt32 (m : StringMap Bytes) (key : Bytes) {default : ℤ}
    (hd : inInt32 default = true) : inInt32 (toInt m key default) = true := by
  unfold toInt
  cases m.lookup key with
  | none => exact hd
  | some value =>
    dsimp only
    cases hv : fromChars value with
    | none => exact hd
    | some n => exact fromChars_inInt32 hv

end Dlads.YamlConfig
