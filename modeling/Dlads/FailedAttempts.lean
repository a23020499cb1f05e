import Dlads.MessageSeparators

/-!
# What a failed syslog attempt leaves behind

`parse_syslog` writes level, timestamp and host into the event before it has
seen the whole line, and `parse` hands the same event to the next attempt. The
key-value attempt takes what it finds there for known. A failed attempt
therefore shows in the result exactly where the line has a priority, a
timestamp or a host that its own fields do not replace.
-/

namespace Dlads.FailedAttempts

open ByteText StringMaps Records TextSearch LineParsing KeyValueScan SyslogLines TimestampYears

/-- The attempts of `parse` behind the syslog form, on an event. -/
def laterAttempts (clock : Clock) (line : Bytes) (ev : LogEvent) : Option LogEvent :=
  let nginx := if startsWithYear line then parseNginx clock line ev else (false, ev)
  if nginx.1 then some nginx.2
  else
    let kv := parseKvPairs clock line nginx.2
    if kv.1 then some kv.2 else none

/-- The syslog form rejects a line. -/
def SyslogRejects (clock : Clock) (line : Bytes) : Prop :=
  (parseSyslog clock (trim line) { rawLine := trim line }).1 = false

/-- The line is parsed as if only the later attempts were made. -/
def LeavesNoTrace (clock : Clock) (line : Bytes) : Prop :=
  parse clock line = laterAttempts clock (trim line) { rawLine := trim line }

section leftovers

variable (clock : Clock) (line : Bytes)

/-- The text behind the priority of a line. -/
def behindPriority : Bytes := ltrim ((parsePriority line {}).1.getD [])

/-- The level of the priority of a line, unknown without one. -/
def priorityLevel : LogLevel := (parsePriority line {}).2.level

/-- The timestamp behind the priority, as far as it can be read. -/
def stamp : Option ℤ :=
  if hasStampShape (behindPriority line) then
    let read := parseSyslogTimestamp clock ((behindPriority line).take 15) {}
    if read.1 then some read.2.timestamp else none
  else none

/-- The word behind a timestamp. -/
def hostWord : Bytes :=
  if (stamp clock line).isSome then
    (splitOnce (ltrim ((behindPriority line).drop 15)) 32).1
  else []

/-- The host among the fields of a line. -/
def hostField : Bytes :=
  let host := (firstValue (text "host") (kvPairs line)).getD []
  if host.isEmpty then (firstValue (text "hostname") (kvPairs line)).getD [] else host

/-- The fields of a key-value line replace what stands in front of them: its
level replaces the priority, its timestamp is the present or none, and its
host is the word behind the timestamp. -/
structure Replaced : Prop where
  /-- Without a level field there is no priority. -/
  level : priorityLevel line = .unknown ∨ (firstValue (text "level") (kvPairs line)).isSome
  /-- A timestamp is read as the epoch, which stands for none, or as now. -/
  time : ∀ t ∈ stamp clock line, t = 0 ∨ t = clock.now
  /-- A host is the host of the fields. -/
  host : hostWord clock line = [] ∨ hostWord clock line = hostField line

/-- A priority writes the level only. -/
theorem parsePriority_leftover (rawLine : Bytes) : parsePriority line { rawLine := rawLine } =
    ((parsePriority line {}).1, { rawLine := rawLine, level := priorityLevel line }) := by
  unfold priorityLevel parsePriority
  split
  · split
    · rfl
    · dsimp only
      split
      · rfl
      · rfl
  · rfl

/-- A timestamp is read without regard to the event, and is all that is
written. -/
theorem parseSyslogTimestamp_leftover (ts : Bytes) (ev : LogEvent) :
    parseSyslogTimestamp clock ts ev =
      if (parseSyslogTimestamp clock ts {}).1 then
        (true, { ev with timestamp := (parseSyslogTimestamp clock ts {}).2.timestamp })
      else (false, ev) := by
  unfold parseSyslogTimestamp
  dsimp only
  split
  · rfl
  · rfl

/-- What a rejected line leaves in a new event. -/
theorem leftover_eq {rawLine : Bytes}
    (h : (parseSyslog clock line { rawLine := rawLine }).1 = false) :
    (parseSyslog clock line { rawLine := rawLine }).2 =
      { rawLine := rawLine
        level := priorityLevel line
        timestamp := (stamp clock line).getD 0
        sourceHost := hostWord clock line } := by
  unfold parseSyslog at h ⊢
  rw [parsePriority_leftover] at h ⊢
  unfold hostWord stamp behindPriority
  cases hprio : (parsePriority line {}).1 with
  | none => rfl
  | some rest =>
    simp only [hprio, Option.getD_some] at h ⊢
    cases hshape : hasStampShape (ltrim rest) with
    | false => rfl
    | true =>
      simp only [hshape, Bool.not_true, Bool.false_eq_true, if_false, if_true] at h ⊢
      rw [parseSyslogTimestamp_leftover] at h ⊢
      cases hread : (parseSyslogTimestamp clock ((ltrim rest).take 15) {}).1 with
      | false => rfl
      | true =>
        simp only [hread, if_true, Option.isSome_some, Option.getD_some] at h ⊢
        split
        · next hempty => rw [List.isEmpty_iff.mp hempty]
        · next hhost =>
          rw [if_neg hhost] at h
          split
          · rfl
          · next hsplit => simp [hsplit] at h

/-- A text that does not start with a letter has no timestamp in front. -/
theorem hasStampShape_of_front {c : UInt8} (hletter : isLower (toLower c) = false) (rest : Bytes) :
    hasStampShape (c :: rest) = false := by
  have hmonth : decide (0 ≤ monthFromAbbr ((c :: rest).take 3)) = false := by
    rw [decide_eq_false_iff_not]
    intro h
    obtain ⟨a, b, d, htake, ha⟩ := month_letter h
    rw [List.take_succ_cons, List.cons.injEq] at htake
    rw [htake.1, ha] at hletter
    cases hletter
  simp only [hasStampShape, hmonth, Bool.and_false, Bool.false_and]

/-- Nothing is left of a line that starts with neither white space nor an angle
bracket nor a letter. -/
theorem nothing_left {c : UInt8} {rest : Bytes} (hspace : isSpace c = false) (hangle : c ≠ 60)
    (hletter : isLower (toLower c) = false) :
    priorityLevel (c :: rest) = .unknown ∧ stamp clock (c :: rest) = none := by
  have hprio : parsePriority (c :: rest) {} = (some (c :: rest), {}) := by
    rw [parsePriority, if_neg (by simpa using hangle)]
  have hbehind : behindPriority (c :: rest) = c :: rest := by
    rw [behindPriority, hprio, Option.getD_some, ltrim_cons hspace]
  constructor
  · rw [priorityLevel, hprio]
  · rw [stamp, hbehind, hasStampShape_of_front hletter]
    rfl

end leftovers

section attempts

variable (clock : Clock) {line : Bytes}

/-- A digit is no letter. -/
theorem not_isLower_of_isDigit {c : UInt8} (h : isDigit c = true) :
    isLower (toLower c) = false ∧ c ≠ 60 := by
  simp only [isDigit, Bool.and_eq_true, decide_eq_true_eq, UInt8.le_iff_toNat_le] at h
  have hlow : 48 ≤ c.toNat := h.1
  have hhigh : c.toNat ≤ 57 := h.2
  have hupper : isUpper c = false := by
    simp only [isUpper, Bool.and_eq_false_iff, decide_eq_false_iff_not, UInt8.le_iff_toNat_le]
    exact .inl fun h => absurd (show 65 ≤ c.toNat from h) (by omega)
  have hlower : isLower c = false := by
    simp only [isLower, Bool.and_eq_false_iff, decide_eq_false_iff_not, UInt8.le_iff_toNat_le]
    exact .inl fun h => absurd (show 97 ≤ c.toNat from h) (by omega)
  constructor
  · rw [toLower, hupper]
    exact hlower
  · rintro rfl
    exact absurd hhigh (by decide)

/-- A line that starts with a year or a bracket leaves nothing. -/
theorem nothing_left_of_front (h : startsWithYear line = true ∨ line.head? = some 91) :
    priorityLevel line = .unknown ∧ stamp clock line = none := by
  cases line with
  | nil => rcases h with h | h <;> cases h
  | cons c rest =>
    rcases h with h | h
    · have hdigit : isDigit c = true := by
        unfold startsWithYear at h
        split at h
        · next heq =>
          rw [List.cons.injEq] at heq
          simp only [Bool.and_eq_true] at h
          rw [heq.1]
          exact h.1.1.1
        · cases h
      obtain ⟨hletter, hangle⟩ := not_isLower_of_isDigit hdigit
      exact nothing_left clock (not_isSpace_of_isDigit hdigit) hangle hletter
    · have hc : c = 91 := by simpa using h
      rw [hc]
      exact nothing_left clock (by decide) (by decide) (by decide)

/-- The key-value attempt on a line that starts with neither a year nor a
bracket. -/
def kvAttempt (line : Bytes) (ev : LogEvent) : LogEvent :=
  let ev := if ev.timestamp = 0 then { ev with timestamp := clock.now } else ev
  let ev := fillFromFields (extractKv line ev)
  let ev := if ev.message.isEmpty then { ev with message := line } else ev
  { ev with format := .kvPairs }

theorem laterAttempts_eq (htrim : ltrim line = line) (hyear : startsWithYear line = false)
    (hbracket : line.head? ≠ some 91) (ev : LogEvent) : laterAttempts clock line ev =
      if looksLikeKv line then some (kvAttempt clock line ev) else none := by
  unfold laterAttempts parseKvPairs kvAttempt
  cases hlooks : looksLikeKv line with
  | false => simp [hyear]
  | true => simp [hyear, htrim, hbracket]

/-- The fields replace a level and are replaced by a host. -/
theorem fillFromFields_eq (m : StringMap Bytes) (rawLine host : Bytes) (level : LogLevel)
    (time : ℤ) :
    fillFromFields
        { rawLine := rawLine, level := level, timestamp := time, sourceHost := host, fields := m } =
      { fillFromFields { rawLine := rawLine, fields := m } with
        timestamp := time
        level := ((m.lookup (text "level")).map keywordToLevel).getD level
        sourceHost :=
          if host.isEmpty then (fillFromFields { rawLine := rawLine, fields := m }).sourceHost
          else host } := by
  unfold fillFromFields
  dsimp only
  rw [LogEvent.mk.injEq]
  refine ⟨rfl, ?_, rfl, rfl, ?_, rfl, rfl, rfl, rfl⟩
  · cases host with
    | nil => rfl
    | cons c host => rfl
  · cases m.lookup (text "level") with
    | none => rfl
    | some kw => rfl

/-- The attempt takes a timestamp, a level and a host that it finds in the
event for known. -/
theorem kvAttempt_eq (rawLine host : Bytes) (level : LogLevel) (time : ℤ) :
    kvAttempt clock line
        { rawLine := rawLine, level := level, timestamp := time, sourceHost := host } =
      { kvAttempt clock line { rawLine := rawLine } with
        timestamp := if time = 0 then clock.now else time
        level := ((firstValue (text "level") (kvPairs line)).map keywordToLevel).getD level
        sourceHost := if host.isEmpty then hostField line else host } := by
  have hlookup : ∀ key, (extractKv line {}).fields.lookup key = firstValue key (kvPairs line) := by
    intro key
    rw [lookup_extractKv]
    simp
  have hhost : (fillFromFields { rawLine := rawLine, fields := (extractKv line {}).fields }).sourceHost
      = hostField line := by
    unfold hostField
    rw [← hlookup, ← hlookup]
    rfl
  have hfilled : ∀ host level time, fillFromFields (extractKv line
      { rawLine := rawLine, level := level, timestamp := time, sourceHost := host }) =
        { fillFromFields { rawLine := rawLine, fields := (extractKv line {}).fields } with
          timestamp := time
          level := ((firstValue (text "level") (kvPairs line)).map keywordToLevel).getD level
          sourceHost := if host.isEmpty then hostField line else host } := by
    intro host level time
    rw [← hlookup, ← hhost, ← fillFromFields_eq]
    rfl
  have hstamped : (if time = 0 then
        { rawLine := rawLine, level := level, timestamp := clock.now, sourceHost := host }
      else { rawLine := rawLine, level := level, timestamp := time, sourceHost := host } : LogEvent) =
        { rawLine := rawLine
          level := level
          timestamp := if time = 0 then clock.now else time
          sourceHost := host } := by
    split
    · rfl
    · rfl
  unfold kvAttempt
  dsimp only
  rw [hstamped, if_pos rfl, hfilled, hfilled]
  dsimp only
  split
  · rfl
  · rfl

/-- What the attempt finds in the event shows unless the fields replace it. -/
theorem kvAttempt_eq_iff (rawLine host : Bytes) (level : LogLevel) (time : ℤ) :
    kvAttempt clock line
        { rawLine := rawLine, level := level, timestamp := time, sourceHost := host } =
      kvAttempt clock line { rawLine := rawLine } ↔
      (level = .unknown ∨ (firstValue (text "level") (kvPairs line)).isSome) ∧
        (time = 0 ∨ time = clock.now) ∧ (host = [] ∨ host = hostField line) := by
  have hnew := @kvAttempt_eq clock line rawLine [] .unknown 0
  have hlevel : ((firstValue (text "level") (kvPairs line)).map keywordToLevel).getD level =
      ((firstValue (text "level") (kvPairs line)).map keywordToLevel).getD .unknown ↔
      level = .unknown ∨ (firstValue (text "level") (kvPairs line)).isSome := by
    cases firstValue (text "level") (kvPairs line) with
    | none => simp
    | some kw => simp
  have htime : (if time = 0 then clock.now else time) = clock.now ↔
      time = 0 ∨ time = clock.now := by
    by_cases h : time = 0
    · simp [h]
    · simp [h]
  have hhost : (if host.isEmpty then hostField line else host) = hostField line ↔
      host = [] ∨ host = hostField line := by
    cases host with
    | nil => simp
    | cons c host => simp
  rw [← hlevel, ← htime, ← hhost, kvAttempt_eq]
  constructor
  · intro h
    refine ⟨?_, ?_, ?_⟩
    · exact (congrArg LogEvent.level h).trans (congrArg LogEvent.level hnew)
    · exact (congrArg LogEvent.timestamp h).trans (congrArg LogEvent.timestamp hnew)
    · exact (congrArg LogEvent.sourceHost h).trans (congrArg LogEvent.sourceHost hnew)
  · rintro ⟨hl, ht, hh⟩
    rw [hl, ht, hh]
    exact hnew.symm

end attempts

section results

/-- A trimmed line is trimmed on the left. -/
theorem ltrim_trim (s : Bytes) : ltrim (trim s) = trim s := by
  cases htrim : trim s with
  | nil => rfl
  | cons c rest =>
    have hprefix : c :: rest <+: ltrim s := by
      rw [← htrim]
      exact List.rdropWhile_prefix isSpace (ltrim s)
    obtain ⟨more, hmore⟩ := hprefix
    have hspace : isSpace c = false := by
      have hne : ltrim s ≠ [] := by
        rw [← hmore]
        exact List.cons_ne_nil c _
      have hnot := List.head_dropWhile_not isSpace hne
      have hhead : (ltrim s).head hne = c := by simp [← hmore]
      rw [← hhead]
      exact hnot
    exact ltrim_cons hspace rest

variable {clock : Clock} {line : Bytes}

/-- A rejected line is left to the later attempts. -/
theorem parse_of_rejects (h : SyslogRejects clock line) :
    parse clock line = laterAttempts clock (trim line)
      { rawLine := trim line
        level := priorityLevel (trim line)
        timestamp := (stamp clock (trim line)).getD 0
        sourceHost := hostWord clock (trim line) } := by
  rw [← leftover_eq clock (trim line) h]
  unfold SyslogRejects at h
  unfold parse laterAttempts
  dsimp only
  rw [h]
  cases hempty : (trim line).isEmpty with
  | true =>
    rw [List.isEmpty_iff.mp hempty]
    rfl
  | false => rfl

/-- A line that the syslog form rejects is parsed as if only the later attempts
were made exactly if it is no key-value line or its fields replace what the
syslog attempt has read. -/
theorem leavesNoTrace_iff (h : SyslogRejects clock line) : LeavesNoTrace clock line ↔
    (looksLikeKv (trim line) = true → Replaced clock (trim line)) := by
  rw [LeavesNoTrace, parse_of_rejects h]
  by_cases hfront : startsWithYear (trim line) = true ∨ (trim line).head? = some 91
  · obtain ⟨hlevel, hstamp⟩ := nothing_left_of_front clock hfront
    have hhost : hostWord clock (trim line) = [] := by
      rw [hostWord, hstamp]
      rfl
    rw [hlevel, hstamp, hhost]
    refine iff_of_true rfl fun _ => ⟨.inl hlevel, fun t ht => ?_, .inl hhost⟩
    rw [hstamp] at ht
    cases ht
  · obtain ⟨hyear, hbracket⟩ := not_or.mp hfront
    rw [laterAttempts_eq clock (ltrim_trim line) (Bool.eq_false_iff.mpr hyear) hbracket,
      laterAttempts_eq clock (ltrim_trim line) (Bool.eq_false_iff.mpr hyear) hbracket]
    cases hlooks : looksLikeKv (trim line) with
    | false => simp
    | true =>
      rw [if_pos rfl, if_pos rfl, Option.some.injEq, kvAttempt_eq_iff]
      have htime : (stamp clock (trim line)).getD 0 = 0 ∨
          (stamp clock (trim line)).getD 0 = clock.now ↔
          ∀ t ∈ stamp clock (trim line), t = 0 ∨ t = clock.now := by
        cases stamp clock (trim line) with
        | none => simp
        | some t => simp
      rw [htime]
      constructor
      · rintro ⟨hlevel, ht, hhost⟩ -
        exact ⟨hlevel, ht, hhost⟩
      · intro h
        exact ⟨(h rfl).level, (h rfl).time, (h rfl).host⟩

/-- Three days into 1970, in UTC. -/
def thirdDay : Clock := hostClock 0 (seconds 259200)

/-- A line whose level field replaces its priority. -/
def levelLine : Bytes := text "<10>user=bob level=warn"

theorem levelLine_noTrace : SyslogRejects thirdDay levelLine ∧ LeavesNoTrace thirdDay levelLine := by
  have hrejects : SyslogRejects thirdDay levelLine := by
    unfold SyslogRejects
    decide +kernel
  refine ⟨hrejects, (leavesNoTrace_iff hrejects).mpr fun _ => ⟨.inr ?_, ?_, .inl ?_⟩⟩
  · decide +kernel
  · have hstamp : stamp thirdDay (trim levelLine) = none := by decide +kernel
    simp [hstamp]
  · decide +kernel

/-- A line with a timestamp and a host, but without a process field. -/
def fieldsLine : Bytes := text "Jan  2 15:04:05 web user=bob ip=10.0.0.5"

/-- The host and the timestamp stay in the event, which the key-value attempt
alone leaves without a host and gives the present time. -/
theorem fieldsLine_trace : SyslogRejects thirdDay fieldsLine ∧
    (parse thirdDay fieldsLine).map (fun ev => (ev.sourceHost, ev.timestamp)) =
      some (text "web", seconds 140645) ∧
    (laterAttempts thirdDay fieldsLine { rawLine := fieldsLine }).map
      (fun ev => (ev.sourceHost, ev.timestamp)) = some ([], seconds 259200) ∧
    ¬LeavesNoTrace thirdDay fieldsLine := by
  have hrejects : SyslogRejects thirdDay fieldsLine := by
    unfold SyslogRejects
    decide +kernel
  have hparse : (parse thirdDay fieldsLine).map (fun ev => (ev.sourceHost, ev.timestamp)) =
      some (text "web", seconds 140645) := by decide +kernel
  have hlater : (laterAttempts thirdDay fieldsLine { rawLine := fieldsLine }).map
      (fun ev => (ev.sourceHost, ev.timestamp)) = some ([], seconds 259200) := by decide +kernel
  refine ⟨hrejects, hparse, hlater, fun h => ?_⟩
  have htrim : trim fieldsLine = fieldsLine := by decide +kernel
  rw [LeavesNoTrace, htrim] at h
  rw [h, hlater] at hparse
  exact absurd hparse (by decide)

end results

end Dlads.FailedAttempts
