import Dlads.Records
import Dlads.TextSearch

/-!
# The log parser

`LogParser::parse` tries the syslog form, the nginx form and bare key-value
pairs in turn on one event; an attempt that fails leaves its changes in it.
The calendar functions of the C library are parameters, as are the readings of
the clock. The loop of `extract_kv` is a function of its text alone, with one
iteration as a definition of its own.
-/

namespace Dlads.LineParsing

open ByteText StringMaps Records TextSearch

/-- The members of `tm` that the parser sets. -/
structure Tm where
  /-- `tm_year`, years since 1900. -/
  year : ℤ
  /-- `tm_mon`, months since January. -/
  mon : ℤ
  /-- `tm_mday`. -/
  mday : ℤ
  /-- `tm_hour`. -/
  hour : ℤ
  /-- `tm_min`. -/
  min : ℤ
  /-- `tm_sec`. -/
  sec : ℤ

/-- Clock and calendar of the host. -/
structure Clock where
  /-- `time(nullptr)`, in seconds. -/
  time : ℤ
  /-- `system_clock::now()`. -/
  now : ℤ
  /-- `tm_year` that `gmtime_r` finds for a time in seconds. -/
  gmtimeYear : ℤ → ℤ
  /-- `mktime`, which returns -1 on failure. -/
  mktime : Tm → ℤ

/-- `parse_int`: a non-negative integer, or -1. -/
def parseInt (sv : Bytes) : ℤ :=
  match fromChars (trim sv) with
  | some v => if 0 ≤ v then v else -1
  | none => -1

/-- `current_year`. -/
def currentYear (clock : Clock) : ℤ := clock.gmtimeYear clock.time + 1900

/-- The abbreviations `month_from_abbr` knows. -/
def months : List Bytes :=
  [text "jan", text "feb", text "mar", text "apr", text "may", text "jun", text "jul", text "aug",
    text "sep", text "oct", text "nov", text "dec"]

/-- `month_from_abbr`: the month counted from zero, or -1. -/
def monthFromAbbr (abbr : Bytes) : ℤ :=
  if abbr.length ≠ 3 then -1
  else
    match months.findIdx? (· == abbr.map toLower) with
    | some i => i
    | none => -1

/-- `make_timepoint`, which gives the epoch on failure. -/
def makeTimepoint (clock : Clock) (year mon0 mday hour min sec : ℤ) : ℤ :=
  let t := clock.mktime ⟨year - 1900, mon0, mday, hour, min, sec⟩
  if t = -1 then 0 else seconds t

/-- How often an equals sign stands between a letter, digit or underscore and
some further byte. -/
def kvMarks : Bytes → ℕ
  | before :: sign :: behind :: rest =>
    (if sign == 61 && (isAlnum before || before == 95) then 1 else 0) +
      kvMarks (sign :: behind :: rest)
  | _ => 0

/-- `looks_like_kv`. -/
def looksLikeKv (line : Bytes) : Bool := 2 ≤ kvMarks line

/-- `priority_to_level`. -/
def priorityToLevel (pri : ℤ) : LogLevel :=
  match pri % 8 with
  | 0 => .emerg
  | 1 => .alert
  | 2 => .critical
  | 3 => .error
  | 4 => .warn
  | 5 => .notice
  | 6 => .info
  | 7 => .debug
  | _ => .unknown

/-- `keyword_to_level`, which looks at the first fifteen bytes. -/
def keywordToLevel (kw : Bytes) : LogLevel :=
  let lo := (kw.take 15).map toLower
  if lo = text "debug" then .debug
  else if lo = text "info" ∨ lo = text "information" then .info
  else if lo = text "notice" then .notice
  else if lo = text "warn" ∨ lo = text "warning" then .warn
  else if lo = text "err" ∨ lo = text "error" then .error
  else if lo = text "crit" ∨ lo = text "critical" then .critical
  else if lo = text "alert" then .alert
  else if lo = text "emerg" ∨ lo = text "emergency" then .emerg
  else .unknown

/-- A byte that a key can start with. -/
def isKeyStart (c : UInt8) : Bool := isAlpha c || c == 95

/-- A byte of a key. -/
def isKeyChar (c : UInt8) : Bool := isAlnum c || c == 95 || c == 45

/-- A byte of an unquoted value. -/
def isValueChar (c : UInt8) : Bool := !isSpace c && c != 44

/-- One iteration of the loop in `extract_kv`: the pair it extracts, if any,
and the text it leaves; nothing when the loop ends. -/
def kvStep (msg : Bytes) : Option (Option (Bytes × Bytes) × Bytes) :=
  let start := msg.dropWhile (!isKeyStart ·)
  if start.isEmpty then none
  else
    let key := start.takeWhile isKeyChar
    match start.dropWhile isKeyChar with
    | [] => some (none, [])
    | sign :: rest =>
      if sign != 61 then some (none, sign :: rest)
      else
        match rest with
        | [] => none
        | first :: body =>
          if first == 34 then
            some (some (key, body.takeWhile (· != 34)), (body.dropWhile (· != 34)).drop 1)
          else some (some (key, rest.takeWhile isValueChar), rest.dropWhile isValueChar)

/-- The loop of `extract_kv` for a number of iterations. -/
def kvLoop : ℕ → Bytes → List (Bytes × Bytes)
  | 0, _ => []
  | fuel + 1, msg =>
    match kvStep msg with
    | none => []
    | some (pair, rest) => pair.toList ++ kvLoop fuel rest

/-- The pairs in a text; each iteration shortens it. -/
def kvPairs (msg : Bytes) : List (Bytes × Bytes) := kvLoop (msg.length + 1) msg

/-- `extract_kv`. -/
def extractKv (msg : Bytes) (ev : LogEvent) : LogEvent :=
  { ev with
    fields := (kvPairs msg).foldl (fun m pair => emplace m (pair.1.map toLower) pair.2) ev.fields }

/-- `parse_syslog_timestamp`. -/
def parseSyslogTimestamp (clock : Clock) (ts : Bytes) (ev : LogEvent) : Bool × LogEvent :=
  let mon := monthFromAbbr (ts.take 3)
  let mday := parseInt ((ts.drop 4).take 2)
  let hour := parseInt ((ts.drop 7).take 2)
  let min := parseInt ((ts.drop 10).take 2)
  let sec := parseInt ((ts.drop 13).take 2)
  if ts.length < 15 ∨ mon < 0 ∨ mday ≤ 0 ∨ hour < 0 ∨ min < 0 ∨ sec < 0 then (false, ev)
  else
    let year := currentYear clock
    let tp := makeTimepoint clock year mon mday hour min sec
    let tp :=
      if clock.now + hours 24 < tp then makeTimepoint clock (year - 1) mon mday hour min sec
      else tp
    (true, { ev with timestamp := tp })

/-- `parse_iso_timestamp`. -/
def parseIsoTimestamp (clock : Clock) (ts : Bytes) (ev : LogEvent) : Bool × LogEvent :=
  let year := parseInt (ts.take 4)
  let mon := parseInt ((ts.drop 5).take 2) - 1
  let mday := parseInt ((ts.drop 8).take 2)
  let hour := parseInt ((ts.drop 11).take 2)
  let min := parseInt ((ts.drop 14).take 2)
  let sec := parseInt ((ts.drop 17).take 2)
  if ts.length < 19 then (false, ev)
  else if ts[4]? ≠ some 47 ∨ ts[7]? ≠ some 47 ∨ ts[10]? ≠ some 32 ∨ ts[13]? ≠ some 58 ∨
      ts[16]? ≠ some 58 then (false, ev)
  else if year < 1970 ∨ mon < 0 ∨ 11 < mon ∨ mday ≤ 0 ∨ hour < 0 ∨ min < 0 ∨ sec < 0 then
    (false, ev)
  else (true, { ev with timestamp := makeTimepoint clock year mon mday hour min sec })

/-- The optional priority of a syslog line: the text behind it, unless it is
not closed. -/
def parsePriority (line : Bytes) (ev : LogEvent) : Option Bytes × LogEvent :=
  if line.head? = some 60 then
    match find (text ">") line with
    | none => (none, ev)
    | some close =>
      let pri := parseInt ((line.drop 1).take (close - 1))
      (some (line.drop (close + 1)),
        if 0 ≤ pri then { ev with level := priorityToLevel pri } else ev)
  else (some line, ev)

/-- The checks that `parse_syslog` makes before it reads the timestamp. -/
def hasStampShape (rest : Bytes) : Bool :=
  16 ≤ rest.length && 0 ≤ monthFromAbbr (rest.take 3) && rest[3]? == some 32 &&
    rest[6]? == some 32 && rest[9]? == some 58 && rest[12]? == some 58

/-- Process field and message, divided at the first colon with a blank behind
it or else at the last colon. -/
def splitProcess (rest : Bytes) : Option (Bytes × Bytes) :=
  ((find (text ": ") rest).or (rfind (text ":") rest)).map fun colonPos =>
    (rest.take colonPos, if colonPos + 2 ≤ rest.length then rest.drop (colonPos + 2) else [])

/-- Log source and process id from the process field. -/
def fillProcess (procField : Bytes) (ev : LogEvent) : LogEvent :=
  match find (text "[") procField with
  | none => { ev with logSource := procField }
  | some bracket =>
    let ev := { ev with logSource := procField.take bracket }
    match find (text "]") (procField.drop bracket) with
    | none => ev
    | some closeB =>
      let pid := parseInt ((procField.drop (bracket + 1)).take (closeB - 1))
      if 0 ≤ pid then { ev with pid := pid } else ev

/-- `parse_syslog`. -/
def parseSyslog (clock : Clock) (line : Bytes) (ev : LogEvent) : Bool × LogEvent :=
  match parsePriority line ev with
  | (none, ev) => (false, ev)
  | (some rest, ev) =>
    let rest := ltrim rest
    if !hasStampShape rest then (false, ev)
    else
      match parseSyslogTimestamp clock (rest.take 15) ev with
      | (false, ev) => (false, ev)
      | (true, ev) =>
        let parts := splitOnce (ltrim (rest.drop 15)) 32
        if parts.1.isEmpty then (false, ev)
        else
          let ev := { ev with sourceHost := parts.1 }
          match splitProcess (ltrim parts.2) with
          | none => (false, ev)
          | some (procField, msgField) =>
            let ev := { fillProcess procField ev with message := msgField, format := .syslog }
            let ev := if ev.level = .unknown then { ev with level := .info } else ev
            (true, extractKv msgField ev)

/-- The level in square brackets at the front of an nginx text: the text
behind it and the event with the level. -/
def parseBracketLevel (rest : Bytes) (ev : LogEvent) : Bytes × LogEvent :=
  match find (text "]") rest with
  | none => (rest, ev)
  | some close =>
    (ltrim (rest.drop (close + 1)),
      { ev with level := keywordToLevel ((rest.drop 1).take (close - 1)) })

/-- The text behind a prefix of digits and hash signs that ends in a colon. -/
def skipPidPrefix (rest : Bytes) : Bytes :=
  match find (text ": ") rest with
  | none => rest
  | some colonSp =>
    let candidate := rest.take colonSp
    if colonSp < 30 ∧ candidate ≠ [] ∧ candidate.all (fun c => isDigit c || c == 35) then
      ltrim (rest.drop (colonSp + 2))
    else rest

/-- `parse_nginx`. -/
def parseNginx (clock : Clock) (line : Bytes) (ev : LogEvent) : Bool × LogEvent :=
  if line.length < 19 then (false, ev)
  else
    match parseIsoTimestamp clock (line.take 19) ev with
    | (false, ev) => (false, ev)
    | (true, ev) =>
      let rest := ltrim (line.drop 19)
      let levelled :=
        if rest.head? = some 91 then parseBracketLevel rest ev
        else (rest, { ev with level := .info })
      let rest := skipPidPrefix levelled.1
      let ev := { levelled.2 with message := rest, logSource := text "nginx", format := .kvPairs }
      (true, extractKv rest ev)

/-- Four digits and a slash at the front. -/
def startsWithYear (line : Bytes) : Bool :=
  match line with
  | a :: b :: c :: d :: 47 :: _ => isDigit a && isDigit b && isDigit c && isDigit d
  | _ => false

/-- The first-class members that `parse_kv_pairs` takes from the fields. -/
def fillFromFields (ev : LogEvent) : LogEvent :=
  let level := match ev.fields.lookup (text "level") with
    | some kw => keywordToLevel kw
    | none => ev.level
  let message := ((ev.fields.lookup (text "msg")).getD ev.message)
  let message := if message.isEmpty then (ev.fields.lookup (text "message")).getD [] else message
  let fill (value : Bytes) (key : Bytes) : Bytes :=
    if value.isEmpty then (ev.fields.lookup key).getD [] else value
  { ev with
    level := level
    message := message
    sourceHost := fill (fill ev.sourceHost (text "host")) (text "hostname")
    logSource := fill (fill ev.logSource (text "app")) (text "service") }

/-- `parse_kv_pairs`. -/
def parseKvPairs (clock : Clock) (line : Bytes) (ev : LogEvent) : Bool × LogEvent :=
  if !looksLikeKv line then (false, ev)
  else
    let stamped :=
      if 19 ≤ line.length ∧ startsWithYear line then
        match parseIsoTimestamp clock (line.take 19) ev with
        | (true, ev) => (ltrim (line.drop 19), ev)
        | (false, ev) => (line, ev)
      else (line, ev)
    let ev := stamped.2
    let ev := if ev.timestamp = 0 then { ev with timestamp := clock.now } else ev
    let rest := ltrim stamped.1
    let levelled := if rest.head? = some 91 then parseBracketLevel rest ev else (rest, ev)
    let ev := fillFromFields (extractKv levelled.1 levelled.2)
    let ev := if ev.message.isEmpty then { ev with message := levelled.1 } else ev
    (true, { ev with format := .kvPairs })

/-- `LogParser::parse`. -/
def parse (clock : Clock) (line : Bytes) : Option LogEvent :=
  let line := trim line
  if line.isEmpty then none
  else
    let syslog := parseSyslog clock line { rawLine := line }
    if syslog.1 then some syslog.2
    else
      let nginx := if startsWithYear line then parseNginx clock line syslog.2 else (false, syslog.2)
      if nginx.1 then some nginx.2
      else
        let kv := parseKvPairs clock line nginx.2
        if kv.1 then some kv.2 else none

/-- What a new event has and each attempt keeps is true of what is parsed. -/
theorem parse_keeps {clock : Clock} {line : Bytes} {P : LogEvent → Prop}
    (hnew : P { rawLine := trim line })
    (hsyslog : ∀ ev, P ev → P (parseSyslog clock (trim line) ev).2)
    (hnginx : ∀ ev, P ev → P (parseNginx clock (trim line) ev).2)
    (hkv : ∀ ev, P ev → P (parseKvPairs clock (trim line) ev).2) {event : LogEvent}
    (h : parse clock line = some event) : P event := by
  unfold parse at h
  dsimp only at h
  split at h
  · cases h
  · split at h
    · cases h
      exact hsyslog _ hnew
    · generalize hattempt : (if startsWithYear (trim line) = true then
        parseNginx clock (trim line) (parseSyslog clock (trim line) { rawLine := trim line }).2
        else (false, (parseSyslog clock (trim line) { rawLine := trim line }).2)) = nginx at h
      have hkept : P nginx.2 := by
        rw [← hattempt]
        split
        · exact hnginx _ (hsyslog _ hnew)
        · exact hsyslog _ hnew
      split at h
      · cases h
        exact hkept
      · split at h
        · cases h
          exact hkv _ hkept
        · cases h

end Dlads.LineParsing
