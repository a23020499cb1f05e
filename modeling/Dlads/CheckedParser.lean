import Dlads.CheckedViews
import Dlads.KeyValueScan

/-!
# The parser with checked access

`LogParser` once more, position by position: each character is read and each
part is taken with the check that it lies in its view, each unsigned
difference with the check that it does not wrap, and each loop is granted one
iteration for each byte of its text and one to end. No check fails, and what
is computed is what the parser on lists of bytes computes.
-/

namespace Dlads.CheckedParser

open ByteText StringMaps Records TextSearch CheckedViews
open LineParsing (Tm Clock currentYear months makeTimepoint priorityToLevel isKeyStart isKeyChar
  isValueChar kvMarks kvStep kvPairs)

/-- `ltrim`. -/
def ltrim (s : Bytes) : Checked Bytes := substrFrom s (s.findIdx (!isSpace ·))

/-- `rtrim`. -/
def rtrim (s : Bytes) : Checked Bytes := do
  substr s 0 (← minus s.length (s.reverse.findIdx (!isSpace ·)))

/-- `trim`. -/
def trim (s : Bytes) : Checked Bytes := do rtrim (← ltrim s)

/-- `parse_int`. -/
def parseInt (sv : Bytes) : Checked ℤ := do
  match fromChars (← trim sv) with
  | some v => pure (if 0 ≤ v then v else -1)
  | none => pure (-1)

/-- `month_from_abbr`. -/
def monthFromAbbr (abbr : Bytes) : Checked ℤ := do
  if abbr.length ≠ 3 then pure (-1)
  else
    let lo := [toLower (← access abbr 0), toLower (← access abbr 1), toLower (← access abbr 2)]
    match months.findIdx? (· == lo) with
    | some i => pure i
    | none => pure (-1)

/-- `split_once`. -/
def splitOnce (sv : Bytes) (delim : UInt8) : Checked (Bytes × Bytes) := do
  match sv.findIdx? (· == delim) with
  | none => pure (sv, [])
  | some pos => pure (← substr sv 0 pos, ← substrFrom sv (pos + 1))

/-- An iteration of the loop in `looks_like_kv`, with `i` and `count`. -/
def kvMarkPass (line : Bytes) (state : ℕ × ℕ) : Checked (Pass (ℕ × ℕ) Bool) := do
  let (i, count) := state
  if i + 1 < line.length then
    if (← access line i) == 61 ∧ 0 < i then
      let before ← access line (← minus i 1)
      if isAlnum before || before == 95 then
        if 2 ≤ count + 1 then pure (.leave true) else pure (.goOn (i + 1, count + 1))
      else pure (.goOn (i + 1, count))
    else pure (.goOn (i + 1, count))
  else pure (.leave false)

/-- `looks_like_kv`. -/
def looksLikeKv (line : Bytes) : Checked Bool := loop (kvMarkPass line) (line.length + 1) (0, 0)

/-- An iteration of the loop in `keyword_to_level`, with `i` and `buf`. -/
def lowerPass (kw : Bytes) (len : ℕ) (state : ℕ × Bytes) : Checked (Pass (ℕ × Bytes) Bytes) := do
  let (i, buf) := state
  if i < len then pure (.goOn (i + 1, buf ++ [toLower (← access kw i)])) else pure (.leave buf)

/-- The levels that `keyword_to_level` knows. -/
def levelNamed (lo : Bytes) : LogLevel :=
  if lo = text "debug" then .debug
  else if lo = text "info" ∨ lo = text "information" then .info
  else if lo = text "notice" then .notice
  else if lo = text "warn" ∨ lo = text "warning" then .warn
  else if lo = text "err" ∨ lo = text "error" then .error
  else if lo = text "crit" ∨ lo = text "critical" then .critical
  else if lo = text "alert" then .alert
  else if lo = text "emerg" ∨ lo = text "emergency" then .emerg
  else .unknown

/-- `keyword_to_level`. -/
def keywordToLevel (kw : Bytes) : Checked LogLevel := do
  let len := min kw.length 15
  pure (levelNamed (← loop (lowerPass kw len) (len + 1) (0, [])))

/-- `ev.fields.emplace` of a key in lower case. -/
def emplaceField (key value : Bytes) (ev : LogEvent) : LogEvent :=
  { ev with fields := emplace ev.fields (key.map toLower) value }

/-- The value at a position: the value, and the position behind it. -/
def readValue (msg : Bytes) (i : ℕ) : Checked (Bytes × ℕ) := do
  if (← access msg i) == 34 then
    let vstart := i + 1
    let vend ← skipWhile (· != 34) msg vstart
    let value ← substr msg vstart (← minus vend vstart)
    pure (value, if vend < msg.length then vend + 1 else vend)
  else
    let vend ← skipWhile isValueChar msg i
    pure (← substr msg i (← minus vend i), vend)

/-- An iteration of the outer loop in `extract_kv`, with `i` and the event. -/
def kvPass (msg : Bytes) (state : ℕ × LogEvent) : Checked (Pass (ℕ × LogEvent) LogEvent) := do
  let (i, ev) := state
  if msg.length ≤ i then pure (.leave ev)
  else
    let keyStart ← skipWhile (!isKeyStart ·) msg i
    if msg.length ≤ keyStart then pure (.leave ev)
    else
      let keyEnd ← skipWhile isKeyChar msg keyStart
      if msg.length ≤ keyEnd then pure (.goOn (keyEnd, ev))
      else if (← access msg keyEnd) != 61 then pure (.goOn (keyEnd, ev))
      else
        let key ← substr msg keyStart (← minus keyEnd keyStart)
        if msg.length ≤ keyEnd + 1 then pure (.leave ev)
        else
          let (value, next) ← readValue msg (keyEnd + 1)
          pure (.goOn (next, emplaceField key value ev))

/-- `extract_kv`. -/
def extractKv (msg : Bytes) (ev : LogEvent) : Checked LogEvent :=
  loop (kvPass msg) (msg.length + 1) (0, ev)

/-- `parse_syslog_timestamp`. -/
def parseSyslogTimestamp (clock : Clock) (ts : Bytes) (ev : LogEvent) :
    Checked (Bool × LogEvent) := do
  if ts.length < 15 then pure (false, ev)
  else
    let mon ← monthFromAbbr (← substr ts 0 3)
    if mon < 0 then pure (false, ev)
    else
      let mday ← parseInt (← substr ts 4 2)
      if mday ≤ 0 then pure (false, ev)
      else
        let hour ← parseInt (← substr ts 7 2)
        let min ← parseInt (← substr ts 10 2)
        let sec ← parseInt (← substr ts 13 2)
        if hour < 0 ∨ min < 0 ∨ sec < 0 then pure (false, ev)
        else
          let year := currentYear clock
          let tp := makeTimepoint clock year mon mday hour min sec
          let tp :=
            if clock.now + hours 24 < tp then makeTimepoint clock (year - 1) mon mday hour min sec
            else tp
          pure (true, { ev with timestamp := tp })

/-- The separators that `parse_iso_timestamp` asks for. -/
def hasIsoShape (ts : Bytes) : Checked Bool := do
  if (← access ts 4) != 47 then pure false
  else if (← access ts 7) != 47 then pure false
  else if (← access ts 10) != 32 then pure false
  else if (← access ts 13) != 58 then pure false
  else pure ((← access ts 16) == 58)

/-- `parse_iso_timestamp`. -/
def parseIsoTimestamp (clock : Clock) (ts : Bytes) (ev : LogEvent) : Checked (Bool × LogEvent) := do
  if ts.length < 19 then pure (false, ev)
  else if !(← hasIsoShape ts) then pure (false, ev)
  else
    let year ← parseInt (← substr ts 0 4)
    let mon := (← parseInt (← substr ts 5 2)) - 1
    let mday ← parseInt (← substr ts 8 2)
    let hour ← parseInt (← substr ts 11 2)
    let min ← parseInt (← substr ts 14 2)
    let sec ← parseInt (← substr ts 17 2)
    if year < 1970 ∨ mon < 0 ∨ 11 < mon ∨ mday ≤ 0 then pure (false, ev)
    else if hour < 0 ∨ min < 0 ∨ sec < 0 then pure (false, ev)
    else pure (true, { ev with timestamp := makeTimepoint clock year mon mday hour min sec })

/-- `!s.empty() && s[0] == c`. -/
def startsWith (s : Bytes) (c : UInt8) : Checked Bool := do
  if s.isEmpty then pure false else pure ((← access s 0) == c)

/-- The optional priority of a syslog line. -/
def parsePriority (line : Bytes) (ev : LogEvent) : Checked (Option Bytes × LogEvent) := do
  if ← startsWith line 60 then
    match find (text ">") line with
    | none => pure (none, ev)
    | some close =>
      let pri ← parseInt (← substr line 1 (← minus close 1))
      pure (some (← substrFrom line (close + 1)),
        if 0 ≤ pri then { ev with level := priorityToLevel pri } else ev)
  else pure (some line, ev)

/-- The checks that `parse_syslog` makes before it reads the timestamp. -/
def hasStampShape (rest : Bytes) : Checked Bool := do
  if rest.length < 16 then pure false
  else if (← monthFromAbbr (← substr rest 0 3)) < 0 then pure false
  else if (← access rest 3) != 32 then pure false
  else if (← access rest 6) != 32 then pure false
  else if rest.length < 15 then pure false
  else if (← access rest 9) != 58 then pure false
  else pure ((← access rest 12) == 58)

/-- The process field and the message. -/
def splitProcess (rest : Bytes) : Checked (Option (Bytes × Bytes)) := do
  match (find (text ": ") rest).or (rfind (text ":") rest) with
  | none => pure none
  | some colonPos =>
    let procField ← substr rest 0 colonPos
    let msgField ← if colonPos + 2 ≤ rest.length then substrFrom rest (colonPos + 2) else pure []
    pure (some (procField, msgField))

/-- Log source and process id from the process field. -/
def fillProcess (procField : Bytes) (ev : LogEvent) : Checked LogEvent := do
  match find (text "[") procField with
  | none => pure { ev with logSource := procField }
  | some bracket =>
    let ev := { ev with logSource := ← substr procField 0 bracket }
    match (find (text "]") (procField.drop bracket)).map (bracket + ·) with
    | none => pure ev
    | some closeB =>
      let pid ← parseInt (← substr procField (bracket + 1) (← minus (← minus closeB bracket) 1))
      pure (if 0 ≤ pid then { ev with pid := pid } else ev)

/-- `parse_syslog`. -/
def parseSyslog (clock : Clock) (line : Bytes) (ev : LogEvent) : Checked (Bool × LogEvent) := do
  match ← parsePriority line ev with
  | (none, ev) => pure (false, ev)
  | (some rest, ev) =>
    let rest ← ltrim rest
    if !(← hasStampShape rest) then pure (false, ev)
    else
      match ← parseSyslogTimestamp clock (← substr rest 0 15) ev with
      | (false, ev) => pure (false, ev)
      | (true, ev) =>
        let rest ← ltrim (← substrFrom rest 15)
        let (host, afterHost) ← splitOnce rest 32
        if host.isEmpty then pure (false, ev)
        else
          let ev := { ev with sourceHost := host }
          match ← splitProcess (← ltrim afterHost) with
          | none => pure (false, ev)
          | some (procField, msgField) =>
            let ev := { ← fillProcess procField ev with message := msgField, format := .syslog }
            let ev := if ev.level = .unknown then { ev with level := .info } else ev
            pure (true, ← extractKv msgField ev)

/-- The level in square brackets at the front of a text. -/
def parseBracketLevel (rest : Bytes) (ev : LogEvent) : Checked (Bytes × LogEvent) := do
  match find (text "]") rest with
  | none => pure (rest, ev)
  | some close =>
    let level ← keywordToLevel (← substr rest 1 (← minus close 1))
    pure (← ltrim (← substrFrom rest (close + 1)), { ev with level := level })

/-- The text behind a prefix of digits and hash signs that ends in a colon. -/
def skipPidPrefix (rest : Bytes) : Checked Bytes := do
  match find (text ": ") rest with
  | none => pure rest
  | some colonSp =>
    if colonSp < 30 then
      let candidate ← substr rest 0 colonSp
      if candidate ≠ [] ∧ candidate.all (fun c => isDigit c || c == 35) then
        ltrim (← substrFrom rest (colonSp + 2))
      else pure rest
    else pure rest

/-- `parse_nginx`. -/
def parseNginx (clock : Clock) (line : Bytes) (ev : LogEvent) : Checked (Bool × LogEvent) := do
  if line.length < 19 then pure (false, ev)
  else
    match ← parseIsoTimestamp clock (← substr line 0 19) ev with
    | (false, ev) => pure (false, ev)
    | (true, ev) =>
      let rest ← ltrim (← substrFrom line 19)
      let (rest, ev) ←
        if ← startsWith rest 91 then parseBracketLevel rest ev
        else pure (rest, { ev with level := .info })
      let rest ← skipPidPrefix rest
      let ev := { ev with message := rest, logSource := text "nginx", format := .kvPairs }
      pure (true, ← extractKv rest ev)

/-- A digit at a position. -/
def digitAt (line : Bytes) (i : ℕ) : Checked Bool := do pure (isDigit (← access line i))

/-- Four digits and a slash at the front of a line of some length. -/
def startsWithYear (length : ℕ) (line : Bytes) : Checked Bool := do
  if line.length < length then pure false
  else if !(← digitAt line 0) then pure false
  else if !(← digitAt line 1) then pure false
  else if !(← digitAt line 2) then pure false
  else if !(← digitAt line 3) then pure false
  else pure ((← access line 4) == 47)

/-- What `parse_kv_pairs` does with the text behind the timestamp. -/
def fillKvPairs (rest : Bytes) (ev : LogEvent) : Checked (Bool × LogEvent) := do
  let rest ← ltrim rest
  let (rest, ev) ← if ← startsWith rest 91 then parseBracketLevel rest ev else pure (rest, ev)
  let ev := LineParsing.fillFromFields (← extractKv rest ev)
  let ev := if ev.message.isEmpty then { ev with message := rest } else ev
  pure (true, { ev with format := .kvPairs })

/-- `parse_kv_pairs`. -/
def parseKvPairs (clock : Clock) (line : Bytes) (ev : LogEvent) : Checked (Bool × LogEvent) := do
  if !(← looksLikeKv line) then pure (false, ev)
  else
    let (rest, ev) ←
      if ← startsWithYear 19 line then
        match ← parseIsoTimestamp clock (← substr line 0 19) ev with
        | (true, ev) => pure (← ltrim (← substrFrom line 19), ev)
        | (false, ev) => pure (line, ev)
      else pure (line, ev)
    fillKvPairs rest (if ev.timestamp = 0 then { ev with timestamp := clock.now } else ev)

/-- `LogParser::parse`. -/
def parse (clock : Clock) (line : Bytes) : Checked (Option LogEvent) := do
  let line ← trim line
  if line.isEmpty then pure none
  else
    let (accepted, ev) ← parseSyslog clock line { rawLine := line }
    if accepted then pure (some ev)
    else
      let (accepted, ev) ←
        if ← startsWithYear 5 line then parseNginx clock line ev else pure (false, ev)
      if accepted then pure (some ev)
      else
        let (accepted, ev) ← parseKvPairs clock line ev
        if accepted then pure (some ev) else pure none

section texts

/-- The first position with a property cuts off what lacks it. -/
theorem drop_findIdx (p : UInt8 → Bool) (s : Bytes) :
    s.findIdx (!p ·) ≤ s.length ∧ s.drop (s.findIdx (!p ·)) = s.dropWhile p :=
  ⟨List.findIdx_le_length, List.dropWhile_eq_drop_findIdx_not.symm⟩

theorem ltrim_eq (s : Bytes) : ltrim s = .ok (ByteText.ltrim s) := by
  obtain ⟨hle, hdrop⟩ := drop_findIdx isSpace s
  rw [ltrim, substrFrom_eq hle, hdrop]
  rfl

theorem rtrim_eq (s : Bytes) : rtrim s = .ok (ByteText.rtrim s) := by
  obtain ⟨hle, hdrop⟩ := drop_findIdx isSpace s.reverse
  rw [List.length_reverse] at hle
  have hrest : s.take (s.length - s.reverse.findIdx (!isSpace ·)) = ByteText.rtrim s := by
    rw [ByteText.rtrim, List.rdropWhile, ← hdrop, List.drop_reverse, List.reverse_reverse]
  rw [rtrim, minus_eq hle, ok_bind, substr_eq (Nat.zero_le _), List.drop_zero, hrest]

theorem trim_eq (s : Bytes) : trim s = .ok (ByteText.trim s) := by
  rw [trim, ltrim_eq, ok_bind, rtrim_eq]
  rfl

theorem parseInt_eq (sv : Bytes) : parseInt sv = .ok (LineParsing.parseInt sv) := by
  unfold parseInt LineParsing.parseInt
  rw [trim_eq, ok_bind]
  cases fromChars (ByteText.trim sv) with
  | none => rfl
  | some v => rfl

theorem monthFromAbbr_eq (abbr : Bytes) :
    monthFromAbbr abbr = .ok (LineParsing.monthFromAbbr abbr) := by
  unfold monthFromAbbr LineParsing.monthFromAbbr
  by_cases h : abbr.length = 3
  · obtain ⟨a, b, c, rfl⟩ := List.length_eq_three.mp h
    rw [if_neg (not_not.mpr h), if_neg (not_not.mpr h), access_eq rfl, access_eq rfl, access_eq rfl]
    simp only [ok_bind, List.map_cons, List.map_nil]
    cases months.findIdx? (· == [toLower a, toLower b, toLower c]) with
    | none => rfl
    | some i => rfl
  · rw [if_pos h, if_pos h]
    rfl

theorem splitOnce_eq (sv : Bytes) (delim : UInt8) :
    splitOnce sv delim = .ok (ByteText.splitOnce sv delim) := by
  unfold splitOnce ByteText.splitOnce
  cases hpos : sv.findIdx? (· == delim) with
  | none => rfl
  | some pos =>
    obtain ⟨hlt, -⟩ := List.findIdx?_eq_some_iff_getElem.mp hpos
    dsimp only
    rw [substr_eq (Nat.zero_le _), substrFrom_eq hlt]
    rfl

end texts

section loops

/-- No mark is found in fewer than three bytes. -/
theorem kvMarks_of_length_le {s : Bytes} (h : s.length ≤ 2) : kvMarks s = 0 := by
  match s, h with
  | [], _ => rfl
  | [_], _ => rfl
  | [_, _], _ => rfl

/-- Three bytes or more start with three bytes. -/
theorem exists_cons_three {s : Bytes} (h : 3 ≤ s.length) : ∃ a b c rest, s = a :: b :: c :: rest := by
  match s, h with
  | a :: b :: c :: rest, _ => exact ⟨a, b, c, rest, rfl⟩

/-- An iteration behind the first byte adds the mark at its position. -/
theorem kvMarkPass_eq {line : Bytes} {k count : ℕ} {before sign behind : UInt8} {rest : Bytes}
    (hline : line.drop k = before :: sign :: behind :: rest) (hcount : count < 2) :
    kvMarkPass line (k + 1, count) = .ok (
      let mark := if sign == 61 && (isAlnum before || before == 95) then 1 else 0
      if 2 ≤ count + mark then .leave true else .goOn (k + 2, count + mark)) := by
  have hsign := drop_next hline
  have hlength := congrArg List.length hline
  simp only [List.length_drop, List.length_cons] at hlength
  have hminus : minus (k + 1) 1 = .ok k := rfl
  unfold kvMarkPass
  dsimp only
  rw [if_pos (by omega), access_of_drop hsign, ok_bind, hminus, ok_bind, access_of_drop hline,
    ok_bind]
  cases hs : sign == 61 with
  | false => simp [hcount]
  | true =>
    cases hb : isAlnum before || before == 95 with
    | false => simp [hcount]
    | true =>
      by_cases hmark : 2 ≤ count + 1
      · simp [hmark]
      · simp [hmark]

/-- Each iteration looks at the byte at its position and the one before it. -/
theorem looksLikeKv_eq (line : Bytes) : looksLikeKv line = .ok (LineParsing.looksLikeKv line) := by
  have hstart : LineParsing.looksLikeKv line =
      decide (2 ≤ 0 + kvMarks (line.drop (0 - 1))) := by
    rw [Nat.zero_add, Nat.zero_sub, List.drop_zero]
    rfl
  rw [hstart]
  refine loop_eq (fun state : ℕ × ℕ => line.length - state.1) (fun state => state.2 < 2)
    (fun state => decide (2 ≤ state.2 + kvMarks (line.drop (state.1 - 1)))) ?_ Nat.two_pos
    (by omega)
  rintro ⟨i, count⟩ hcount
  dsimp only at hcount ⊢
  by_cases hi : i + 1 < line.length
  · cases i with
    | zero =>
      refine .inr ⟨(1, count), ?_, by omega, hcount, rfl⟩
      obtain ⟨c, rest, rfl⟩ := List.exists_cons_of_length_pos (Nat.lt_of_succ_lt hi)
      unfold kvMarkPass
      dsimp only
      rw [if_pos hi, access_eq rfl, ok_bind, if_neg fun h => absurd h.2 (lt_irrefl 0)]
      rfl
    | succ k =>
      have hthree : 3 ≤ (line.drop k).length := by
        rw [List.length_drop]
        omega
      obtain ⟨before, sign, behind, rest, hline⟩ := exists_cons_three hthree
      have hnext := drop_next hline
      rw [kvMarkPass_eq hline hcount, Nat.add_sub_cancel, hline, kvMarks, ← Nat.add_assoc]
      dsimp only
      generalize (if sign == 61 && (isAlnum before || before == 95) then 1 else 0) = mark
      by_cases hmark : 2 ≤ count + mark
      · left
        rw [if_pos hmark, decide_eq_true (by omega)]
      · refine .inr ⟨(k + 2, count + mark), congrArg _ (if_neg hmark), by omega, not_le.mp hmark, ?_⟩
        have hpos : k + 2 - 1 = k + 1 := rfl
        rw [hpos, hnext]
  · have hnone : kvMarks (line.drop (i - 1)) = 0 := by
      refine kvMarks_of_length_le ?_
      rw [List.length_drop]
      omega
    left
    unfold kvMarkPass
    dsimp only
    rw [if_neg hi, hnone, decide_eq_false (by omega)]
    rfl

/-- The loop lower-cases the bytes that fit into the buffer. -/
theorem keywordToLevel_eq (kw : Bytes) :
    keywordToLevel kw = .ok (LineParsing.keywordToLevel kw) := by
  have hloop : loop (lowerPass kw (min kw.length 15)) (min kw.length 15 + 1) (0, []) =
      .ok ((kw.take 15).map toLower) := by
    have hall : (kw.take 15).map toLower =
        [] ++ ((kw.take (min kw.length 15)).drop 0).map toLower := by
      rw [List.nil_append, List.drop_zero, List.take_eq_take_min, Nat.min_comm]
    rw [hall]
    refine loop_eq (fun state : ℕ × Bytes => min kw.length 15 - state.1) (fun _ => True)
      (fun state => state.2 ++ ((kw.take (min kw.length 15)).drop state.1).map toLower) ?_ trivial
      (by omega)
    rintro ⟨i, buf⟩ -
    unfold lowerPass
    dsimp only
    by_cases hi : i < min kw.length 15
    · have hlen : i < kw.length := by omega
      have hdrop : (kw.take (min kw.length 15)).drop i =
          kw[i] :: (kw.take (min kw.length 15)).drop (i + 1) := by
        rw [List.drop_eq_getElem_cons (by rw [List.length_take]; omega), List.getElem_take]
      refine .inr ⟨(i + 1, buf ++ [toLower kw[i]]), ?_, by omega, trivial, ?_⟩
      · rw [if_pos hi, access_eq (List.getElem?_eq_getElem hlen)]
        rfl
      · rw [hdrop, List.map_cons, List.append_assoc, List.singleton_append]
    · left
      have hdrop : (kw.take (min kw.length 15)).drop i = [] := by
        rw [List.drop_eq_nil_iff, List.length_take]
        omega
      rw [if_neg hi, hdrop, List.map_nil, List.append_nil]
      rfl
  unfold keywordToLevel
  dsimp only
  rw [hloop]
  rfl

/-- The value at a position, and what stands behind it. -/
theorem readValue_eq {msg : Bytes} {i : ℕ} {first : UInt8} {body : Bytes}
    (hmsg : msg.drop i = first :: body) : ∃ value next, readValue msg i = .ok (value, next) ∧
      next ≤ msg.length ∧ (value, msg.drop next) =
        if first == 34 then (body.takeWhile (· != 34), (body.dropWhile (· != 34)).drop 1)
        else ((first :: body).takeWhile isValueChar, (first :: body).dropWhile isValueChar) := by
  have hlength := congrArg List.length hmsg
  rw [List.length_drop, List.length_cons] at hlength
  have hbody := drop_next hmsg
  unfold readValue
  rw [access_of_drop hmsg, ok_bind]
  cases hquote : first == 34 with
  | true =>
    have hstart : i + 1 ≤ msg.length := by omega
    obtain ⟨count, hcount, hpart⟩ := substr_behindRun (· != 34) hstart
    have hrest := drop_behindRun (· != 34) msg (i + 1)
    have hle := behindRun_le (· != 34) hstart
    rw [hbody] at hpart hrest
    dsimp only
    rw [if_pos rfl, if_pos rfl, skipWhile_eq _ hstart, ok_bind, hcount, ok_bind, hpart]
    refine ⟨_, _, rfl, ?_, ?_⟩
    · split
      · omega
      · omega
    · rw [← hrest, List.drop_drop]
      split
      · rfl
      · next hend =>
        rw [List.drop_eq_nil_of_le (not_lt.mp hend), List.drop_eq_nil_of_le (by omega)]
  | false =>
    have hstart : i ≤ msg.length := by omega
    obtain ⟨count, hcount, hpart⟩ := substr_behindRun isValueChar hstart
    have hrest := drop_behindRun isValueChar msg i
    rw [hmsg] at hpart hrest
    rw [if_neg (by decide), if_neg (by decide), skipWhile_eq _ hstart, ok_bind, hcount, ok_bind,
      hpart]
    exact ⟨_, _, rfl, behindRun_le isValueChar hstart, by rw [hrest]⟩

/-- An iteration of the loop takes what an iteration of the parser on lists
takes from the bytes behind the position. -/
theorem kvPass_eq {msg : Bytes} {i : ℕ} (hi : i ≤ msg.length) (ev : LogEvent) :
    match kvStep (msg.drop i) with
    | none => kvPass msg (i, ev) = .ok (.leave ev)
    | some (pair, rest) => ∃ next, next ≤ msg.length ∧ msg.drop next = rest ∧
        kvPass msg (i, ev) = .ok (.goOn (next, pair.elim ev fun p => emplaceField p.1 p.2 ev)) := by
  have hkey := drop_behindRun (!isKeyStart ·) msg i
  have hkeyLe := behindRun_le (!isKeyStart ·) hi
  unfold kvStep kvPass
  dsimp only
  rw [← hkey]
  by_cases hend : msg.length ≤ i
  · have hnil : msg.drop (behindRun (!isKeyStart ·) msg i) = [] := by
      rw [hkey, List.drop_eq_nil_of_le hend, List.dropWhile_nil]
    rw [hnil, if_pos hend]
    rfl
  rw [if_neg hend, skipWhile_eq _ hi, ok_bind]
  generalize behindRun (!isKeyStart ·) msg i = keyStart at hkey hkeyLe
  cases hstart : msg.drop keyStart with
  | nil =>
    rw [if_pos (List.drop_eq_nil_iff.mp hstart)]
    rfl
  | cons c t =>
    have hnotEnd : ¬msg.length ≤ keyStart := not_le.mpr (lt_length_of_drop hstart)
    have hrest := drop_behindRun isKeyChar msg keyStart
    have hrestLe := behindRun_le isKeyChar hkeyLe
    obtain ⟨count, hcount, hpart⟩ := substr_behindRun isKeyChar hkeyLe
    rw [hstart] at hrest hpart
    simp only [hnotEnd, if_false, skipWhile_eq _ hkeyLe, hcount, hpart, ok_bind]
    rw [← hrest]
    generalize behindRun isKeyChar msg keyStart = keyEnd at hrest hrestLe
    generalize (c :: t).takeWhile isKeyChar = key
    cases hsign : msg.drop keyEnd with
    | nil =>
      rw [if_pos (List.drop_eq_nil_iff.mp hsign)]
      exact ⟨keyEnd, hrestLe, hsign, rfl⟩
    | cons sign rest =>
      have hnotEnd : ¬msg.length ≤ keyEnd := not_le.mpr (lt_length_of_drop hsign)
      have hbehind := drop_next hsign
      rw [if_neg hnotEnd, access_of_drop hsign, ok_bind]
      simp only [List.isEmpty_cons, Bool.false_eq_true, if_false]
      cases hne : sign != 61 with
      | true => exact ⟨keyEnd, hrestLe, hsign, rfl⟩
      | false =>
        simp only [Bool.false_eq_true, if_false]
        cases rest with
        | nil =>
          rw [if_pos (List.drop_eq_nil_iff.mp hbehind)]
          rfl
        | cons first body =>
          have hnotLast : ¬msg.length ≤ keyEnd + 1 := not_le.mpr (lt_length_of_drop hbehind)
          obtain ⟨value, next, hread, hle, hvalue⟩ := readValue_eq hbehind
          rw [if_neg hnotLast, hread]
          dsimp only
          cases hquote : first == 34 with
          | true =>
            rw [hquote, if_pos rfl, Prod.mk.injEq] at hvalue
            rw [if_pos rfl, ← hvalue.1]
            exact ⟨next, hle, hvalue.2, rfl⟩
          | false =>
            rw [hquote, if_neg (by decide), Prod.mk.injEq] at hvalue
            rw [if_neg (by decide), ← hvalue.1]
            exact ⟨next, hle, hvalue.2, rfl⟩

/-- The loop over a message. -/
theorem extractKv_eq (msg : Bytes) (ev : LogEvent) :
    extractKv msg ev = .ok (LineParsing.extractKv msg ev) := by
  refine loop_eq (fun state : ℕ × LogEvent => msg.length - state.1) (fun state => state.1 ≤ msg.length)
    (fun state => LineParsing.extractKv (msg.drop state.1) state.2) ?_ (Nat.zero_le _) (by omega)
  rintro ⟨i, ev⟩ hi
  dsimp only at hi ⊢
  have hpass := kvPass_eq hi ev
  have hpairs := KeyValueScan.kvPairs_eq (msg.drop i)
  unfold LineParsing.extractKv
  cases hstep : kvStep (msg.drop i) with
  | none =>
    rw [hstep] at hpass hpairs
    left
    rw [hpairs]
    exact hpass
  | some step =>
    obtain ⟨pair, rest⟩ := step
    rw [hstep] at hpass hpairs
    obtain ⟨next, hle, hrest, hnext⟩ := hpass
    have hless := KeyValueScan.kvStep_length hstep
    rw [← hrest, List.length_drop, List.length_drop] at hless
    refine .inr ⟨_, hnext, by dsimp only; omega, hle, ?_⟩
    dsimp only
    rw [hpairs, hrest]
    cases pair with
    | none => rfl
    | some pair => rfl

end loops

section timestamps

variable (clock : Clock) (ts : Bytes) (ev : LogEvent)

theorem parseSyslogTimestamp_eq :
    parseSyslogTimestamp clock ts ev = .ok (LineParsing.parseSyslogTimestamp clock ts ev) := by
  unfold parseSyslogTimestamp LineParsing.parseSyslogTimestamp
  dsimp only
  by_cases hlen : ts.length < 15
  · rw [if_pos hlen, if_pos (.inl hlen)]
    rfl
  · rw [if_neg hlen, substr_eq (by omega), substr_eq (by omega), substr_eq (by omega),
      substr_eq (by omega), substr_eq (by omega)]
    simp only [monthFromAbbr_eq, parseInt_eq, ok_bind, pure_eq, List.drop_zero, hlen, false_or]
    by_cases hmon : LineParsing.monthFromAbbr (ts.take 3) < 0
    · simp [hmon]
    · by_cases hmday : LineParsing.parseInt ((ts.drop 4).take 2) ≤ 0
      · simp [hmon, hmday]
      · simp only [hmon, hmday, if_false, false_or]
        split
        · rfl
        · rfl

/-- The separators of a text that is long enough. -/
theorem hasIsoShape_eq (hlen : 19 ≤ ts.length) : hasIsoShape ts = .ok (!decide (ts[4]? ≠ some 47 ∨
    ts[7]? ≠ some 47 ∨ ts[10]? ≠ some 32 ∨ ts[13]? ≠ some 58 ∨ ts[16]? ≠ some 58)) := by
  have hget : ∀ i, i < 19 → ∃ c, ts[i]? = some c := fun i hi =>
    ⟨ts[i], List.getElem?_eq_getElem (by omega)⟩
  obtain ⟨a, ha⟩ := hget 4 (by omega)
  obtain ⟨b, hb⟩ := hget 7 (by omega)
  obtain ⟨c, hc⟩ := hget 10 (by omega)
  obtain ⟨d, hd⟩ := hget 13 (by omega)
  obtain ⟨e, he⟩ := hget 16 (by omega)
  unfold hasIsoShape
  rw [access_eq ha, access_eq hb, access_eq hc, access_eq hd, access_eq he, ha, hb, hc, hd, he]
  simp only [ok_bind, pure_eq]
  by_cases h4 : a = 47
  · by_cases h7 : b = 47
    · by_cases h10 : c = 32
      · by_cases h13 : d = 58
        · simp only [h4, h7, h10, h13]
          by_cases h16 : e = 58
          · simp [h16]
          · simp [h16]
        · simp [h4, h7, h10, h13]
      · simp [h4, h7, h10]
    · simp [h4, h7]
  · simp [h4]

theorem parseIsoTimestamp_eq :
    parseIsoTimestamp clock ts ev = .ok (LineParsing.parseIsoTimestamp clock ts ev) := by
  unfold parseIsoTimestamp LineParsing.parseIsoTimestamp
  dsimp only
  by_cases hlen : ts.length < 19
  · rw [if_pos hlen, if_pos hlen]
    rfl
  · rw [if_neg hlen, if_neg hlen, hasIsoShape_eq ts (by omega), ok_bind]
    split
    · next hshape => rw [if_pos (by simpa using hshape)]; rfl
    · next hshape =>
      rw [if_neg (by simpa using hshape), substr_eq (by omega), substr_eq (by omega),
        substr_eq (by omega), substr_eq (by omega), substr_eq (by omega), substr_eq (by omega)]
      simp only [parseInt_eq, ok_bind, pure_eq, List.drop_zero]
      generalize LineParsing.parseInt (ts.take 4) = year
      generalize LineParsing.parseInt ((ts.drop 5).take 2) - 1 = mon
      generalize LineParsing.parseInt ((ts.drop 8).take 2) = mday
      generalize LineParsing.parseInt ((ts.drop 11).take 2) = hour
      generalize LineParsing.parseInt ((ts.drop 14).take 2) = min
      generalize LineParsing.parseInt ((ts.drop 17).take 2) = sec
      by_cases hdate : year < 1970 ∨ mon < 0 ∨ 11 < mon ∨ mday ≤ 0
      · rw [if_pos hdate, if_pos (by tauto)]
      · by_cases htime : hour < 0 ∨ min < 0 ∨ sec < 0
        · rw [if_neg hdate, if_pos htime, if_pos (by tauto)]
        · rw [if_neg hdate, if_neg htime, if_neg (by tauto)]

end timestamps

section syslog

variable (clock : Clock)

theorem startsWith_eq (s : Bytes) (c : UInt8) :
    startsWith s c = .ok (decide (s.head? = some c)) := by
  cases s with
  | nil => rfl
  | cons a s =>
    unfold startsWith
    rw [access_eq rfl, ok_bind]
    by_cases h : a = c
    · simp [h]
    · simp [h]

/-- A needle of one byte that is found lies within the text. -/
theorem length_of_find_byte {s : Bytes} {p : ℕ} {z : UInt8} (h : find [z] s = some p) :
    p + 1 ≤ s.length := length_of_find h

/-- A byte that does not stand at the front is found behind it. -/
theorem pos_of_find_byte {s : Bytes} {p : ℕ} {z c : UInt8} (h : find [z] s = some p)
    (hhead : s.head? = some c) (hne : c ≠ z) : 1 ≤ p := by
  by_contra hzero
  have hp : p = 0 := by omega
  have hsplit := eq_of_find h
  rw [hp, List.take_zero, List.nil_append] at hsplit
  rw [hsplit] at hhead
  exact hne (Option.some.inj hhead).symm

theorem parsePriority_eq (line : Bytes) (ev : LogEvent) :
    parsePriority line ev = .ok (LineParsing.parsePriority line ev) := by
  unfold parsePriority LineParsing.parsePriority
  rw [startsWith_eq, ok_bind]
  by_cases hangle : line.head? = some 60
  · rw [if_pos (decide_eq_true hangle), if_pos hangle]
    cases hclose : find (text ">") line with
    | none => rfl
    | some close =>
      have hle := length_of_find_byte hclose
      have hpos : 1 ≤ close := pos_of_find_byte hclose hangle (by decide)
      dsimp only
      rw [minus_eq hpos, ok_bind, substr_eq (by omega), ok_bind, parseInt_eq, ok_bind,
        substrFrom_eq hle]
      rfl
  · rw [if_neg (by simpa using hangle), if_neg hangle]
    rfl

/-- A byte stands where it is found. -/
theorem drop_find_byte {s : Bytes} {p : ℕ} {z : UInt8} (h : find [z] s = some p) :
    (s.drop p).head? = some z := by
  have hlen := length_of_find_byte h
  have hsplit : s = s.take p ++ z :: s.drop (p + 1) := eq_of_find h
  have htake : (s.take p).length = p := by
    rw [List.length_take]
    omega
  have hdrop : s.drop p = z :: s.drop (p + 1) := by
    conv_lhs => rw [hsplit]
    exact List.drop_left' htake
  rw [hdrop, List.head?_cons]

theorem hasStampShape_eq (rest : Bytes) :
    hasStampShape rest = .ok (LineParsing.hasStampShape rest) := by
  unfold hasStampShape LineParsing.hasStampShape
  by_cases hlen : rest.length < 16
  · have hshort : decide (16 ≤ rest.length) = false := decide_eq_false (by omega)
    rw [if_pos hlen, hshort]
    rfl
  · have hget : ∀ i, i < 16 → ∃ c, rest[i]? = some c := fun i hi =>
      ⟨rest[i], List.getElem?_eq_getElem (by omega)⟩
    obtain ⟨a, ha⟩ := hget 3 (by omega)
    obtain ⟨b, hb⟩ := hget 6 (by omega)
    obtain ⟨c, hc⟩ := hget 9 (by omega)
    obtain ⟨d, hd⟩ := hget 12 (by omega)
    have hlong : decide (16 ≤ rest.length) = true := decide_eq_true (by omega)
    rw [if_neg hlen, substr_eq (by omega), ok_bind, monthFromAbbr_eq, ok_bind, access_eq ha,
      access_eq hb, access_eq hc, access_eq hd, ha, hb, hc, hd, hlong, List.drop_zero,
      if_neg (show ¬rest.length < 15 by omega)]
    simp only [ok_bind, pure_eq]
    by_cases hmon : LineParsing.monthFromAbbr (rest.take 3) < 0
    · simp [hmon]
    · by_cases h3 : a = 32
      · by_cases h6 : b = 32
        · by_cases h9 : c = 58
          · have hmonth : 0 ≤ LineParsing.monthFromAbbr (rest.take 3) := not_lt.mp hmon
            simp [hmon, hmonth, h3, h6, h9]
          · simp [hmon, h3, h6, h9]
        · simp [hmon, h3, h6]
      · simp [hmon, h3]

theorem splitProcess_eq (rest : Bytes) :
    splitProcess rest = .ok (LineParsing.splitProcess rest) := by
  unfold splitProcess LineParsing.splitProcess
  cases hcolon : (find (text ": ") rest).or (rfind (text ":") rest) with
  | none => rfl
  | some colonPos =>
    dsimp only
    rw [substr_eq (Nat.zero_le _), ok_bind, List.drop_zero]
    by_cases hle : colonPos + 2 ≤ rest.length
    · rw [if_pos hle, substrFrom_eq hle, Option.map_some, if_pos hle]
      rfl
    · rw [if_neg hle, Option.map_some, if_neg hle]
      rfl

theorem fillProcess_eq (procField : Bytes) (ev : LogEvent) :
    fillProcess procField ev = .ok (LineParsing.fillProcess procField ev) := by
  unfold fillProcess LineParsing.fillProcess
  cases hbracket : find (text "[") procField with
  | none => rfl
  | some bracket =>
    have hle := length_of_find_byte hbracket
    dsimp only
    rw [substr_eq (Nat.zero_le _), ok_bind, List.drop_zero]
    cases hclose : find (text "]") (procField.drop bracket) with
    | none => rfl
    | some closeB =>
      have hpos : 1 ≤ closeB := pos_of_find_byte hclose (drop_find_byte hbracket) (by decide)
      have hback : bracket + closeB - bracket = closeB := Nat.add_sub_cancel_left bracket closeB
      dsimp only [Option.map_some]
      rw [minus_eq (Nat.le_add_right bracket closeB), ok_bind, hback, minus_eq hpos, ok_bind,
        substr_eq hle, ok_bind, parseInt_eq]
      rfl

theorem parseSyslog_eq (line : Bytes) (ev : LogEvent) :
    parseSyslog clock line ev = .ok (LineParsing.parseSyslog clock line ev) := by
  unfold parseSyslog LineParsing.parseSyslog
  rw [parsePriority_eq, ok_bind]
  cases hprio : LineParsing.parsePriority line ev with
  | mk rest ev =>
    cases rest with
    | none => rfl
    | some rest =>
      dsimp only
      rw [ltrim_eq, ok_bind, hasStampShape_eq, ok_bind]
      cases hshape : LineParsing.hasStampShape (ByteText.ltrim rest) with
      | false => rfl
      | true =>
        have hlen : 15 ≤ (ByteText.ltrim rest).length := by
          simp only [LineParsing.hasStampShape, Bool.and_eq_true, decide_eq_true_eq] at hshape
          omega
        simp only [Bool.not_true, Bool.false_eq_true, if_false]
        rw [substr_eq (Nat.zero_le _), ok_bind, List.drop_zero, parseSyslogTimestamp_eq, ok_bind]
        cases hstamp : LineParsing.parseSyslogTimestamp clock ((ByteText.ltrim rest).take 15) ev with
        | mk read ev =>
          cases read with
          | false => rfl
          | true =>
            dsimp only
            rw [substrFrom_eq hlen, ok_bind, ltrim_eq, ok_bind, splitOnce_eq, ok_bind]
            split
            · rfl
            · rw [ltrim_eq, ok_bind, splitProcess_eq, ok_bind]
              cases hsplit : LineParsing.splitProcess (ByteText.ltrim
                  (ByteText.splitOnce (ByteText.ltrim ((ByteText.ltrim rest).drop 15)) 32).2) with
              | none => rfl
              | some parts =>
                dsimp only
                rw [fillProcess_eq, ok_bind, extractKv_eq]
                rfl

end syslog

section others

variable (clock : Clock)

theorem parseBracketLevel_eq {rest : Bytes} (hhead : rest.head? = some 91) (ev : LogEvent) :
    parseBracketLevel rest ev = .ok (LineParsing.parseBracketLevel rest ev) := by
  unfold parseBracketLevel LineParsing.parseBracketLevel
  cases hclose : find (text "]") rest with
  | none => rfl
  | some close =>
    have hle := length_of_find_byte hclose
    have hpos : 1 ≤ close := pos_of_find_byte hclose hhead (by decide)
    dsimp only
    rw [minus_eq hpos, ok_bind, substr_eq (by omega), ok_bind, keywordToLevel_eq, ok_bind,
      substrFrom_eq hle, ok_bind, ltrim_eq]
    rfl

theorem skipPidPrefix_eq (rest : Bytes) :
    skipPidPrefix rest = .ok (LineParsing.skipPidPrefix rest) := by
  unfold skipPidPrefix LineParsing.skipPidPrefix
  cases hcolon : find (text ": ") rest with
  | none => rfl
  | some colonSp =>
    have hle : colonSp + 2 ≤ rest.length := length_of_find hcolon
    dsimp only
    rw [substr_eq (Nat.zero_le _), ok_bind, List.drop_zero, substrFrom_eq hle, ok_bind, ltrim_eq]
    by_cases hnear : colonSp < 30
    · rw [if_pos hnear]
      simp only [hnear, true_and]
      split
      · rfl
      · rfl
    · rw [if_neg hnear, if_neg fun h => hnear h.1]
      rfl

theorem parseNginx_eq (line : Bytes) (ev : LogEvent) :
    parseNginx clock line ev = .ok (LineParsing.parseNginx clock line ev) := by
  unfold parseNginx LineParsing.parseNginx
  by_cases hlen : line.length < 19
  · rw [if_pos hlen, if_pos hlen]
    rfl
  · rw [if_neg hlen, if_neg hlen, substr_eq (Nat.zero_le _), ok_bind, List.drop_zero,
      parseIsoTimestamp_eq, ok_bind]
    cases hstamp : LineParsing.parseIsoTimestamp clock (line.take 19) ev with
    | mk read ev =>
      cases read with
      | false => rfl
      | true =>
        dsimp only
        rw [substrFrom_eq (by omega), ok_bind, ltrim_eq, ok_bind, startsWith_eq, ok_bind]
        by_cases hhead : (ByteText.ltrim (line.drop 19)).head? = some 91
        · rw [if_pos (decide_eq_true hhead), if_pos hhead, parseBracketLevel_eq hhead, ok_bind,
            skipPidPrefix_eq, ok_bind, extractKv_eq]
          rfl
        · rw [if_neg (by simpa using hhead), if_neg hhead, pure_eq, ok_bind, skipPidPrefix_eq,
            ok_bind, extractKv_eq]
          rfl

theorem digitAt_eq {s : Bytes} {i : ℕ} {c : UInt8} (hget : s[i]? = some c) :
    digitAt s i = .ok (isDigit c) := by
  rw [digitAt, access_eq hget]
  rfl

/-- A line that starts with a year has five bytes at least. -/
theorem length_of_startsWithYear {line : Bytes} (hyear : LineParsing.startsWithYear line = true) :
    5 ≤ line.length := by
  unfold LineParsing.startsWithYear at hyear
  split at hyear
  · simp
  · cases hyear

/-- The front of a line of five bytes or more. -/
theorem startsWithYear_cons (a b c d e : UInt8) (rest : Bytes) :
    LineParsing.startsWithYear (a :: b :: c :: d :: e :: rest) =
      (isDigit a && isDigit b && isDigit c && isDigit d && e == 47) := by
  by_cases he : e = 47
  · subst he
    simp [LineParsing.startsWithYear]
  · simp [LineParsing.startsWithYear, he]

theorem startsWithYear_eq {n : ℕ} (hn : 5 ≤ n) (line : Bytes) :
    startsWithYear n line = .ok (decide (n ≤ line.length ∧ LineParsing.startsWithYear line)) := by
  unfold startsWithYear
  by_cases hlen : line.length < n
  · rw [if_pos hlen, pure_eq, decide_eq_false fun h => not_le.mpr hlen h.1]
  · rw [if_neg hlen]
    match line, hlen with
    | a :: b :: c :: d :: e :: rest, hlen =>
      rw [digitAt_eq rfl, digitAt_eq rfl, digitAt_eq rfl, digitAt_eq rfl, access_eq rfl,
        startsWithYear_cons]
      simp only [ok_bind, pure_eq, not_lt.mp hlen, true_and]
      cases isDigit a <;> cases isDigit b <;> cases isDigit c <;> cases isDigit d <;>
        cases e == 47 <;> rfl
    | [], hlen | [_], hlen | [_, _], hlen | [_, _, _], hlen | [_, _, _, _], hlen =>
      simp only [List.length_cons, List.length_nil] at hlen
      omega

theorem fillKvPairs_eq (rest : Bytes) (ev : LogEvent) :
    fillKvPairs rest ev = .ok (
      let rest := ByteText.ltrim rest
      let levelled :=
        if rest.head? = some 91 then LineParsing.parseBracketLevel rest ev else (rest, ev)
      let ev := LineParsing.fillFromFields (LineParsing.extractKv levelled.1 levelled.2)
      let ev := if ev.message.isEmpty then { ev with message := levelled.1 } else ev
      (true, { ev with format := .kvPairs })) := by
  unfold fillKvPairs
  dsimp only
  rw [ltrim_eq, ok_bind, startsWith_eq, ok_bind]
  by_cases hhead : (ByteText.ltrim rest).head? = some 91
  · rw [if_pos (decide_eq_true hhead), if_pos hhead, parseBracketLevel_eq hhead, ok_bind,
      extractKv_eq]
    rfl
  · rw [if_neg (by simpa using hhead), if_neg hhead, pure_eq, ok_bind, extractKv_eq]
    rfl

theorem parseKvPairs_eq (line : Bytes) (ev : LogEvent) :
    parseKvPairs clock line ev = .ok (LineParsing.parseKvPairs clock line ev) := by
  unfold parseKvPairs LineParsing.parseKvPairs
  rw [looksLikeKv_eq, ok_bind]
  cases hkv : LineParsing.looksLikeKv line with
  | false => rfl
  | true =>
    simp only [Bool.not_true, Bool.false_eq_true, if_false]
    rw [startsWithYear_eq (by omega), ok_bind]
    by_cases hyear : 19 ≤ line.length ∧ LineParsing.startsWithYear line = true
    · rw [if_pos (decide_eq_true hyear), if_pos hyear, substr_eq (Nat.zero_le _), ok_bind,
        List.drop_zero, parseIsoTimestamp_eq, ok_bind]
      cases hstamp : LineParsing.parseIsoTimestamp clock (line.take 19) ev with
      | mk read ev =>
        cases read with
        | false => exact fillKvPairs_eq _ _
        | true =>
          dsimp only
          rw [substrFrom_eq hyear.1, ok_bind, ltrim_eq, ok_bind]
          exact fillKvPairs_eq _ _
    · rw [if_neg (by simpa using hyear), if_neg hyear, pure_eq, ok_bind]
      exact fillKvPairs_eq _ _

theorem parse_eq (line : Bytes) : parse clock line = .ok (LineParsing.parse clock line) := by
  unfold parse LineParsing.parse
  rw [trim_eq, ok_bind]
  dsimp only
  cases hempty : (ByteText.trim line).isEmpty with
  | true => rfl
  | false =>
    simp only [Bool.false_eq_true, if_false]
    rw [parseSyslog_eq, ok_bind]
    cases hsyslog : LineParsing.parseSyslog clock (ByteText.trim line)
        { rawLine := ByteText.trim line } with
    | mk accepted ev =>
      cases accepted with
      | true => rfl
      | false =>
        simp only [Bool.false_eq_true, if_false]
        rw [startsWithYear_eq le_rfl, ok_bind]
        by_cases hyear : LineParsing.startsWithYear (ByteText.trim line) = true
        · rw [if_pos (decide_eq_true ⟨length_of_startsWithYear hyear, hyear⟩), if_pos hyear,
            parseNginx_eq, ok_bind]
          cases hnginx : LineParsing.parseNginx clock (ByteText.trim line) ev with
          | mk accepted ev =>
            cases accepted with
            | true => rfl
            | false =>
              simp only [Bool.false_eq_true, if_false]
              rw [parseKvPairs_eq, ok_bind]
              exact (apply_ite Except.ok _ _ _).symm
        · rw [if_neg (by simp [hyear]), if_neg hyear, pure_eq, ok_bind]
          simp only [Bool.false_eq_true, if_false]
          rw [parseKvPairs_eq, ok_bind]
          exact (apply_ite Except.ok _ _ _).symm

/-- No access of the parser is out of bounds and no loop of it goes on for
ever: on every line the parser returns, and so does each of its parts on every
view and every event. -/
theorem parser_inBounds (line view : Bytes) (ev : LogEvent) :
    parse clock line = .ok (LineParsing.parse clock line) ∧
      trim view = .ok (ByteText.trim view) ∧
      parseSyslog clock view ev = .ok (LineParsing.parseSyslog clock view ev) ∧
      parseNginx clock view ev = .ok (LineParsing.parseNginx clock view ev) ∧
      parseKvPairs clock view ev = .ok (LineParsing.parseKvPairs clock view ev) ∧
      parseSyslogTimestamp clock view ev = .ok (LineParsing.parseSyslogTimestamp clock view ev) ∧
      parseIsoTimestamp clock view ev = .ok (LineParsing.parseIsoTimestamp clock view ev) ∧
      looksLikeKv view = .ok (LineParsing.looksLikeKv view) ∧
      extractKv view ev = .ok (LineParsing.extractKv view ev) :=
  ⟨parse_eq clock line, trim_eq view, parseSyslog_eq clock view ev, parseNginx_eq clock view ev,
    parseKvPairs_eq clock view ev, parseSyslogTimestamp_eq clock view ev,
    parseIsoTimestamp_eq clock view ev, looksLikeKv_eq view, extractKv_eq view ev⟩

end others

end Dlads.CheckedParser
