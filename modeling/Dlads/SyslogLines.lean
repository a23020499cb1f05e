import Dlads.KeyValueScan

/-!
# Well-formed syslog lines

A timestamp, a host and a process field in front of a message are taken apart
at the places they were joined: the parser accepts such a line, and the event
holds the host, the process field and the message as they were written.
-/

namespace Dlads.SyslogLines

open ByteText StringMaps Records TextSearch LineParsing KeyValueScan

/-- A timestamp of the form `Mmm DD HH:MM:SS`. -/
structure Stamp where
  /-- Abbreviation of the month. -/
  month : Bytes
  /-- Day of the month. -/
  day : Bytes
  /-- Hour. -/
  hour : Bytes
  /-- Minute. -/
  minute : Bytes
  /-- Second. -/
  second : Bytes
  /-- The month is known. -/
  month_known : 0 ≤ monthFromAbbr month
  /-- The day is a positive number in two columns. -/
  day_number : day.length = 2 ∧ 0 < parseInt day
  /-- The hour is a number in two columns. -/
  hour_number : hour.length = 2 ∧ 0 ≤ parseInt hour
  /-- The minute is a number in two columns. -/
  minute_number : minute.length = 2 ∧ 0 ≤ parseInt minute
  /-- The second is a number in two columns. -/
  second_number : second.length = 2 ∧ 0 ≤ parseInt second

/-- The text of a timestamp. -/
def Stamp.text (stamp : Stamp) : Bytes :=
  stamp.month ++ 32 :: (stamp.day ++ 32 :: (stamp.hour ++ 58 ::
    (stamp.minute ++ 58 :: stamp.second)))

/-- A word between blanks. -/
def IsWord (s : Bytes) : Prop := s ≠ [] ∧ ∀ c ∈ s, isSpace c = false

section texts

/-- Whether a text is a word is a test of its bytes. -/
theorem isWord_of_all {s : Bytes} (hne : s ≠ []) (h : s.all (!isSpace ·) = true) : IsWord s := by
  refine ⟨hne, fun c hc => ?_⟩
  have hnot := List.all_eq_true.mp h c hc
  simpa using hnot

/-- A text is divided at its first delimiter. -/
theorem splitOnce_append {delim : UInt8} {s : Bytes} (hs : delim ∉ s) (t : Bytes) :
    splitOnce (s ++ delim :: t) delim = (s, t) := by
  simp [splitOnce, findIdx?_delim hs t]

/-- A text that starts with no white space is not trimmed on the left. -/
theorem ltrim_cons {c : UInt8} (hc : isSpace c = false) (s : Bytes) : ltrim (c :: s) = c :: s := by
  rw [ltrim, List.dropWhile_cons_of_neg (by simp [hc])]

theorem ltrim_append_word {s : Bytes} (hs : IsWord s) (t : Bytes) : ltrim (s ++ t) = s ++ t := by
  obtain ⟨hne, hspace⟩ := hs
  cases s with
  | nil => exact absurd rfl hne
  | cons c s => exact ltrim_cons (hspace c List.mem_cons_self) (s ++ t)

/-- A blank in front of a word is trimmed. -/
theorem ltrim_blank_word {s : Bytes} (hs : IsWord s) (t : Bytes) :
    ltrim (32 :: (s ++ t)) = s ++ t := by
  rw [← ltrim_append_word hs t, ltrim, List.dropWhile_cons_of_pos (by decide), ltrim,
    List.dropWhile_idempotent]

/-- A text that ends in a word is not trimmed on the right. -/
theorem rtrim_append_word {s : Bytes} (hs : IsWord s) (t : Bytes) : rtrim (t ++ s) = t ++ s := by
  obtain ⟨hne, hspace⟩ := hs
  rw [rtrim, List.rdropWhile_eq_self_iff]
  intro hl
  rw [List.getLast_append_of_ne_nil hl hne]
  simp [hspace _ (List.getLast_mem hne)]

/-- A byte above the blank is no white space. -/
theorem not_isSpace_of_lt {c : UInt8} (h : 32 < c.toNat) : isSpace c = false := by
  simp only [isSpace, Bool.or_eq_false_iff, beq_eq_false_iff_ne, Bool.and_eq_false_iff,
    decide_eq_false_iff_not, UInt8.le_iff_toNat_le]
  refine ⟨?_, .inr ?_⟩
  · rintro rfl
    exact absurd h (by decide)
  · change ¬c.toNat ≤ 13
    omega

theorem not_isSpace_of_isDigit {c : UInt8} (h : isDigit c = true) : isSpace c = false := by
  simp only [isDigit, Bool.and_eq_true, decide_eq_true_eq, UInt8.le_iff_toNat_le] at h
  have hlow : 48 ≤ c.toNat := h.1
  exact not_isSpace_of_lt (by omega)

/-- A letter is neither white space nor an angle bracket. -/
theorem not_isSpace_of_isLower {c : UInt8} (h : isLower (toLower c) = true) :
    isSpace c = false ∧ c ≠ 60 := by
  have hletter : 65 ≤ c.toNat := by
    unfold toLower at h
    split at h
    · next hu =>
      simp only [isUpper, Bool.and_eq_true, decide_eq_true_eq, UInt8.le_iff_toNat_le] at hu
      exact hu.1
    · simp only [isLower, Bool.and_eq_true, decide_eq_true_eq, UInt8.le_iff_toNat_le] at h
      have hlow : 97 ≤ c.toNat := h.1
      omega
  refine ⟨not_isSpace_of_lt (by omega), ?_⟩
  rintro rfl
  exact absurd hletter (by decide)

/-- A known month consists of three bytes and starts with a letter. -/
theorem month_letter {month : Bytes} (h : 0 ≤ monthFromAbbr month) :
    ∃ a b c, month = [a, b, c] ∧ isLower (toLower a) = true := by
  unfold monthFromAbbr at h
  split at h
  · omega
  · next hlen =>
    obtain ⟨a, b, c, rfl⟩ := List.length_eq_three.mp (not_not.mp hlen)
    refine ⟨a, b, c, rfl, ?_⟩
    cases hi : months.findIdx? (· == [a, b, c].map toLower) with
    | none =>
      rw [hi] at h
      exact absurd h (by decide)
    | some i =>
      have hmem : [toLower a, toLower b, toLower c] ∈ months := by
        obtain ⟨hlt, hget, -⟩ := List.findIdx?_eq_some_iff_getElem.mp hi
        have heq : months[i] = [toLower a, toLower b, toLower c] := by simpa using hget
        exact heq ▸ List.getElem_mem hlt
      have hlower : months.all (fun m => m.head?.all isLower) = true := by decide
      exact List.all_eq_true.mp hlower _ hmem

/-- A known month starts with neither white space nor an angle bracket. -/
theorem month_cases {month : Bytes} (h : 0 ≤ monthFromAbbr month) :
    ∃ a b c, month = [a, b, c] ∧ isSpace a = false ∧ a ≠ 60 := by
  obtain ⟨a, b, c, hmonth, hletter⟩ := month_letter h
  exact ⟨a, b, c, hmonth, not_isSpace_of_isLower hletter⟩

end texts

section parsing

/-- A line with a timestamp, a host, a process field and a message. -/
def syslogLine (stamp : Stamp) (host procField msg : Bytes) : Bytes :=
  stamp.text ++ 32 :: (host ++ 32 :: (procField ++ 58 :: 32 :: msg))

/-- The fifteen bytes of a timestamp. -/
theorem stamp_text (stamp : Stamp) : ∃ a b c d e f g h i j k,
    stamp.text = [a, b, c, 32, d, e, 32, f, g, 58, h, i, 58, j, k] ∧
      isSpace a = false ∧ a ≠ 60 ∧ 0 ≤ monthFromAbbr [a, b, c] ∧ 0 < parseInt [d, e] ∧
      0 ≤ parseInt [f, g] ∧ 0 ≤ parseInt [h, i] ∧ 0 ≤ parseInt [j, k] := by
  obtain ⟨a, b, c, hmonth, hspace, hangle⟩ := month_cases stamp.month_known
  obtain ⟨d, e, hday⟩ := List.length_eq_two.mp stamp.day_number.1
  obtain ⟨f, g, hhour⟩ := List.length_eq_two.mp stamp.hour_number.1
  obtain ⟨h, i, hminute⟩ := List.length_eq_two.mp stamp.minute_number.1
  obtain ⟨j, k, hsecond⟩ := List.length_eq_two.mp stamp.second_number.1
  refine ⟨a, b, c, d, e, f, g, h, i, j, k, ?_, hspace, hangle, hmonth ▸ stamp.month_known,
    hday ▸ stamp.day_number.2, hhour ▸ stamp.hour_number.2, hminute ▸ stamp.minute_number.2,
    hsecond ▸ stamp.second_number.2⟩
  rw [Stamp.text, hmonth, hday, hhour, hminute, hsecond]
  rfl

/-- What the calendar makes of a timestamp. -/
def readTime (clock : Clock) (stamp : Stamp) : ℤ :=
  (parseSyslogTimestamp clock stamp.text {}).2.timestamp

/-- The timestamp is read into the event, whatever else that holds. -/
theorem parseSyslogTimestamp_eq (clock : Clock) (stamp : Stamp) (ev : LogEvent) :
    parseSyslogTimestamp clock stamp.text ev =
      (true, { ev with timestamp := readTime clock stamp }) := by
  obtain ⟨a, b, c, d, e, f, g, h, i, j, k, htext, -, -, hmon, hday, hhour, hmin, hsec⟩ :=
    stamp_text stamp
  have hpass : ¬([a, b, c, 32, d, e, 32, f, g, 58, h, i, 58, j, k].length < 15 ∨
      monthFromAbbr [a, b, c] < 0 ∨ parseInt [d, e] ≤ 0 ∨ parseInt [f, g] < 0 ∨
      parseInt [h, i] < 0 ∨ parseInt [j, k] < 0) := by
    simp only [List.length_cons, List.length_nil]
    omega
  have hread : ∀ ev : LogEvent,
      parseSyslogTimestamp clock [a, b, c, 32, d, e, 32, f, g, 58, h, i, 58, j, k] ev = (true, _) :=
    fun ev => if_neg hpass
  rw [readTime, htext, hread, hread]

/-- The timestamp is read, whatever the calendar makes of it. -/
theorem parseSyslogTimestamp_stamp (clock : Clock) (stamp : Stamp) (ev : LogEvent) :
    stamp.text.length = 15 ∧ ∃ t, parseSyslogTimestamp clock stamp.text ev =
      (true, { ev with timestamp := t }) := by
  obtain ⟨a, b, c, d, e, f, g, h, i, j, k, htext, -⟩ := stamp_text stamp
  refine ⟨?_, _, parseSyslogTimestamp_eq clock stamp ev⟩
  rw [htext]
  rfl

/-- The process field gives the log source and the process id only. -/
theorem fillProcess_frame (procField : Bytes) (ev : LogEvent) :
    (fillProcess procField ev).level = ev.level ∧
      (fillProcess procField ev).fields = ev.fields := by
  unfold fillProcess
  split
  · exact ⟨rfl, rfl⟩
  · split
    · exact ⟨rfl, rfl⟩
    · dsimp only
      split
      · exact ⟨rfl, rfl⟩
      · exact ⟨rfl, rfl⟩

/-- The checks before the timestamp are passed. -/
theorem hasStampShape_stamp (stamp : Stamp) (rest : Bytes) :
    hasStampShape (stamp.text ++ 32 :: rest) = true := by
  obtain ⟨a, b, c, d, e, f, g, h, i, j, k, htext, -, -, hmon, -⟩ := stamp_text stamp
  rw [htext]
  simp [hasStampShape, hmon]

/-- A timestamp starts with neither white space nor an angle bracket. -/
theorem stamp_cons (stamp : Stamp) :
    ∃ c rest, stamp.text = c :: rest ∧ isSpace c = false ∧ c ≠ 60 := by
  obtain ⟨a, _, _, _, _, _, _, _, _, _, _, htext, hspace, hangle, -⟩ := stamp_text stamp
  exact ⟨a, _, htext, hspace, hangle⟩

/-- The first colon with a blank behind it ends the process field. -/
theorem splitProcess_colon {procField : Bytes} (hcolon : 58 ∉ procField) (msg : Bytes) :
    splitProcess (procField ++ 58 :: 32 :: msg) = some (procField, msg) := by
  have hfind : find (text ": ") (procField ++ 58 :: 32 :: msg) = some procField.length :=
    @find_append 58 [32] procField hcolon msg
  simp [splitProcess, hfind]

variable (clock : Clock) (stamp : Stamp) {host procField body last : Bytes}

/-- A timestamp and a host in front of a process field are read into the event,
whatever the line starts with. -/
theorem parseSyslog_eq (hhost : IsWord host) {line rest tail msg : Bytes} {ev ev' : LogEvent}
    (hprio : parsePriority line ev = (some rest, ev'))
    (hrest : ltrim rest = stamp.text ++ 32 :: (host ++ 32 :: tail))
    (hsplit : splitProcess (ltrim tail) = some (procField, msg)) :
    parseSyslog clock line ev = (true, extractKv msg
      { fillProcess procField
          { ev' with timestamp := readTime clock stamp, sourceHost := host } with
        message := msg
        format := .syslog
        level := if ev'.level = .unknown then .info else ev'.level }) := by
  have hlen := (parseSyslogTimestamp_stamp clock stamp ev').1
  have hts := parseSyslogTimestamp_eq clock stamp ev'
  have hshape := hasStampShape_stamp stamp (host ++ 32 :: tail)
  have htake : (stamp.text ++ 32 :: (host ++ 32 :: tail)).take 15 = stamp.text := by
    rw [← hlen, List.take_left]
  have hdrop : (stamp.text ++ 32 :: (host ++ 32 :: tail)).drop 15 = 32 :: (host ++ 32 :: tail) := by
    rw [← hlen, List.drop_left]
  have hhostEnd : splitOnce (ltrim (32 :: (host ++ 32 :: tail))) 32 = (host, tail) := by
    rw [ltrim_blank_word hhost]
    refine splitOnce_append (fun h => ?_) _
    exact absurd (hhost.2 32 h) (by decide)
  have hhostne : host.isEmpty = false := by simpa using hhost.1
  unfold parseSyslog
  simp only [hprio, hrest, hshape, htake, hts, hdrop, hhostEnd, hhostne, hsplit]
  simp only [(fillProcess_frame procField _).1, Bool.not_true, Bool.false_eq_true, if_false]
  split <;> rfl

/-- A timestamp and a host in front of a process field are read, whatever the
line starts with. -/
theorem parseSyslog_stamped (hhost : IsWord host) {line rest tail msg : Bytes} {ev ev' : LogEvent}
    (hprio : parsePriority line ev = (some rest, ev'))
    (hrest : ltrim rest = stamp.text ++ 32 :: (host ++ 32 :: tail))
    (hsplit : splitProcess (ltrim tail) = some (procField, msg)) :
    ∃ t, parseSyslog clock line ev = (true, extractKv msg
      { fillProcess procField { ev' with timestamp := t, sourceHost := host } with
        message := msg
        format := .syslog
        level := if ev'.level = .unknown then .info else ev'.level }) :=
  ⟨_, parseSyslog_eq clock stamp hhost hprio hrest hsplit⟩

/-- A line that a syslog attempt accepts is parsed by it. -/
theorem parse_of_syslog {clock : Clock} {line trimmed : Bytes} {ev : LogEvent}
    (htrim : trim line = trimmed) (hne : trimmed ≠ [])
    (hsyslog : parseSyslog clock trimmed { rawLine := trimmed } = (true, ev)) :
    parse clock line = some ev := by
  have hempty : trimmed.isEmpty = false := by simpa using hne
  simp only [parse, htrim, hempty, hsyslog]
  rfl

/-- A well-formed line is accepted as syslog, and its message is the text
behind the process field. -/
theorem parse_syslogLine_eq (hhost : IsWord host) (hproc : IsWord procField) (hcolon : 58 ∉ procField)
    (hlast : IsWord last) :
    parse clock (syslogLine stamp host procField (body ++ last)) =
      some (extractKv (body ++ last)
        { fillProcess procField
            { rawLine := syslogLine stamp host procField (body ++ last)
              timestamp := readTime clock stamp
              sourceHost := host } with
          message := body ++ last
          format := .syslog
          level := .info }) := by
  obtain ⟨c, rest, hcons, hspace, hangle⟩ := stamp_cons stamp
  generalize hmsg : body ++ last = msg
  generalize hline : syslogLine stamp host procField msg = line
  have hstart : line = c :: (rest ++ 32 :: (host ++ 32 :: (procField ++ 58 :: 32 :: msg))) := by
    rw [← hline, syslogLine, hcons]
    rfl
  have hltrim : ltrim line = line := by
    rw [hstart]
    exact ltrim_cons hspace _
  have htrim : trim line = line := by
    rw [trim, hltrim, ← hline, ← hmsg, syslogLine]
    simp only [← List.append_assoc, ← List.cons_append]
    exact rtrim_append_word hlast _
  have hprio : parsePriority line { rawLine := line } = (some line, { rawLine := line }) := by
    rw [hstart]
    simp [parsePriority, hangle]
  have hsplit : splitProcess (ltrim (procField ++ 58 :: 32 :: msg)) = some (procField, msg) := by
    rw [ltrim_append_word hproc, splitProcess_colon hcolon]
  have hsyslog := parseSyslog_eq clock stamp hhost hprio (hltrim.trans hline.symm) hsplit
  exact parse_of_syslog htrim (by rw [hstart]; exact List.cons_ne_nil _ _) hsyslog

/-- A well-formed line is accepted, whatever the calendar makes of its timestamp. -/
theorem parse_syslogLine (hhost : IsWord host) (hproc : IsWord procField) (hcolon : 58 ∉ procField)
    (hlast : IsWord last) :
    ∃ t, parse clock (syslogLine stamp host procField (body ++ last)) =
      some (extractKv (body ++ last)
        { fillProcess procField
            { rawLine := syslogLine stamp host procField (body ++ last)
              timestamp := t
              sourceHost := host } with
          message := body ++ last
          format := .syslog
          level := .info }) :=
  ⟨_, parse_syslogLine_eq clock stamp hhost hproc hcolon hlast⟩

end parsing

end Dlads.SyslogLines
