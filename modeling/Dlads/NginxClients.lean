import Dlads.FailedAttempts
import Dlads.SourceAttribution

/-!
# Clients of nginx errors

An nginx error names its client as `client: ` and an address. The scanner
knows pairs with an equals sign only, and the rule engine looks for a field
`client`, so the address is not found where it stands. A line is attributed to
its client only if the part from the address on holds the address once more, in
a place that the searches come across first.
-/

namespace Dlads.NginxClients

open ByteText StringMaps Records TextSearch LineParsing KeyValueScan SyslogLines IndexedHistory
  SourceAttribution FailedAttempts

/-- A timestamp of the form `YYYY/MM/DD HH:MM:SS`. -/
structure IsoStamp where
  /-- Year. -/
  year : Bytes
  /-- Month. -/
  month : Bytes
  /-- Day of the month. -/
  day : Bytes
  /-- Hour. -/
  hour : Bytes
  /-- Minute. -/
  minute : Bytes
  /-- Second. -/
  second : Bytes
  /-- The year is a number of four digits from 1970 on. -/
  year_number : year.length = 4 ∧ (∀ c ∈ year, isDigit c = true) ∧ 1970 ≤ parseInt year
  /-- The month is a number in two columns. -/
  month_number : month.length = 2 ∧ 1 ≤ parseInt month ∧ parseInt month ≤ 12
  /-- The day is a positive number in two columns. -/
  day_number : day.length = 2 ∧ 0 < parseInt day
  /-- The hour is a number in two columns. -/
  hour_number : 0 ≤ parseInt hour ∧ hour.length = 2
  /-- The minute is a number in two columns. -/
  minute_number : 0 ≤ parseInt minute ∧ minute.length = 2
  /-- The second is a number in two columns. -/
  second_number : 0 ≤ parseInt second ∧ second.length = 2

/-- The text of a timestamp. -/
def IsoStamp.text (stamp : IsoStamp) : Bytes :=
  stamp.year ++ 47 :: (stamp.month ++ 47 :: (stamp.day ++ 32 :: (stamp.hour ++ 58 ::
    (stamp.minute ++ 58 :: stamp.second))))

/-- A line of the error log of nginx, up to the address of the client. -/
structure ErrorLine where
  /-- The timestamp. -/
  stamp : IsoStamp
  /-- The level. -/
  level : Bytes
  /-- The process id. -/
  pid : Bytes
  /-- The thread id. -/
  tid : Bytes
  /-- The connection id. -/
  cid : Bytes
  /-- What went wrong. -/
  said : Bytes
  /-- Address of the client. -/
  ip : Bytes
  /-- The level does not hold the bracket that ends it. -/
  level_closed : 93 ∉ level
  /-- The process id consists of digits. -/
  pid_digits : ∀ c ∈ pid, isDigit c = true
  /-- The thread id consists of digits. -/
  tid_digits : ∀ c ∈ tid, isDigit c = true
  /-- The connection id consists of digits. -/
  cid_digits : ∀ c ∈ cid, isDigit c = true
  /-- The text holds no equals sign, and so no `SRC=` either. -/
  said_sign : 61 ∉ said
  /-- The text holds no `from `. -/
  said_from : ¬text "from " <:+: said
  /-- The address is a word. -/
  ip_word : IsWord ip

/-- The parts behind the address, each a name and a value. -/
def joinParts (parts : List (Bytes × Bytes)) : Bytes :=
  parts.flatMap fun part => text ", " ++ part.1 ++ text ": " ++ part.2

/-- The line with further parts. -/
def ErrorLine.line (l : ErrorLine) (parts : List (Bytes × Bytes)) : Bytes :=
  l.stamp.text ++ text " [" ++ l.level ++ text "] " ++ l.pid ++ text "#" ++ l.tid ++ text ": *" ++
    l.cid ++ text " " ++ l.said ++ text ", client: " ++ l.ip ++ joinParts parts

/-- The end of a trimmed line, from the address on. -/
def ErrorLine.ending (l : ErrorLine) (parts : List (Bytes × Bytes)) : Bytes :=
  l.ip ++ rtrim (joinParts parts)

/-- What the searches for an address find first in a text: a pair with one of
three keys, the text behind `SRC=`, or the text behind `from `. -/
def firstMarked (s : Bytes) : Option Bytes :=
  (firstValue (text "src_ip") (kvPairs s)).or <|
    (firstValue (text "client") (kvPairs s)).or <|
      (firstValue (text "src") (kvPairs s)).or <|
        (srcMark s).or (fromMark s)

section stamps

/-- The nineteen bytes of a timestamp. -/
theorem stamp_bytes (stamp : IsoStamp) : ∃ a b c d e f g h i j k l m n,
    stamp.text = [a, b, c, d, 47, e, f, 47, g, h, 32, i, j, 58, k, l, 58, m, n] ∧
      (isDigit a && isDigit b && isDigit c && isDigit d) = true ∧ 1970 ≤ parseInt [a, b, c, d] ∧
      1 ≤ parseInt [e, f] ∧ parseInt [e, f] ≤ 12 ∧ 0 < parseInt [g, h] ∧ 0 ≤ parseInt [i, j] ∧
      0 ≤ parseInt [k, l] ∧ 0 ≤ parseInt [m, n] := by
  obtain ⟨hyear, hdigits, hepoch⟩ := stamp.year_number
  obtain ⟨a, b, c, d, hyear⟩ := List.length_eq_four.mp hyear
  obtain ⟨e, f, hmonth⟩ := List.length_eq_two.mp stamp.month_number.1
  obtain ⟨g, h, hday⟩ := List.length_eq_two.mp stamp.day_number.1
  obtain ⟨i, j, hhour⟩ := List.length_eq_two.mp stamp.hour_number.2
  obtain ⟨k, l, hminute⟩ := List.length_eq_two.mp stamp.minute_number.2
  obtain ⟨m, n, hsecond⟩ := List.length_eq_two.mp stamp.second_number.2
  refine ⟨a, b, c, d, e, f, g, h, i, j, k, l, m, n, ?_, ?_, hyear ▸ hepoch,
    hmonth ▸ stamp.month_number.2.1, hmonth ▸ stamp.month_number.2.2, hday ▸ stamp.day_number.2,
    hhour ▸ stamp.hour_number.1, hminute ▸ stamp.minute_number.1, hsecond ▸ stamp.second_number.1⟩
  · rw [IsoStamp.text, hyear, hmonth, hday, hhour, hminute, hsecond]
    rfl
  · rw [hyear] at hdigits
    simpa [and_assoc] using hdigits

/-- The timestamp is read, whatever the calendar makes of it. -/
theorem parseIsoTimestamp_stamp (clock : Clock) (stamp : IsoStamp) (ev : LogEvent) :
    stamp.text.length = 19 ∧ ∃ t, parseIsoTimestamp clock stamp.text ev =
      (true, { ev with timestamp := t }) := by
  obtain ⟨a, b, c, d, e, f, g, h, i, j, k, l, m, n, htext, -, hyear, hlow, hhigh, hday, hhour,
    hminute, hsecond⟩ := stamp_bytes stamp
  rw [htext]
  have hpass : ¬(parseInt [a, b, c, d] < 1970 ∨ parseInt [e, f] - 1 < 0 ∨
      11 < parseInt [e, f] - 1 ∨ parseInt [g, h] ≤ 0 ∨ parseInt [i, j] < 0 ∨
      parseInt [k, l] < 0 ∨ parseInt [m, n] < 0) := by
    omega
  exact ⟨rfl, _, if_neg hpass⟩

/-- A line that starts with a timestamp starts with a year and so with no
syslog timestamp. -/
theorem front_stamp (clock : Clock) (stamp : IsoStamp) (rest : Bytes) (ev : LogEvent) :
    ltrim (stamp.text ++ rest) = stamp.text ++ rest ∧
      startsWithYear (stamp.text ++ rest) = true ∧
      parseSyslog clock (stamp.text ++ rest) ev = (false, ev) := by
  obtain ⟨a, b, c, d, e, f, g, h, i, j, k, l, m, n, htext, hdigits, -⟩ := stamp_bytes stamp
  have hdigit : isDigit a = true := by
    simp only [Bool.and_eq_true] at hdigits
    exact hdigits.1.1.1
  obtain ⟨hletter, hangle⟩ := not_isLower_of_isDigit hdigit
  have hspace := not_isSpace_of_isDigit hdigit
  rw [htext]
  refine ⟨ltrim_cons hspace _, hdigits, ?_⟩
  simp only [List.cons_append]
  simp only [parseSyslog, parsePriority, List.head?_cons, Option.some.injEq, hangle, if_false,
    ltrim_cons hspace, hasStampShape_of_front hletter, Bool.not_false, if_true]

end stamps

section parsing

/-- White space behind a word is trimmed, whatever else stands there. -/
theorem rtrim_word_append {s : Bytes} (hs : IsWord s) (lead t : Bytes) :
    rtrim (lead ++ (s ++ t)) = lead ++ (s ++ rtrim t) := by
  rw [← List.append_assoc, ← List.append_assoc]
  induction t using List.reverseRecOn with
  | nil =>
    have hnil : rtrim [] = [] := rfl
    rw [hnil, List.append_nil]
    exact rtrim_append_word hs lead
  | append_singleton t c ih =>
    unfold rtrim at ih ⊢
    rw [← List.append_assoc, List.rdropWhile_concat, List.rdropWhile_concat]
    split
    · exact ih
    · rw [List.append_assoc]

variable (l : ErrorLine) (parts : List (Bytes × Bytes))

/-- What stands between the colon behind the thread id and the address. -/
def ErrorLine.lead (l : ErrorLine) : Bytes :=
  text "*" ++ l.cid ++ text " " ++ l.said ++ text ", client:"

/-- The ids in front of the colon. -/
def ErrorLine.ids (l : ErrorLine) : Bytes := l.pid ++ 35 :: l.tid

/-- What remains of the line without the white space at its end. -/
theorem trim_line (clock : Clock) : trim (l.line parts) = l.stamp.text ++ 32 :: 91 :: (l.level ++
    93 :: 32 :: (l.ids ++ 58 :: 32 :: (l.lead ++ 32 :: l.ending parts))) := by
  have hopen : text " [" = [32, 91] := by decide
  have hclose : text "] " = [93, 32] := by decide
  have hhash : text "#" = [35] := by decide
  have hstar : text ": *" = 58 :: 32 :: text "*" := by decide
  have hclient : text ", client: " = text ", client:" ++ [32] := by decide
  have hline : l.line parts = (l.stamp.text ++ 32 :: 91 :: (l.level ++
      93 :: 32 :: (l.ids ++ 58 :: 32 :: (l.lead ++ [32])))) ++ (l.ip ++ joinParts parts) := by
    rw [ErrorLine.line, hopen, hclose, hhash, hstar, hclient, ErrorLine.lead, ErrorLine.ids]
    simp only [List.append_assoc, List.cons_append, List.nil_append]
  have hfront : ltrim (l.line parts) = l.line parts := by
    rw [hline, List.append_assoc]
    exact (front_stamp clock l.stamp _ {}).1
  rw [trim, hfront, hline, rtrim_word_append l.ip_word, ErrorLine.ending]
  simp only [List.append_assoc, List.cons_append, List.nil_append]

/-- The ids hold no colon, and neither they nor what follows holds an equals
sign or the start of `from `. -/
theorem ids_plain : 58 ∉ l.ids ∧ 61 ∉ l.ids ∧ 102 ∉ l.ids := by
  have hmem : ∀ c : UInt8, isDigit c = false → c ≠ 35 → c ∉ l.ids := by
    intro c hc hhash h
    rcases List.mem_append.mp h with h | h
    · rw [l.pid_digits c h] at hc
      cases hc
    · rcases List.mem_cons.mp h with h | h
      · exact hhash h
      · rw [l.tid_digits c h] at hc
        cases hc
  exact ⟨hmem 58 (by decide) (by decide), hmem 61 (by decide) (by decide),
    hmem 102 (by decide) (by decide)⟩

/-- The ids are a word. -/
theorem ids_word : IsWord l.ids := by
  refine ⟨List.append_ne_nil_of_right_ne_nil _ (List.cons_ne_nil _ _), fun c hc => ?_⟩
  rcases List.mem_append.mp hc with h | h
  · exact not_isSpace_of_isDigit (l.pid_digits c h)
  · rcases List.mem_cons.mp h with rfl | h
    · decide
    · exact not_isSpace_of_isDigit (l.tid_digits c h)

/-- The bracket is taken off with the level in it. -/
theorem parseBracketLevel_level (t : Bytes) (ev : LogEvent) :
    parseBracketLevel (91 :: (l.level ++ 93 :: 32 :: (l.ids ++ t))) ev =
      (l.ids ++ t, { ev with level := keywordToLevel l.level }) := by
  have hopen : 93 ∉ 91 :: l.level := by
    simp [l.level_closed]
  have hfind : find (text "]") (91 :: (l.level ++ 93 :: 32 :: (l.ids ++ t))) =
      some (l.level.length + 1) := find_byte hopen (32 :: (l.ids ++ t))
  have hinside : ((91 :: (l.level ++ 93 :: 32 :: (l.ids ++ t))).drop 1).take
      (l.level.length + 1 - 1) = l.level := List.take_left
  have hbehind : (91 :: (l.level ++ 93 :: 32 :: (l.ids ++ t))).drop (l.level.length + 1 + 1) =
      32 :: (l.ids ++ t) := by
    rw [List.drop_succ_cons, ← List.drop_drop, List.drop_left, List.drop_one, List.tail_cons]
  unfold parseBracketLevel
  rw [hfind]
  dsimp only
  rw [hinside, hbehind, ltrim_blank_word (ids_word l)]

/-- The ids are skipped if they are short enough. -/
theorem skipPidPrefix_ids : ∃ front, 61 ∉ front ∧ 102 ∉ front ∧
    skipPidPrefix (l.ids ++ 58 :: 32 :: (l.lead ++ 32 :: l.ending parts)) =
      front ++ (l.lead ++ 32 :: l.ending parts) := by
  obtain ⟨hcolon, hsign, hletter⟩ := ids_plain l
  have hfind : find (text ": ") (l.ids ++ 58 :: 32 :: (l.lead ++ 32 :: l.ending parts)) =
      some l.ids.length := @find_append 58 [32] l.ids hcolon _
  unfold skipPidPrefix
  rw [hfind]
  dsimp only
  split
  · refine ⟨[], List.not_mem_nil, List.not_mem_nil, ?_⟩
    rw [← List.drop_drop, List.drop_left]
    rfl
  · refine ⟨l.ids ++ [58, 32], ?_, ?_, ?_⟩
    · simp [hsign]
    · simp [hletter]
    · simp

/-- A timestamp, a level and the ids in front of a text are taken off. -/
theorem parseNginx_front (clock : Clock) (t : Bytes) (ev : LogEvent) : ∃ time,
    parseNginx clock (l.stamp.text ++ 32 :: 91 :: (l.level ++ 93 :: 32 :: (l.ids ++ t))) ev =
      (true, extractKv (skipPidPrefix (l.ids ++ t))
        { ev with
          timestamp := time
          level := keywordToLevel l.level
          message := skipPidPrefix (l.ids ++ t)
          logSource := text "nginx"
          format := .kvPairs }) := by
  obtain ⟨hlen, time, hstamp⟩ := parseIsoTimestamp_stamp clock l.stamp ev
  generalize hrest : 32 :: 91 :: (l.level ++ 93 :: 32 :: (l.ids ++ t)) = rest
  have hlong : ¬(l.stamp.text ++ rest).length < 19 := by
    rw [List.length_append]
    omega
  have htake : (l.stamp.text ++ rest).take 19 = l.stamp.text := by
    rw [← hlen, List.take_left]
  have hdrop : ltrim ((l.stamp.text ++ rest).drop 19) =
      91 :: (l.level ++ 93 :: 32 :: (l.ids ++ t)) := by
    rw [← hlen, List.drop_left, ← hrest]
    rfl
  refine ⟨time, ?_⟩
  simp only [parseNginx, hlong, htake, hstamp, hdrop, List.head?_cons, if_true, if_false,
    parseBracketLevel_level]

/-- A line that a syslog attempt rejects without a trace and an nginx attempt
accepts is parsed by the latter. -/
theorem parse_of_nginx {clock : Clock} {line trimmed : Bytes} {ev : LogEvent}
    (htrim : trim line = trimmed) (hyear : startsWithYear trimmed = true)
    (hsyslog : parseSyslog clock trimmed { rawLine := trimmed } = (false, { rawLine := trimmed }))
    (hnginx : parseNginx clock trimmed { rawLine := trimmed } = (true, ev)) :
    parse clock line = some ev := by
  have hempty : trimmed.isEmpty = false := by
    cases trimmed with
    | nil => cases hyear
    | cons c rest => rfl
  simp only [parse, htrim, hempty, hsyslog, hyear, hnginx]
  rfl

/-- The line is accepted, with a message that ends with the address and the
parts, and its fields are the pairs of the message. -/
theorem parse_line (clock : Clock) : ∃ ev front, parse clock (l.line parts) = some ev ∧
    61 ∉ front ∧ 102 ∉ front ∧ ev.message = front ++ (l.lead ++ 32 :: l.ending parts) ∧
    ∀ key, ev.fields.lookup key = firstValue key (kvPairs ev.message) := by
  obtain ⟨front, hsign, hletter, hskip⟩ := skipPidPrefix_ids l parts
  have htrim := trim_line l parts clock
  generalize l.lead ++ 32 :: l.ending parts = body at hskip htrim ⊢
  generalize hline : l.stamp.text ++ 32 :: 91 :: (l.level ++ 93 :: 32 :: (l.ids ++ 58 :: 32 ::
    body)) = trimmed at htrim
  obtain ⟨-, hyear, hsyslog⟩ := front_stamp clock l.stamp
    (32 :: 91 :: (l.level ++ 93 :: 32 :: (l.ids ++ 58 :: 32 :: body))) { rawLine := trimmed }
  obtain ⟨time, hnginx⟩ := parseNginx_front l clock (58 :: 32 :: body) { rawLine := trimmed }
  rw [hline] at hyear hsyslog hnginx
  rw [hskip] at hnginx
  refine ⟨_, front, parse_of_nginx htrim hyear hsyslog hnginx, hsign, hletter, rfl, fun key => ?_⟩
  rw [lookup_extractKv]
  rfl

end parsing

section searches

variable (l : ErrorLine) (parts : List (Bytes × Bytes)) {front : Bytes}

/-- Nothing in front of the address holds an equals sign. -/
theorem lead_sign (hsign : 61 ∉ front) : 61 ∉ front ++ l.lead := by
  have hcid : 61 ∉ l.cid := by
    intro h
    exact absurd (l.cid_digits 61 h) (by decide)
  have hstar : 61 ∉ text "*" := by decide
  have hblank : 61 ∉ text " " := by decide
  have hclient : 61 ∉ text ", client:" := by decide
  simp [ErrorLine.lead, hsign, hcid, hstar, hblank, hclient, l.said_sign]

/-- A needle is not found in a text without its first byte, nor across the end
of it. -/
theorem after_append_of_front {z : UInt8} {needle p : Bytes} (hp : z ∉ p) (t : Bytes) :
    after (z :: needle) (p ++ t) = after (z :: needle) t := by
  induction p with
  | nil => rfl
  | cons c p ih =>
    have hne : z ≠ c := fun h => hp (h ▸ List.mem_cons_self)
    rw [List.cons_append, after_cons, if_neg, ih fun h => hp (List.mem_cons_of_mem c h)]
    intro hprefix
    exact hne (List.cons_prefix_cons.mp (List.isPrefixOf_iff_prefix.mp hprefix)).1

/-- The pairs of the message are those behind the lead. -/
theorem kvPairs_ending (hsign : 61 ∉ front) :
    kvPairs (front ++ (l.lead ++ 32 :: l.ending parts)) = kvPairs (l.ending parts) := by
  rw [← List.append_assoc, kvPairs_append_of_no_sign (lead_sign l hsign),
    kvPairs_skip (by decide)]

/-- What follows `SRC=` follows it behind the lead. -/
theorem srcMark_ending (hsign : 61 ∉ front) :
    srcMark (front ++ (l.lead ++ 32 :: l.ending parts)) = srcMark (l.ending parts) := by
  have hafter : after (text "SRC=") (front ++ (l.lead ++ 32 :: l.ending parts)) =
      after (text "SRC=") (l.ending parts) := by
    rw [← List.append_assoc, after_append_sep (by decide) (by decide),
      after_eq_none (by decide) (lead_sign l hsign)]
    rfl
  simp only [srcMark, parseKvField_eq, hafter]

/-- What follows `from ` follows it behind the lead. -/
theorem fromMark_ending (hletter : 102 ∉ front) :
    fromMark (front ++ (l.lead ++ 32 :: l.ending parts)) = fromMark (l.ending parts) := by
  have hneedle : text "from " = 102 :: text "rom " := by decide
  have hsaid : after (text "from ") l.said = none := by
    rw [after, (find_eq_none_iff _ _).mpr l.said_from]
    rfl
  have hclient : text ", client:" = 44 :: text " client:" := by decide
  have hcid : 102 ∉ front ++ (text "*" ++ (l.cid ++ text " ")) := by
    have hdigits : 102 ∉ l.cid := by
      intro h
      exact absurd (l.cid_digits 102 h) (by decide)
    have hstar : 102 ∉ text "*" := by decide
    have hblank : 102 ∉ text " " := by decide
    simp [hletter, hdigits, hstar, hblank]
  have hsplit : front ++ (l.lead ++ 32 :: l.ending parts) =
      front ++ (text "*" ++ (l.cid ++ text " ")) ++ (l.said ++ 44 :: (text " client:" ++
        32 :: l.ending parts)) := by
    rw [ErrorLine.lead, hclient]
    simp only [List.append_assoc, List.cons_append]
  have hafter : after (text "from ") (front ++ (l.lead ++ 32 :: l.ending parts)) =
      after (text "from ") (l.ending parts) := by
    rw [hsplit, hneedle, after_append_of_front hcid, ← hneedle,
      after_append_sep (by decide) (by decide), hsaid, Option.map_none, Option.none_or,
      List.append_cons, hneedle, after_append_of_front (by decide)]
  simp only [fromMark, hafter]

/-- The searches in order. -/
theorem extractSrcIp_firstMarked {ev : LogEvent}
    (h : ∀ key, ev.fields.lookup key = firstValue key (kvPairs ev.message)) :
    extractSrcIp ev = (firstMarked ev.message).getD [] := by
  rw [extractSrcIp_eq, h, h, h, parseFromIp_eq, firstMarked]
  simp only [Option.getD_or]

/-- A line is attributed to what the searches find from the address on. -/
theorem attributed_line (clock : Clock) :
    attributed clock (l.line parts) = some ((firstMarked (l.ending parts)).getD []) := by
  obtain ⟨ev, front, hev, hsign, hletter, hmessage, hfields⟩ := parse_line l parts clock
  have hmarked : firstMarked ev.message = firstMarked (l.ending parts) := by
    rw [hmessage, firstMarked, firstMarked, kvPairs_ending l parts hsign,
      srcMark_ending l parts hsign, fromMark_ending l parts hletter]
  rw [attributed, hev, Option.map_some, extractSrcIp_firstMarked hfields, hmarked]

end searches

/-- An error is attributed to its client exactly if the searches find the
address once more, from the address on. -/
theorem client_iff (l : ErrorLine) (parts : List (Bytes × Bytes)) (clock : Clock) :
    attributed clock (l.line parts) = some l.ip ↔ firstMarked (l.ending parts) = some l.ip := by
  have hne := l.ip_word.1
  rw [attributed_line, Option.some.injEq]
  cases firstMarked (l.ending parts) with
  | none => simpa using hne.symm
  | some v => simp

/-- No equals sign and no `from ` from the address on: the error is attributed
to no one. -/
theorem attributed_nil (l : ErrorLine) {parts : List (Bytes × Bytes)} (clock : Clock)
    (hsign : 61 ∉ l.ending parts) (hfrom : ¬text "from " <:+: l.ending parts) :
    attributed clock (l.line parts) = some [] := by
  have hmark : srcMark (l.ending parts) = none := by
    rw [srcMark, parseKvField_eq, after_eq_none (by decide) hsign]
    rfl
  have hnone : fromMark (l.ending parts) = none := by
    rw [fromMark, after, (find_eq_none_iff _ _).mpr hfrom]
    rfl
  rw [attributed_line, firstMarked, kvPairs_of_no_sign hsign, hmark, hnone]
  rfl

/-- The error of the parser's documentation. -/
def documented : ErrorLine where
  stamp :=
    { year := text "2024", month := text "01", day := text "02", hour := text "15"
      minute := text "04", second := text "05"
      year_number := ⟨by decide, List.all_eq_true.mp (by decide), by decide⟩
      month_number := by decide
      day_number := by decide
      hour_number := by decide
      minute_number := by decide
      second_number := by decide }
  level := text "error"
  pid := text "42"
  tid := text "0"
  cid := text "1"
  said := text "msg"
  ip := text "1.2.3.4"
  level_closed := by decide
  pid_digits := List.all_eq_true.mp (by decide)
  tid_digits := List.all_eq_true.mp (by decide)
  cid_digits := List.all_eq_true.mp (by decide)
  said_sign := by decide
  said_from := by decide
  ip_word := isWord_of_all (by decide) (by decide)

/-- The documented line is attributed to no one. -/
theorem documented_unattributed :
    documented.line [] = text "2024/01/02 15:04:05 [error] 42#0: *1 msg, client: 1.2.3.4" ∧
      attributed epochClock (documented.line []) = some [] ∧
      ¬∀ (l : ErrorLine) (parts : List (Bytes × Bytes)) (clock : Clock), 44 ∉ l.ip →
        ¬text ", client: " <:+: l.said → attributed clock (l.line parts) = some l.ip := by
  have hline : documented.line [] =
      text "2024/01/02 15:04:05 [error] 42#0: *1 msg, client: 1.2.3.4" := by
    decide +kernel
  have hnil : attributed epochClock (documented.line []) = some [] :=
    attributed_nil documented epochClock (by decide) (by decide)
  refine ⟨hline, hnil, fun h => ?_⟩
  have hclient := h documented [] epochClock (by decide) (by decide)
  rw [hnil] at hclient
  exact absurd hclient (by decide)

-- A request that repeats the address as a pair brings the client back.
example : firstMarked (documented.ending [(text "request", text "GET client=1.2.3.4")]) =
    some documented.ip := by
  decide +kernel

end Dlads.NginxClients
