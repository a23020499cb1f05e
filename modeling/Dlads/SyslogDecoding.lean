import Dlads.SyslogLines

/-!
# Decoding RFC 3164 lines

A line in the form the parser documents, with or without a priority and a
process id and with any message down to the empty one, is parsed into what it
was written from. An empty message is the one case in which the blank behind
the colon is trimmed and the colon is found as the last one.
-/

namespace Dlads.SyslogDecoding

open ByteText StringMaps Records TextSearch LineParsing SyslogLines

/-- The byte of a decimal digit. -/
def digit (n : ℕ) : UInt8 := UInt8.ofNat (48 + n)

/-- A number below 100 in two columns. -/
def twoColumns (pad : UInt8) (n : ℕ) : Bytes :=
  [if n < 10 then pad else digit (n / 10), digit (n % 10)]

/-- A time of day on a day of the year. -/
structure SyslogTime where
  /-- Abbreviation of the month, in any letter case. -/
  month : Bytes
  /-- It is one of the twelve. -/
  month_name : month.map toLower ∈ months
  /-- Day of the month. -/
  day : ℕ
  /-- Days count from 1 to 31. -/
  day_range : 1 ≤ day ∧ day ≤ 31
  /-- A day below 10 has a zero in front, not a blank. -/
  zeroPadded : Bool
  /-- Hour. -/
  hour : ℕ
  /-- Hours count to 23. -/
  hour_lt : hour < 24
  /-- Minute. -/
  minute : ℕ
  /-- Minutes count to 59. -/
  minute_lt : minute < 60
  /-- Second. -/
  second : ℕ
  /-- Seconds count to 59. -/
  second_lt : second < 60

/-- A syslog line, by what it says. -/
structure SyslogLine where
  /-- The timestamp. -/
  time : SyslogTime
  /-- The priority, if it is written. -/
  pri : Option ℕ
  /-- Priorities count to 191. -/
  pri_le : ∀ p ∈ pri, p ≤ 191
  /-- The host. -/
  host : Bytes
  /-- It is a word. -/
  host_word : IsWord host
  /-- The process name. -/
  proc : Bytes
  /-- It is a word. -/
  proc_word : IsWord proc
  /-- It holds neither bracket nor colon. -/
  proc_plain : 91 ∉ proc ∧ 93 ∉ proc ∧ 58 ∉ proc
  /-- The process id, if it is written. -/
  pid : Option ℕ
  /-- Process ids have 31 bits. -/
  pid_le : ∀ p ∈ pid, p ≤ 2147483647
  /-- The message. -/
  msg : Bytes
  /-- It has no white space at its end and no newline. -/
  msg_trimmed : rtrim msg = msg ∧ 10 ∉ msg

/-- The timestamp as it is written. -/
def SyslogTime.text (time : SyslogTime) : Bytes :=
  time.month ++ 32 :: (twoColumns (if time.zeroPadded then 48 else 32) time.day ++ 32 ::
    (twoColumns 48 time.hour ++ 58 :: (twoColumns 48 time.minute ++ 58 ::
      twoColumns 48 time.second)))

namespace SyslogLine

variable (l : SyslogLine)

/-- The priority as it is written. -/
def priText : Bytes :=
  match l.pri with
  | some p => 60 :: (decNat p ++ [62])
  | none => []

/-- The process field as it is written. -/
def procText : Bytes :=
  match l.pid with
  | some p => l.proc ++ 91 :: (decNat p ++ [93])
  | none => l.proc

/-- The line as it is written. -/
def text : Bytes :=
  l.priText ++ (l.time.text ++ 32 :: (l.host ++ 32 :: (l.procText ++ 58 :: 32 :: l.msg)))

/-- The level that the priority stands for. -/
def level : LogLevel :=
  match l.pri with
  | some p => priorityToLevel p
  | none => .info

end SyslogLine

section numbers

theorem parseInt_twoColumns {n : ℕ} (hn : n < 60) : parseInt (twoColumns 48 n) = n := by
  have hall : ∀ n < 60, parseInt (twoColumns 48 n) = n := by decide
  exact hall n hn

theorem parseInt_blank {n : ℕ} (hn : n < 32) : parseInt (twoColumns 32 n) = n := by
  have hall : ∀ n < 32, parseInt (twoColumns 32 n) = n := by decide
  exact hall n hn

/-- A rendered number is read back, with nothing to trim. -/
theorem parseInt_decNat {n : ℕ} (hn : n ≤ 2147483647) : parseInt (decNat n) = n := by
  have hword : IsWord (decNat n) :=
    ⟨decNat_ne_nil n, fun c hc => not_isSpace_of_isDigit (isDigit_of_mem_decNat hc)⟩
  have htrim : trim (decNat n) = decNat n := by
    have hl := ltrim_append_word hword []
    have hr := rtrim_append_word hword []
    rw [List.append_nil] at hl
    rw [List.nil_append] at hr
    rw [trim, hl, hr]
  rw [parseInt, htrim, fromChars_decNat hn]
  exact if_pos (Int.natCast_nonneg n)

/-- A byte that is no digit is not in a rendered number. -/
theorem not_mem_decNat {c : UInt8} (hc : isDigit c = false) (n : ℕ) : c ∉ decNat n := fun h => by
  rw [isDigit_of_mem_decNat h] at hc
  cases hc

end numbers

section fields

/-- A month in any letter case is known. -/
theorem monthFromAbbr_of_mem {month : Bytes} (h : month.map toLower ∈ months) :
    0 ≤ monthFromAbbr month := by
  have hlen : month.length = 3 := by
    have hall : months.all (fun m => m.length == 3) = true := by decide
    have hthree := List.all_eq_true.mp hall _ h
    simpa using hthree
  have hfound : (months.findIdx? (· == month.map toLower)).isSome = true :=
    List.findIdx?_isSome.trans (List.any_eq_true.mpr ⟨_, h, beq_self_eq_true _⟩)
  obtain ⟨i, hi⟩ := Option.isSome_iff_exists.mp hfound
  rw [monthFromAbbr, if_neg (not_not.mpr hlen), hi]
  exact Int.natCast_nonneg i

/-- The timestamp is one that the parser reads. -/
def SyslogTime.stamp (time : SyslogTime) : Stamp where
  month := time.month
  day := twoColumns (if time.zeroPadded then 48 else 32) time.day
  hour := twoColumns 48 time.hour
  minute := twoColumns 48 time.minute
  second := twoColumns 48 time.second
  month_known := monthFromAbbr_of_mem time.month_name
  day_number := by
    obtain ⟨hlow, hhigh⟩ := time.day_range
    refine ⟨rfl, ?_⟩
    cases time.zeroPadded with
    | true =>
      rw [if_pos rfl, parseInt_twoColumns (by omega)]
      omega
    | false =>
      rw [if_neg Bool.false_ne_true, parseInt_blank (by omega)]
      omega
  hour_number := ⟨rfl, by
    have := time.hour_lt
    rw [parseInt_twoColumns (by omega)]
    omega⟩
  minute_number := ⟨rfl, by
    rw [parseInt_twoColumns time.minute_lt]
    omega⟩
  second_number := ⟨rfl, by
    rw [parseInt_twoColumns time.second_lt]
    omega⟩

theorem stamp_text_eq (time : SyslogTime) : time.stamp.text = time.text := rfl

/-- Every priority has a level. -/
theorem priorityToLevel_known (p : ℕ) : priorityToLevel p ≠ .unknown := by
  have hall : ∀ r < 8, priorityToLevel (r : ℕ) ≠ .unknown := by decide
  have hmod : (p : ℤ) % 8 = ((p % 8 : ℕ) : ℤ) % 8 := by omega
  have hsame : priorityToLevel p = priorityToLevel (p % 8 : ℕ) := by
    unfold priorityToLevel
    rw [hmod]
  rw [hsame]
  exact hall _ (Nat.mod_lt p (by decide))

/-- A priority is taken off the front of the line. -/
theorem parsePriority_pri {p : ℕ} (hp : p ≤ 191) (rest : Bytes) (ev : LogEvent) :
    parsePriority (60 :: (decNat p ++ 62 :: rest)) ev =
      (some rest, { ev with level := priorityToLevel p }) := by
  have hfind : find (text ">") (60 :: (decNat p ++ 62 :: rest)) = some ((decNat p).length + 1) := by
    have hnot : (62 : UInt8) ∉ 60 :: decNat p :=
      List.not_mem_cons_of_ne_of_not_mem (by decide) (not_mem_decNat (by decide) p)
    exact find_byte hnot rest
  have hpri : parseInt (decNat p) = p := parseInt_decNat (by omega)
  simp [parsePriority, hfind, hpri]

/-- A process name without brackets is the log source. -/
theorem fillProcess_plain {proc : Bytes} (h : 91 ∉ proc) (ev : LogEvent) :
    fillProcess proc ev = { ev with logSource := proc } := by
  have hfind : find (text "[") proc = none := by
    have hnone : after (text "[") proc = none := after_eq_none (List.mem_singleton_self 91) h
    exact Option.map_eq_none_iff.mp hnone
  simp [fillProcess, hfind]

/-- A process id in brackets is read. -/
theorem fillProcess_pid {proc : Bytes} {pid : ℕ} (h : 91 ∉ proc) (hp : pid ≤ 2147483647)
    (ev : LogEvent) : fillProcess (proc ++ 91 :: (decNat pid ++ [93])) ev =
      { ev with logSource := proc, pid := pid } := by
  have hopen : find (text "[") (proc ++ 91 :: (decNat pid ++ [93])) = some proc.length :=
    find_byte h (decNat pid ++ [93])
  have hclose : find (text "]") (91 :: (decNat pid ++ [93])) = some ((decNat pid).length + 1) := by
    have hnot : (93 : UInt8) ∉ 91 :: decNat pid :=
      List.not_mem_cons_of_ne_of_not_mem (by decide) (not_mem_decNat (by decide) pid)
    exact find_byte hnot []
  have hpid : parseInt (decNat pid) = pid := parseInt_decNat hp
  simp [fillProcess, hopen, hclose, hpid]

/-- The last colon ends the process field when no message follows. -/
theorem splitProcess_last {procField : Bytes} (hword : IsWord procField) :
    splitProcess (procField ++ [58]) = some (procField, []) := by
  have hfind : find (text ": ") (procField ++ [58]) = none := by
    have hblank : (32 : UInt8) ∉ procField ++ [58] := by
      rw [List.mem_append, not_or]
      refine ⟨fun h => ?_, by decide⟩
      exact absurd (hword.2 32 h) (by decide)
    have hnone : after (text ": ") (procField ++ [58]) = none :=
      after_eq_none (List.mem_cons_of_mem 58 (List.mem_singleton_self 32)) hblank
    exact Option.map_eq_none_iff.mp hnone
  have hlast : rfind (text ":") (procField ++ [58]) = some procField.length :=
    rfind_byte_last 58 procField
  simp [splitProcess, hfind, hlast]

end fields

section lines

/-- A text that ends as a trimmed one is trimmed. -/
theorem rtrim_append {s : Bytes} (hne : s ≠ []) (hs : rtrim s = s) (t : Bytes) :
    rtrim (t ++ s) = t ++ s := by
  rw [rtrim, List.rdropWhile_eq_self_iff] at hs ⊢
  intro hl
  rw [List.getLast_append_of_ne_nil hl hne]
  exact hs hne

variable (l : SyslogLine)

theorem procText_word : IsWord l.procText := by
  unfold SyslogLine.procText
  split
  · next pid hpid =>
    refine ⟨List.append_ne_nil_of_left_ne_nil l.proc_word.1 _, fun c hc => ?_⟩
    rcases List.mem_append.mp hc with hc | hc
    · exact l.proc_word.2 c hc
    · rcases List.mem_cons.mp hc with rfl | hc
      · decide
      · rcases List.mem_append.mp hc with hc | hc
        · exact not_isSpace_of_isDigit (isDigit_of_mem_decNat hc)
        · rw [List.mem_singleton.mp hc]
          decide
  · exact l.proc_word

theorem procText_plain : 58 ∉ l.procText := by
  unfold SyslogLine.procText
  split
  · next pid hpid =>
    have hid := not_mem_decNat (c := 58) (by decide) pid
    simpa using ⟨l.proc_plain.2.2, hid⟩
  · exact l.proc_plain.2.2

/-- The process field is taken apart. -/
theorem fillProcess_procText (ev : LogEvent) (hev : ev.pid = 0) : fillProcess l.procText ev =
    { ev with logSource := l.proc, pid := (l.pid.getD 0 : ℕ) } := by
  unfold SyslogLine.procText
  split
  · next pid hpid =>
    rw [fillProcess_pid l.proc_plain.1 (l.pid_le pid hpid), hpid]
    rfl
  · next hpid =>
    rw [fillProcess_plain l.proc_plain.1, hpid, Option.getD_none, Nat.cast_zero, ← hev]

/-- What is left of the line behind the host when it has been trimmed. -/
def SyslogLine.trimmedTail : Bytes :=
  if l.msg.isEmpty then l.procText ++ [58] else l.procText ++ 58 :: 32 :: l.msg

theorem splitProcess_trimmedTail :
    splitProcess (ltrim l.trimmedTail) = some (l.procText, l.msg) := by
  unfold SyslogLine.trimmedTail
  split
  · next hempty =>
    rw [ltrim_append_word (procText_word l), splitProcess_last (procText_word l),
      List.isEmpty_iff.mp hempty]
  · rw [ltrim_append_word (procText_word l), splitProcess_colon (procText_plain l)]

/-- Trimming takes away the blank behind the colon or nothing. -/
theorem trim_text : trim l.text =
    l.priText ++ (l.time.text ++ 32 :: (l.host ++ 32 :: l.trimmedTail)) := by
  have hltrim : ltrim l.text = l.text := by
    obtain ⟨c, rest, hcons, hspace, -⟩ := stamp_cons l.time.stamp
    rw [stamp_text_eq] at hcons
    unfold SyslogLine.text SyslogLine.priText
    split
    · exact ltrim_cons (by decide) _
    · rw [hcons]
      exact ltrim_cons hspace _
  rw [trim, hltrim, SyslogLine.text, SyslogLine.trimmedTail]
  by_cases hempty : l.msg = []
  · have hcolon : IsWord [58] := isWord_of_all (by decide) (by decide)
    rw [hempty, List.isEmpty_nil, if_pos rfl]
    have hsplit : ∀ a b c d : Bytes, a ++ (b ++ 32 :: (c ++ 32 :: (d ++ [58, 32]))) =
        (a ++ (b ++ 32 :: (c ++ 32 :: (d ++ [58])))) ++ [32] := by simp
    rw [hsplit, rtrim, List.rdropWhile_concat_pos _ _ _ (by decide)]
    have hfront : ∀ a b c d : Bytes, a ++ (b ++ 32 :: (c ++ 32 :: (d ++ [58]))) =
        (a ++ (b ++ 32 :: (c ++ 32 :: d))) ++ [58] := by simp
    rw [hfront]
    exact rtrim_append_word hcolon _
  · have hne : l.msg.isEmpty = false := by simpa using hempty
    rw [hne, if_neg Bool.false_ne_true]
    have hsplit : ∀ a b c d m : Bytes, a ++ (b ++ 32 :: (c ++ 32 :: (d ++ 58 :: 32 :: m))) =
        (a ++ (b ++ 32 :: (c ++ 32 :: (d ++ [58, 32])))) ++ m := by simp
    rw [hsplit]
    exact rtrim_append hempty l.msg_trimmed.1 _

/-- The priority sets the level, or leaves it to the default. -/
theorem parsePriority_priText {rest : Bytes} (hrest : rest.head? ≠ some 60) (ev : LogEvent)
    (hev : ev.level = .unknown) : ∃ ev', parsePriority (l.priText ++ rest) ev = (some rest, ev') ∧
      ev'.pid = ev.pid ∧ (if ev'.level = .unknown then .info else ev'.level) = l.level := by
  unfold SyslogLine.priText SyslogLine.level
  split
  · next p hp =>
    rw [List.cons_append, List.append_assoc, List.singleton_append]
    exact ⟨_, parsePriority_pri (l.pri_le p hp) _ _, rfl, if_neg (priorityToLevel_known p)⟩
  · refine ⟨ev, ?_, rfl, if_pos hev⟩
    rw [List.nil_append, parsePriority, if_neg hrest]

end lines

/-- A well-formed line is parsed into what it says. -/
theorem parse_text (clock : Clock) (l : SyslogLine) : ∃ ev, parse clock l.text = some ev ∧
    ev.format = .syslog ∧ ev.sourceHost = l.host ∧ ev.logSource = l.proc ∧
    ev.pid = (l.pid.getD 0 : ℕ) ∧ ev.message = l.msg ∧ ev.level = l.level := by
  set trimmed := l.priText ++ (l.time.text ++ 32 :: (l.host ++ 32 :: l.trimmedTail)) with htrimmed
  obtain ⟨c, rest, hcons, hspace, hangle⟩ := stamp_cons l.time.stamp
  rw [stamp_text_eq] at hcons
  have hhead : (l.time.text ++ 32 :: (l.host ++ 32 :: l.trimmedTail)).head? ≠ some 60 := by
    rw [hcons]
    simpa using hangle
  obtain ⟨ev, hprio, hpid, hlevel⟩ :=
    parsePriority_priText l hhead { rawLine := trimmed } rfl
  have hrest : ltrim (l.time.text ++ 32 :: (l.host ++ 32 :: l.trimmedTail)) =
      l.time.stamp.text ++ 32 :: (l.host ++ 32 :: l.trimmedTail) := by
    rw [stamp_text_eq, hcons]
    exact ltrim_cons hspace _
  obtain ⟨t, hsyslog⟩ := parseSyslog_stamped clock l.time.stamp l.host_word hprio hrest
    (splitProcess_trimmedTail l)
  have hne : trimmed ≠ [] := by
    rw [htrimmed, hcons]
    simp
  rw [fillProcess_procText l { ev with timestamp := t, sourceHost := l.host } hpid,
    hlevel] at hsyslog
  exact ⟨_, parse_of_syslog (trim_text l) hne hsyslog, rfl, rfl, rfl, rfl, rfl, rfl⟩

/-- A line of the ssh daemon. -/
def sshdLine : SyslogLine where
  time :=
    { month := text "oCT"
      month_name := by decide
      day := 9
      day_range := by decide
      zeroPadded := false
      hour := 22
      hour_lt := by decide
      minute := 14
      minute_lt := by decide
      second := 5
      second_lt := by decide }
  pri := some 38
  pri_le := by decide
  host := text "web-1"
  host_word := isWord_of_all (by decide) (by decide)
  proc := text "sshd"
  proc_word := isWord_of_all (by decide) (by decide)
  proc_plain := by decide
  pid := some 4711
  pid_le := by decide
  msg := text "Failed password: root"
  msg_trimmed := by decide

example : sshdLine.text = text "<38>oCT  9 22:14:05 web-1 sshd[4711]: Failed password: root" := by
  decide

end Dlads.SyslogDecoding
