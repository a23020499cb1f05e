import Dlads.EveExceptions
import Dlads.TimestampYears
import Dlads.WireTimestamps

/-!
# The time of an event

Suricata writes the local civil time of an event with its offset from UTC.
`parse_eve_line` reads the civil time with `strptime`, drops what is left of
the text and takes the time for UTC. The alert therefore has the time of the
event exactly if the offset is zero and the time point can hold it.
-/

namespace Dlads.EveTimestamps

open ByteText Records JsonValue AlertWire WireRoundTrip WireTimestamps EveLines EveExceptions
open LineParsing SyslogLines SyslogDecoding CivilCalendar TimestampYears JsonReading

section strptime

/-- Take up to `n` digits, as long as the next one can be within the bound. -/
def readDigits (hi : ℕ) : ℕ → ℕ → Bytes → ℕ × Bytes
  | n + 1, val, c :: s =>
    if val * 10 ≤ hi ∧ isDigit c = true then readDigits hi n (val * 10 + (c.toNat - 48)) s
    else (val, c :: s)
  | _, val, s => (val, s)

/-- `get_number(from, to, n)`: a number behind white space. -/
def getNumber (lo hi n : ℕ) (s : Bytes) : Option (ℕ × Bytes) :=
  let s := ltrim s
  if (s.head?.map isDigit).getD false then
    let read := readDigits hi n 0 s
    if lo ≤ read.1 ∧ read.1 ≤ hi then some read else none
  else none

/-- `match_char`. -/
def matchChar (c : UInt8) (s : Bytes) : Option Bytes :=
  if s.head? = some c then some (s.drop 1) else none

/-- `strptime` with `%Y-%m-%dT%H:%M:%S`: the time and the rest of the text. -/
def strptime (s : Bytes) : Option (Tm × Bytes) := do
  let (year, s) ← getNumber 0 9999 4 s
  let s ← matchChar 45 s
  let (month, s) ← getNumber 1 12 2 s
  let s ← matchChar 45 s
  let (day, s) ← getNumber 1 31 2 s
  let s ← matchChar 84 s
  let (hour, s) ← getNumber 0 23 2 s
  let s ← matchChar 58 s
  let (minute, s) ← getNumber 0 59 2 s
  let s ← matchChar 58 s
  let (second, s) ← getNumber 0 61 2 s
  return (⟨year - 1900, month - 1, day, hour, minute, second⟩, s)

end strptime

/-- A host with this `strptime` and with `timegm`. -/
def posix (host : EveHost) : EveHost :=
  { host with utcSeconds := fun s => (strptime s).map fun read => utcSeconds read.1 }

/-- The end of a timestamp. -/
inductive Zone
  /-- `Z`. -/
  | utc
  /-- `+hhmm`, or `-hhmm`. -/
  | offset (behind : Bool) (hours : Fin 100) (minutes : Fin 60)

/-- Its text. -/
def Zone.text : Zone → Bytes
  | .utc => [90]
  | .offset behind hours minutes =>
    (if behind then 45 else 43) :: (twoColumns 48 hours ++ twoColumns 48 minutes)

/-- How far its civil time is ahead of UTC, in seconds. -/
def Zone.seconds : Zone → ℤ
  | .utc => 0
  | .offset behind hours minutes =>
    let ahead : ℤ := (hours : ℕ) * 3600 + (minutes : ℕ) * 60
    if behind then -ahead else ahead

/-- A timestamp from 1970 on, by what it says. -/
structure Stamp where
  /-- Year. -/
  year : ℕ
  /-- It is 1970 or later. -/
  year_ge : 1970 ≤ year
  /-- Months since January. -/
  month : ℕ
  /-- Months count to 11. -/
  month_lt : month < 12
  /-- Day of the month. -/
  day : ℕ
  /-- The month has it. -/
  day_range : 1 ≤ day ∧ day ≤ (monthLengths (isLeap year)).getD month 0
  /-- Hour. -/
  hour : ℕ
  /-- Hours count to 23. -/
  hour_lt : hour < 24
  /-- Minute. -/
  minute : ℕ
  /-- Minutes count to 59. -/
  minute_lt : minute < 60
  /-- Second. -/
  second : ℕ
  /-- Seconds count to 59, and to 60 before a leap second is over. -/
  second_le : second ≤ 60
  /-- Digits of the fraction of a second; empty if there is none. -/
  fraction : Bytes
  /-- They are digits. -/
  fraction_digits : ∀ c ∈ fraction, isDigit c = true
  /-- Offset from UTC. -/
  zone : Zone

namespace Stamp

variable (stamp : Stamp)

/-- The fraction and the offset. -/
def tail : Bytes :=
  (if stamp.fraction.isEmpty then [] else 46 :: stamp.fraction) ++ stamp.zone.text

/-- The timestamp as it is written. -/
def text : Bytes :=
  decNat stamp.year ++ 45 :: (twoColumns 48 (stamp.month + 1) ++
    45 :: (twoColumns 48 stamp.day ++ 84 :: (twoColumns 48 stamp.hour ++
    58 :: (twoColumns 48 stamp.minute ++ 58 :: (twoColumns 48 stamp.second ++ stamp.tail)))))

/-- Seconds from the epoch to the civil time, were it UTC. -/
def civilSeconds : ℤ :=
  dayNumber stamp.year stamp.month stamp.day * 86400 + stamp.hour * 3600 + stamp.minute * 60 +
    stamp.second

/-- The second it denotes. -/
def instant : ℤ := stamp.civilSeconds - stamp.zone.seconds

end Stamp

/-- A line is converted to an alert at the second that its timestamp denotes. -/
def Dated (host : EveHost) (now : ℤ) (counter : UInt64) (line : Bytes) (stamp : Stamp) : Prop :=
  ∃ alert next, EveExceptions.parseEveLine (posix host) now counter line = .ok (some alert, next) ∧
    alert.timestamp = seconds stamp.instant

section reading

theorem ltrim_digit {c : UInt8} (hc : isDigit c = true) (s : Bytes) : ltrim (c :: s) = c :: s :=
  List.dropWhile_cons_of_neg (by rw [not_isSpace_of_isDigit hc]; exact Bool.false_ne_true)

/-- Digits in front are read as they are. -/
theorem getNumber_digit {lo hi n : ℕ} {c : UInt8} (hc : isDigit c = true) (s : Bytes) :
    getNumber lo hi n (c :: s) =
      if lo ≤ (readDigits hi n 0 (c :: s)).1 ∧ (readDigits hi n 0 (c :: s)).1 ≤ hi then
        some (readDigits hi n 0 (c :: s))
      else none := by
  have hhead : (((c :: s).head?.map isDigit).getD false) = true := hc
  rw [getNumber, ltrim_digit hc]
  exact if_pos hhead

theorem columns_spec {n : ℕ} (hn : n < 100) : ∃ a b, twoColumns 48 n = [a, b] ∧
    isDigit a = true ∧ isDigit b = true ∧ a.toNat - 48 = n / 10 ∧ b.toNat - 48 = n % 10 := by
  have hall : ∀ n < 100, isDigit (if n < 10 then 48 else digit (n / 10)) = true ∧
      isDigit (digit (n % 10)) = true ∧
      (if n < 10 then 48 else digit (n / 10)).toNat - 48 = n / 10 ∧
      (digit (n % 10)).toNat - 48 = n % 10 := by decide
  exact ⟨_, _, rfl, hall n hn⟩

/-- Two columns are read back. -/
theorem getNumber_columns {lo hi n : ℕ} (hlo : lo ≤ n) (hhi : n ≤ hi) (hn : n < 100) (t : Bytes) :
    getNumber lo hi 2 (twoColumns 48 n ++ t) = some (n, t) := by
  obtain ⟨a, b, htext, ha, hb, htens, hones⟩ := columns_spec hn
  have hread : readDigits hi 2 0 (a :: b :: t) = (n, t) := by
    rw [readDigits, if_pos ⟨by omega, ha⟩, htens, readDigits, if_pos ⟨by omega, hb⟩, hones,
      readDigits]
    · congr 1
      omega
    · intro m c s hm
      omega
  rw [htext]
  change getNumber lo hi 2 (a :: b :: t) = _
  rw [getNumber_digit ha, hread, if_pos ⟨hlo, hhi⟩]

theorem digit_le {c : UInt8} (hc : isDigit c = true) : c.toNat - 48 ≤ 9 := by
  have hle : c ≤ 57 := by
    unfold isDigit at hc
    simp only [Bool.and_eq_true, decide_eq_true_eq] at hc
    exact hc.2
  have := UInt8.le_iff_toNat_le.mp hle
  change c.toNat ≤ 57 at this
  omega

/-- Four digits are a year, whatever follows. -/
theorem getNumber_four {a b c d : UInt8} (ha : isDigit a = true) (hb : isDigit b = true)
    (hc : isDigit c = true) (hd : isDigit d = true) (t : Bytes) :
    getNumber 0 9999 4 (a :: b :: c :: d :: t) = some (digitsValue [a, b, c, d], t) := by
  have ha9 := digit_le ha
  have hb9 := digit_le hb
  have hc9 := digit_le hc
  have hd9 := digit_le hd
  have hread : readDigits 9999 4 0 (a :: b :: c :: d :: t) = (digitsValue [a, b, c, d], t) := by
    rw [readDigits, if_pos ⟨by omega, ha⟩, readDigits, if_pos ⟨by omega, hb⟩, readDigits,
      if_pos ⟨by omega, hc⟩, readDigits, if_pos ⟨by omega, hd⟩, readDigits]
    · rfl
    · intro m c s hm
      omega
  have hle : digitsValue [a, b, c, d] ≤ 9999 := by
    simp only [digitsValue, List.foldl_cons, List.foldl_nil]
    omega
  rw [getNumber_digit ha, hread, if_pos ⟨Nat.zero_le _, hle⟩]

/-- A year from 1000 on has four digits, and more from 10000 on. -/
theorem decNat_year {y : ℕ} (hy : 1000 ≤ y) : ∃ a b c d rest, decNat y = a :: b :: c :: d :: rest ∧
    (rest = [] ↔ y < 10000) := by
  have hthree : decNat y = decNat (y / 10 / 10 / 10) ++ [(Nat.digitChar (y / 10 / 10 % 10)).toUInt8] ++
      [(Nat.digitChar (y / 10 % 10)).toUInt8] ++ [(Nat.digitChar (y % 10)).toUInt8] := by
    rw [decNat_eq y, if_neg (by omega), decNat_eq (y / 10), if_neg (by omega),
      decNat_eq (y / 10 / 10), if_neg (by omega)]
  have hfront : (decNat (y / 10 / 10 / 10)).length = 1 ↔ y < 10000 := by
    rw [decNat_eq]
    split
    · simp only [List.length_singleton, true_iff]
      omega
    · have hpos := List.length_pos_iff.mpr (decNat_ne_nil (y / 10 / 10 / 10 / 10))
      rw [List.length_append, List.length_singleton]
      omega
  have hlen := congrArg List.length hthree
  simp only [List.length_append, List.length_singleton] at hlen
  have hpos := List.length_pos_iff.mpr (decNat_ne_nil (y / 10 / 10 / 10))
  match hdec : decNat y with
  | [] | [_] | [_, _] | [_, _, _] =>
    rw [hdec] at hlen
    simp only [List.length_nil, List.length_cons] at hlen
    omega
  | a :: b :: c :: d :: rest =>
    refine ⟨a, b, c, d, rest, rfl, ?_⟩
    rw [hdec] at hlen
    simp only [List.length_cons] at hlen
    rw [← hfront, ← List.length_eq_zero_iff]
    omega

theorem matchChar_cons (c : UInt8) (s : Bytes) : matchChar c (c :: s) = some s := if_pos rfl

theorem matchChar_digit {c d : UInt8} (hc : isDigit c = false) (hd : isDigit d = true) (s : Bytes) :
    matchChar c (d :: s) = none := by
  have hne : ¬(d :: s).head? = some c := by
    intro h
    rw [Option.some.inj h, hc] at hd
    cases hd
  exact if_neg hne

variable (stamp : Stamp)

/-- The components of a timestamp, as they are read. -/
def Stamp.tm : Tm :=
  ⟨(stamp.year : ℤ) - 1900, stamp.month, stamp.day, stamp.hour, stamp.minute, stamp.second⟩

theorem day_le : stamp.day ≤ 31 := by
  have hall : ∀ leap, ∀ m < 12, (monthLengths leap).getD m 0 ≤ 31 := by decide
  exact stamp.day_range.2.trans (hall _ stamp.month stamp.month_lt)

/-- The tail of a timestamp is left over, and a year of five digits is not
read. -/
theorem strptime_text : strptime stamp.text =
    if stamp.year < 10000 then some (stamp.tm, stamp.tail) else none := by
  obtain ⟨a, b, c, d, rest, hyear, hrest⟩ := decNat_year (y := stamp.year)
    (by have := stamp.year_ge; omega)
  have hdigits : ∀ x ∈ a :: b :: c :: d :: rest, isDigit x = true := fun x hx =>
    isDigit_of_mem_decNat (hyear ▸ hx)
  simp only [List.forall_mem_cons] at hdigits
  obtain ⟨ha, hb, hc, hd, hmore⟩ := hdigits
  have hday := stamp.day_range.1
  have hday31 := day_le stamp
  have hmonth := stamp.month_lt
  have hhour := stamp.hour_lt
  have hminute := stamp.minute_lt
  have hsecond := stamp.second_le
  rw [strptime, Stamp.text, hyear]
  simp only [List.cons_append, getNumber_four ha hb hc hd, Option.bind_eq_bind, Option.bind_some]
  cases rest with
  | nil =>
    have hvalue : digitsValue [a, b, c, d] = stamp.year := by rw [← hyear, digitsValue_decNat]
    rw [if_pos (hrest.mp rfl), hvalue]
    simp only [List.nil_append, matchChar_cons, Option.bind_some]
    rw [getNumber_columns (by omega) (by omega) (by omega)]
    simp only [matchChar_cons, Option.bind_some]
    rw [getNumber_columns (by omega) (by omega) (by omega)]
    simp only [matchChar_cons, Option.bind_some]
    rw [getNumber_columns (by omega) (by omega) (by omega)]
    simp only [matchChar_cons, Option.bind_some]
    rw [getNumber_columns (by omega) (by omega) (by omega)]
    simp only [matchChar_cons, Option.bind_some]
    rw [getNumber_columns (by omega) (by omega) (by omega)]
    simp only [Option.bind_some, Stamp.tm]
    simp
  | cons e rest =>
    have hfive : ¬stamp.year < 10000 := fun h => List.cons_ne_nil e rest (hrest.mpr h)
    rw [if_neg hfive, List.cons_append,
      matchChar_digit (by decide) (hmore e List.mem_cons_self)]
    rfl

/-- Taken for UTC, the components are the civil seconds. -/
theorem utcSeconds_tm : utcSeconds stamp.tm = stamp.civilSeconds := by
  have hmonth := stamp.month_lt
  have hquot : (stamp.month : ℤ) / 12 = 0 ∧ ((stamp.month : ℤ) % 12).toNat = stamp.month := by
    omega
  simp only [utcSeconds, Stamp.tm, Stamp.civilSeconds, hquot.1, hquot.2, sub_add_cancel, add_zero]

end reading

section instants

variable (stamp : Stamp)

theorem noNul_columns {n : ℕ} (hn : n < 100) : 0 ∉ twoColumns 48 n := by
  have hall : ∀ n < 100, 0 ∉ twoColumns 48 n := by decide
  exact hall n hn

theorem noNul_zone (zone : Zone) : 0 ∉ zone.text := by
  cases zone with
  | utc => decide
  | offset behind hours minutes =>
    have hsign : (0 : UInt8) ≠ if behind then 45 else 43 := by cases behind <;> decide
    rw [Zone.text, List.mem_cons, List.mem_append, not_or, not_or]
    exact ⟨hsign, noNul_columns hours.isLt, noNul_columns (by omega)⟩

/-- A timestamp holds no NUL. -/
theorem noNul_text : 0 ∉ stamp.text := by
  have hmonth := noNul_columns (n := stamp.month + 1) (by have := stamp.month_lt; omega)
  have hday := noNul_columns (n := stamp.day) (by have := day_le stamp; omega)
  have hhour := noNul_columns (n := stamp.hour) (by have := stamp.hour_lt; omega)
  have hminute := noNul_columns (n := stamp.minute) (by have := stamp.minute_lt; omega)
  have hsecond := noNul_columns (n := stamp.second) (by have := stamp.second_le; omega)
  have hfraction : 0 ∉ stamp.fraction := fun h =>
    absurd (stamp.fraction_digits 0 h) (by decide)
  simp [Stamp.text, Stamp.tail, noNul_decNat, hmonth, hday, hhour, hminute, hsecond, hfraction,
    noNul_zone]

theorem zone_bounds (zone : Zone) : -360000 < zone.seconds ∧ zone.seconds < 360000 := by
  cases zone with
  | utc => decide
  | offset behind hours minutes =>
    have hhours := hours.isLt
    have hminutes := minutes.isLt
    cases behind <;> simp only [Zone.seconds, if_true, if_false, Bool.false_eq_true] <;> omega

/-- The epoch is the first civil time; a year of five digits is far beyond
what a time point holds. -/
theorem civilSeconds_bounds : 0 ≤ stamp.civilSeconds ∧
    (10000 ≤ stamp.year → 9300000000 ≤ stamp.civilSeconds) := by
  have hyear := stamp.year_ge
  have hday := stamp.day_range.1
  unfold Stamp.civilSeconds dayNumber yearStart
  omega

/-- The timestamp of the alert. -/
theorem timestamp_of_line {host : EveHost} {line : Bytes} {j : Json} {stamp : Stamp} (now : ℤ)
    (counter : UInt64) (hparse : host.parse line = some j) (hline : IsAlertLine host line)
    (hstamp : getStr j (text "timestamp") = some stamp.text) :
    ∃ alert next, EveExceptions.parseEveLine (posix host) now counter line =
        .ok (some alert, next) ∧
      alert.timestamp =
        if stamp.year < 10000 then timePoint stamp.civilSeconds else now := by
  obtain ⟨htype, signature, halert, hobject⟩ := (isAlertLine_iff hparse).mp hline
  have hconverted : EveLines.parseEveLine (posix host) now counter line =
      (.converted (EveLines.eveAlert (posix host) now j signature (nextId counter).1),
        (nextId counter).2) := by
    have hparse' : (posix host).parse line = some j := hparse
    simp only [EveLines.parseEveLine, hparse', htype, Json.str?, halert, hobject, ne_eq,
      not_true_eq_false, if_false, Bool.not_true, Bool.false_eq_true]
  refine ⟨EveLines.eveAlert (posix host) now j signature (nextId counter).1,
    (nextId counter).2, ?_, ?_⟩
  · rw [parseEveLine_eq, hconverted]
  · change EveLines.eveTimestamp (posix host) now j = _
    have hread : (posix host).utcSeconds (cStr stamp.text) =
        if stamp.year < 10000 then some stamp.civilSeconds else none := by
      rw [cStr_of_noNul (noNul_text stamp)]
      change (strptime stamp.text).map _ = _
      rw [strptime_text]
      split
      · rw [Option.map_some, utcSeconds_tm]
      · rfl
    rw [EveLines.eveTimestamp, hstamp]
    dsimp only
    rw [hread]
    by_cases hyear : stamp.year < 10000
    · rw [if_pos hyear, if_pos hyear]
    · rw [if_neg hyear, if_neg hyear]

/-- A shift of less than a hundred hours is no multiple of 64 bits. -/
theorem eq_zero_of_dvd {ahead : ℤ} (hahead : -360000 < ahead ∧ ahead < 360000) :
    18446744073709551616 ∣ ahead * 1000000000 → ahead = 0 := by
  have hsmall : |ahead * 1000000000| < 18446744073709551616 :=
    abs_lt.mpr ⟨by omega, by omega⟩
  intro hdvd
  have hzero := Int.eq_zero_of_abs_lt_dvd hdvd hsmall
  exact (Int.mul_eq_zero.mp hzero).resolve_right (by decide)

/-- A time point of a second is that of a second nearby exactly if they are
the same and it is representable. -/
theorem timePoint_eq_iff {civil ahead : ℤ} (hcivil : 0 ≤ civil)
    (hahead : -360000 < ahead ∧ ahead < 360000) :
    timePoint civil = seconds (civil - ahead) ↔ ahead = 0 ∧ civil ≤ 9223372036 := by
  constructor
  · intro h
    have hdvd : 18446744073709551616 ∣ civil * 1000000000 - timePoint civil :=
      Int.dvd_self_sub_bmod (x := civil * 1000000000) (m := 18446744073709551616)
    have hlt : timePoint civil < 9223372036854775808 :=
      Int.bmod_lt (x := civil * 1000000000) (m := 18446744073709551616) (by decide)
    rw [h, seconds, ← Int.sub_mul, Int.sub_sub_self] at hdvd
    obtain rfl := eq_zero_of_dvd hahead hdvd
    rw [h, seconds, Int.sub_zero] at hlt
    exact ⟨rfl, by omega⟩
  · rintro ⟨rfl, hle⟩
    rw [Int.sub_zero, timePoint, wrapInt64_of ⟨by omega, by omega⟩, seconds]

end instants

/-- An alert has the time of its event exactly if the offset from UTC is zero
and a time point holds the time. -/
theorem dated_iff {host : EveHost} {now : ℤ} {line : Bytes} {j : Json} {stamp : Stamp}
    (counter : UInt64) (hnow : IsInt64 now) (hparse : host.parse line = some j)
    (hline : IsAlertLine host line) (hstamp : getStr j (text "timestamp") = some stamp.text) :
    Dated host now counter line stamp ↔
      stamp.zone.seconds = 0 ∧ stamp.civilSeconds ≤ 9223372036 := by
  obtain ⟨alert, next, hresult, htime⟩ := timestamp_of_line now counter hparse hline hstamp
  obtain ⟨hcivil, hfar⟩ := civilSeconds_bounds stamp
  have hzone := zone_bounds stamp.zone
  have hdated : Dated host now counter line stamp ↔ alert.timestamp = seconds stamp.instant := by
    constructor
    · rintro ⟨alert', next', hresult', htime'⟩
      rw [hresult] at hresult'
      cases hresult'
      exact htime'
    · intro h
      exact ⟨alert, next, hresult, h⟩
  rw [hdated, htime, Stamp.instant]
  split
  · exact timePoint_eq_iff hcivil hzone
  · next hyear =>
    have hlate := hfar (not_lt.mp hyear)
    unfold IsInt64 at hnow
    unfold seconds
    omega

/-- Half past noon on a day in January, with some offset. -/
def noonStamp (zone : Zone) : Stamp where
  year := 2024
  year_ge := by omega
  month := 0
  month_lt := by omega
  day := 15
  day_range := by decide
  hour := 12
  hour_lt := by omega
  minute := 34
  minute_lt := by omega
  second := 56
  second_le := by omega
  fraction := text "789"
  fraction_digits := by decide +kernel
  zone := zone

/-- An alert at that time. -/
def noonLine (zone : Zone) : Bytes :=
  text "\x7b\"timestamp\":\"" ++ (noonStamp zone).text ++
    text "\",\"event_type\":\"alert\",\"alert\":\x7b\"severity\":2\x7d\x7d"

/-- What the line says. -/
def noonEvent (zone : Zone) : Json :=
  .obj [(text "alert", .obj [(text "severity", .int 2)]), (text "event_type", .str (text "alert")),
    (text "timestamp", .str (noonStamp zone).text)]

/-- A host that reads JSON. -/
def jsonHost : EveHost := ⟨readJson, fun _ => none, text "ids"⟩

theorem noonLine_utc :
    Dated jsonHost 0 firstId (noonLine (.offset false 0 0)) (noonStamp (.offset false 0 0)) :=
  (dated_iff (j := noonEvent (.offset false 0 0)) firstId ⟨by omega, by omega⟩ rfl
    ⟨_, _, rfl, rfl, rfl⟩ rfl).mpr (by decide)

/-- With an offset of two hours the alert is two hours late. -/
theorem noonLine_late :
    (noonStamp (.offset false 2 0)).instant = 1705314896 ∧
    (∃ alert next, EveExceptions.parseEveLine (posix jsonHost) 0 firstId
        (noonLine (.offset false 2 0)) = .ok (some alert, next) ∧
      alert.timestamp = seconds 1705322096) ∧
    ¬Dated jsonHost 0 firstId (noonLine (.offset false 2 0)) (noonStamp (.offset false 2 0)) := by
  have hinstant : (noonStamp (.offset false 2 0)).instant = 1705314896 := by decide
  have hparse : jsonHost.parse (noonLine (.offset false 2 0)) =
      some (noonEvent (.offset false 2 0)) := rfl
  have hstamp : getStr (noonEvent (.offset false 2 0)) (text "timestamp") =
      some (noonStamp (.offset false 2 0)).text := rfl
  obtain ⟨alert, next, hresult, htime⟩ :=
    timestamp_of_line 0 firstId hparse ⟨_, _, rfl, rfl, rfl⟩ hstamp
  have hlate : alert.timestamp = seconds 1705322096 := htime.trans (by decide)
  refine ⟨hinstant, ⟨alert, next, hresult, hlate⟩, ?_⟩
  rintro ⟨alert', next', hresult', htime'⟩
  rw [hresult] at hresult'
  cases hresult'
  rw [hlate, hinstant] at htime'
  exact absurd htime' (by decide)

end Dlads.EveTimestamps
