import Dlads.CivilCalendar
import Dlads.SyslogDecoding

/-!
# The year of a syslog timestamp

A syslog timestamp shows a local date without its year. The parser puts the
year of the UTC calendar in its place, reads the date as a local one, and goes
back a year if that is more than a day ahead. The time is restored when local
and UTC calendar agree on the year, or when the local year has not begun to
count and the fallback applies. In the first hours of a local year that has
not begun in UTC it is a year off. Whatever the line, its time is one that the
clock or the calendar of the host gave.
-/

namespace Dlads.TimestampYears

open ByteText Records LineParsing SyslogLines SyslogDecoding CivilCalendar

/-- The seconds that broken-down components denote in UTC, those beyond their
range carried over. -/
def utcSeconds (tm : Tm) : ℤ :=
  dayNumber (tm.year + 1900 + tm.mon / 12) (tm.mon % 12).toNat tm.mday * 86400 + tm.hour * 3600 +
    tm.min * 60 + tm.sec

/-- Clock and calendar of a host with a fixed offset from UTC in seconds. -/
def hostClock (offset now : ℤ) : Clock where
  time := now / 1000000000
  now := now
  gmtimeYear s := yearOf (s / 86400) - 1900
  mktime tm := utcSeconds tm - offset

/-- The abbreviations that `%b` writes. -/
def monthNames : List Bytes :=
  [text "Jan", text "Feb", text "Mar", text "Apr", text "May", text "Jun", text "Jul", text "Aug",
    text "Sep", text "Oct", text "Nov", text "Dec"]

/-- The abbreviations are read back, whatever the case. -/
theorem monthNames_spec {m : ℕ} (hm : m < 12) :
    (monthNames.getD m []).map toLower ∈ months ∧ monthFromAbbr (monthNames.getD m []) = m := by
  have hall : ∀ m < 12, (monthNames.getD m []).map toLower ∈ months ∧
      monthFromAbbr (monthNames.getD m []) = m := by decide
  exact hall m hm

/-- What `%b %e %H:%M:%S` shows of a second of the calendar. -/
def shownTime (s : ℤ) : SyslogTime where
  month := monthNames.getD (dateOf (s / 86400)).month []
  month_name := (monthNames_spec (dateOf (s / 86400)).month_lt).1
  day := (dateOf (s / 86400)).day
  day_range := (dateOf (s / 86400)).day_range
  zeroPadded := false
  hour := (s % 86400 / 3600).toNat
  hour_lt := by omega
  minute := (s % 3600 / 60).toNat
  minute_lt := by omega
  second := (s % 60).toNat
  second_lt := by omega

/-- `syslog_ts` at a time `t`. -/
def syslogTs (offset t : ℤ) : Bytes := (shownTime (wholeSeconds t + offset)).text

/-- The parser restores the time `t`, in whole seconds, at the time `now`. -/
def Restored (offset now t : ℤ) : Prop :=
  ∀ ev, parseSyslogTimestamp (hostClock offset now) (syslogTs offset t) ev =
    (true, { ev with timestamp := seconds (wholeSeconds t) })

/-- The year that the local calendar shows. -/
def localYear (offset t : ℤ) : ℤ := yearOf ((wholeSeconds t + offset) / 86400)

/-- The year of the UTC calendar. -/
def utcYear (now : ℤ) : ℤ := yearOf (now / 1000000000 / 86400)

/-- The second at which the local calendar of a year shows the date and the
time of day that it shows at `t`. -/
def sameTimeIn (offset t year : ℤ) : ℤ :=
  dayNumber year (dateOf ((wholeSeconds t + offset) / 86400)).month
      (dateOf ((wholeSeconds t + offset) / 86400)).day * 86400 +
    (wholeSeconds t + offset) % 86400 - offset

/-- The time point of a second; the second before the epoch looks like a failure. -/
def pointOfSecond (s : ℤ) : ℤ := if s = -1 then 0 else seconds s

section parsing

/-- A timestamp put in the current year, or in the last one if that is more
than a day ahead. -/
def stampTime (clock : Clock) (mon mday hour min sec : ℤ) : ℤ :=
  if clock.now + hours 24 < makeTimepoint clock (currentYear clock) mon mday hour min sec then
    makeTimepoint clock (currentYear clock - 1) mon mday hour min sec
  else makeTimepoint clock (currentYear clock) mon mday hour min sec

/-- The columns of a written timestamp. -/
theorem columns_text (time : SyslogTime) : time.text.length = 15 ∧
    time.text.take 3 = time.month ∧
    (time.text.drop 4).take 2 = twoColumns (if time.zeroPadded then 48 else 32) time.day ∧
    (time.text.drop 7).take 2 = twoColumns 48 time.hour ∧
    (time.text.drop 10).take 2 = twoColumns 48 time.minute ∧
    (time.text.drop 13).take 2 = twoColumns 48 time.second := by
  obtain ⟨a, b, c, hmonth, -⟩ := month_cases (monthFromAbbr_of_mem time.month_name)
  rw [SyslogTime.text, hmonth]
  exact ⟨rfl, rfl, rfl, rfl, rfl, rfl⟩

/-- A written timestamp is read. -/
theorem parseSyslogTimestamp_text (clock : Clock) (time : SyslogTime) (ev : LogEvent) :
    parseSyslogTimestamp clock time.text ev = (true, { ev with
      timestamp := stampTime clock (monthFromAbbr time.month) time.day time.hour time.minute
        time.second }) := by
  obtain ⟨hlen, hmonth, hday, hhour, hminute, hsecond⟩ := columns_text time
  have hdayNumber :
      parseInt (twoColumns (if time.zeroPadded then 48 else 32) time.day) = time.day := by
    obtain ⟨-, hhigh⟩ := time.day_range
    cases time.zeroPadded with
    | true => exact parseInt_twoColumns (by omega)
    | false => exact parseInt_blank (by omega)
  have hhourNumber : parseInt (twoColumns 48 time.hour) = time.hour := by
    have hlt := time.hour_lt
    exact parseInt_twoColumns (by omega)
  have hmon := monthFromAbbr_of_mem time.month_name
  have hpos := time.day_range.1
  have hpass : ¬(time.text.length < 15 ∨ monthFromAbbr time.month < 0 ∨ (time.day : ℤ) ≤ 0 ∨
      (time.hour : ℤ) < 0 ∨ (time.minute : ℤ) < 0 ∨ (time.second : ℤ) < 0) := by
    omega
  unfold parseSyslogTimestamp
  simp only [hmonth, hday, hhour, hminute, hsecond, hdayNumber, hhourNumber,
    parseInt_twoColumns time.minute_lt, parseInt_twoColumns time.second_lt]
  rw [if_neg hpass]
  rfl

end parsing

section calendar

/-- A broken-down time of a host is the time point of its second. -/
theorem makeTimepoint_host (offset now year : ℤ) {month : ℕ} (hm : month < 12)
    (mday hour min sec : ℤ) : makeTimepoint (hostClock offset now) year month mday hour min sec =
      pointOfSecond (dayNumber year month mday * 86400 + (hour * 3600 + min * 60 + sec) - offset) := by
  have hmonth : (month : ℤ) / 12 = 0 ∧ ((month : ℤ) % 12).toNat = month := by omega
  have hmktime : (hostClock offset now).mktime ⟨year - 1900, month, mday, hour, min, sec⟩ =
      dayNumber year month mday * 86400 + (hour * 3600 + min * 60 + sec) - offset := by
    change utcSeconds ⟨year - 1900, month, mday, hour, min, sec⟩ - offset = _
    unfold utcSeconds
    dsimp only
    rw [hmonth.1, hmonth.2, sub_add_cancel, add_zero]
    ring
  rw [makeTimepoint, hmktime]
  rfl

/-- The shown time of day is the second of the day. -/
theorem shownTime_clock (s : ℤ) : ((shownTime s).hour : ℤ) * 3600 + (shownTime s).minute * 60 +
    (shownTime s).second = s % 86400 := by
  unfold shownTime
  dsimp only
  omega

/-- What the parser makes of a shown time: it is put in the UTC year, or in
the year before if that is more than a day ahead. -/
theorem parse_syslogTs (offset now t : ℤ) (ev : LogEvent) :
    parseSyslogTimestamp (hostClock offset now) (syslogTs offset t) ev = (true, { ev with
      timestamp :=
        if now + hours 24 < pointOfSecond (sameTimeIn offset t (utcYear now)) then
          pointOfSecond (sameTimeIn offset t (utcYear now - 1))
        else pointOfSecond (sameTimeIn offset t (utcYear now)) }) := by
  have hyear : currentYear (hostClock offset now) = utcYear now := by
    rw [currentYear, hostClock]
    exact sub_add_cancel _ _
  have hmonth : monthFromAbbr (shownTime (wholeSeconds t + offset)).month =
      (dateOf ((wholeSeconds t + offset) / 86400)).month :=
    (monthNames_spec (dateOf ((wholeSeconds t + offset) / 86400)).month_lt).2
  have hpoint : ∀ year, makeTimepoint (hostClock offset now) year
      (monthFromAbbr (shownTime (wholeSeconds t + offset)).month)
      (shownTime (wholeSeconds t + offset)).day (shownTime (wholeSeconds t + offset)).hour
      (shownTime (wholeSeconds t + offset)).minute (shownTime (wholeSeconds t + offset)).second =
      pointOfSecond (sameTimeIn offset t year) := by
    intro year
    rw [hmonth, makeTimepoint_host offset now year
      (dateOf ((wholeSeconds t + offset) / 86400)).month_lt, shownTime_clock]
    rfl
  rw [syslogTs, parseSyslogTimestamp_text, stampTime, hyear, hpoint, hpoint]
  rfl

/-- In its own year the shown time is the time itself. -/
theorem sameTimeIn_localYear (offset t : ℤ) :
    sameTimeIn offset t (localYear offset t) = wholeSeconds t := by
  have hdate := dayNumber_dateOf ((wholeSeconds t + offset) / 86400)
  unfold sameTimeIn localYear
  rw [show yearOf ((wholeSeconds t + offset) / 86400) =
    (dateOf ((wholeSeconds t + offset) / 86400)).year from rfl, hdate]
  omega

/-- A year later the shown time is 365 or 366 days later. -/
theorem sameTimeIn_succ (offset t year : ℤ) :
    sameTimeIn offset t year + 365 * 86400 ≤ sameTimeIn offset t (year + 1) ∧
      sameTimeIn offset t (year + 1) ≤ sameTimeIn offset t year + 366 * 86400 := by
  have hnext := dayNumber_succ year (dateOf ((wholeSeconds t + offset) / 86400)).month_lt
    (dateOf ((wholeSeconds t + offset) / 86400)).day
  unfold sameTimeIn
  omega

/-- Whole seconds are taken toward zero. -/
theorem wholeSeconds_bounds (t : ℤ) :
    (0 ≤ t → seconds (wholeSeconds t) ≤ t ∧ t < seconds (wholeSeconds t + 1)) ∧
      (t < 0 → t ≤ seconds (wholeSeconds t) ∧ seconds (wholeSeconds t - 1) < t) := by
  unfold seconds wholeSeconds
  constructor
  · intro ht
    rw [Int.tdiv_eq_ediv_of_nonneg ht]
    omega
  · intro ht
    have hneg : t.tdiv 1000000000 = -(-t).tdiv 1000000000 := by rw [Int.neg_tdiv, neg_neg]
    rw [hneg, Int.tdiv_eq_ediv_of_nonneg (by omega)]
    omega

end calendar

section years

variable {offset now t : ℤ}

/-- Local and UTC year differ by at most one. -/
theorem localYear_bounds (hlow : -43200 ≤ offset) (hhigh : offset ≤ 50400) (hpast : t ≤ now)
    (hrecent : now - t < hours (24 * 364)) :
    localYear offset t ≤ utcYear now + 1 ∧ utcYear now ≤ localYear offset t + 1 := by
  obtain ⟨hfrom, hto⟩ := mem_yearOf ((wholeSeconds t + offset) / 86400)
  obtain ⟨hfrom', hto'⟩ := mem_yearOf (now / 1000000000 / 86400)
  obtain ⟨hpos, hneg⟩ := wholeSeconds_bounds t
  unfold seconds at hpos hneg
  unfold hours at hrecent
  have hseconds : wholeSeconds t ≤ now / 1000000000 + 1 ∧
      now / 1000000000 ≤ wholeSeconds t + 364 * 86400 + 1 := by
    rcases lt_or_ge t 0 with ht | ht
    · have hbounds := hneg ht
      omega
    · have hbounds := hpos ht
      omega
  have hapart : ∀ y z : ℤ, y + 2 ≤ z → yearStart (y + 1) + 365 ≤ yearStart z := by
    intro y z hz
    have hyears := yearStart_add_le (y + 1) (z - (y + 1)).toNat
    rw [show y + 1 + ((z - (y + 1)).toNat : ℤ) = z by omega] at hyears
    omega
  unfold localYear utcYear
  constructor
  · by_contra hfar
    have hyears := hapart (yearOf (now / 1000000000 / 86400))
      (yearOf ((wholeSeconds t + offset) / 86400)) (by omega)
    omega
  · by_contra hfar
    have hyears := hapart (yearOf ((wholeSeconds t + offset) / 86400))
      (yearOf (now / 1000000000 / 86400)) (by omega)
    omega

/-- A second's time point is the right one unless it looks like a failure. -/
theorem pointOfSecond_eq_iff (s s' : ℤ) :
    pointOfSecond s = seconds s' ↔ s = s' ∧ s' ≠ -1 ∨ s = -1 ∧ s' = 0 := by
  unfold pointOfSecond seconds
  split
  · omega
  · omega

/-- The time point of a second in the past is not more than a day ahead. -/
theorem not_ahead (hpast : t ≤ now) {s : ℤ} (hs : s ≤ wholeSeconds t) :
    ¬now + hours 24 < pointOfSecond s := by
  obtain ⟨hpos, hneg⟩ := wholeSeconds_bounds t
  unfold seconds at hpos hneg
  unfold pointOfSecond hours seconds
  rcases lt_or_ge t 0 with ht | ht
  · have hbounds := hneg ht
    split
    · omega
    · omega
  · have hbounds := hpos ht
    split
    · omega
    · omega

/-- A second that lies a year after the time is more than a day ahead in
seconds exactly if its time point is. -/
theorem ahead_iff (hrecent : now - t < hours (24 * 364)) {s : ℤ}
    (hs : wholeSeconds t + 365 * 86400 ≤ s) :
    now + hours 24 < pointOfSecond s ↔ now + hours 24 < seconds s := by
  obtain ⟨hpos, hneg⟩ := wholeSeconds_bounds t
  unfold pointOfSecond
  split
  · next hfailure =>
    -- the second before the epoch, which every recent time is well ahead of
    have ht : t < 0 := by
      by_contra ht
      have hbounds := hpos (not_lt.mp ht)
      unfold seconds at hbounds
      omega
    have hbounds := hneg ht
    unfold seconds hours at *
    omega
  · exact Iff.rfl

/-- The time is restored exactly if the shown date is put in the right year. -/
theorem restored_iff_value : Restored offset now t ↔
    (if now + hours 24 < pointOfSecond (sameTimeIn offset t (utcYear now)) then
      pointOfSecond (sameTimeIn offset t (utcYear now - 1))
    else pointOfSecond (sameTimeIn offset t (utcYear now))) = seconds (wholeSeconds t) := by
  unfold Restored
  simp only [parse_syslogTs, Prod.mk.injEq, true_and]
  constructor
  · intro h
    exact congrArg LogEvent.timestamp (h {})
  · intro h ev
    rw [h]

/-- The time is restored exactly if it is not the second before the epoch and
its local year is the UTC year of now, or the year before while the same date
of this year is more than a day ahead. -/
theorem restored_iff (hlow : -43200 ≤ offset) (hhigh : offset ≤ 50400) (hpast : t ≤ now)
    (hrecent : now - t < hours (24 * 364)) : Restored offset now t ↔
      wholeSeconds t ≠ -1 ∧ (localYear offset t = utcYear now ∨
        localYear offset t + 1 = utcYear now ∧
          now + hours 24 < seconds (sameTimeIn offset t (utcYear now))) := by
  obtain ⟨hle, hge⟩ := localYear_bounds hlow hhigh hpast hrecent
  have hown := sameTimeIn_localYear offset t
  rw [restored_iff_value]
  have hyears : localYear offset t = utcYear now ∨ localYear offset t = utcYear now + 1 ∨
      localYear offset t + 1 = utcYear now := by omega
  rcases hyears with hsame | hahead | hbehind
  · -- the calendars agree on the year
    rw [← hsame, hown, if_neg (not_ahead hpast le_rfl), pointOfSecond_eq_iff]
    omega
  · -- the local year has not begun in UTC
    have hnext := sameTimeIn_succ offset t (utcYear now)
    rw [← hahead, hown] at hnext
    rw [if_neg (not_ahead hpast (by omega)), pointOfSecond_eq_iff]
    omega
  · -- the shown date is that of the UTC year before
    have hnext := sameTimeIn_succ offset t (localYear offset t)
    rw [hown, hbehind] at hnext
    have hahead := ahead_iff hrecent hnext.1
    rw [show utcYear now - 1 = localYear offset t by omega, hown]
    split
    · next h =>
      rw [hahead] at h
      rw [pointOfSecond_eq_iff]
      omega
    · next h =>
      rw [hahead] at h
      rw [pointOfSecond_eq_iff]
      omega

end years

/-- In January 2024 a time of the last day of 2023 is restored. -/
theorem lastYear_restored : Restored 0 (seconds 1704153600) (seconds 1703980800) :=
  (restored_iff (by decide) (by decide) (by decide) (by decide)).mpr
    ⟨by decide, .inr (by decide +kernel)⟩

/-- At noon of the last day of 2023 in UTC, a host 14 hours ahead has a new
year's time put a year too early. -/
theorem newYear_not_restored : (-43200 : ℤ) ≤ 50400 ∧ (50400 : ℤ) ≤ 50400 ∧
    seconds 1704024000 - seconds 1704024000 < hours (24 * 364) ∧
    ¬Restored 50400 (seconds 1704024000) (seconds 1704024000) := by
  refine ⟨by decide, by decide, by decide, fun h => ?_⟩
  rw [restored_iff_value] at h
  exact absurd h (by decide +kernel)

section sources

variable {clock : Clock} {ev : LogEvent}

/-- A time that the host can give an event: the epoch, a reading of the clock,
or what `mktime` made of some components. -/
def ReadTime (clock : Clock) (t : ℤ) : Prop :=
  t = 0 ∨ t = clock.now ∨ ∃ tm, t = seconds (clock.mktime tm)

theorem readTime_makeTimepoint (clock : Clock) (year mon0 mday hour min sec : ℤ) :
    ReadTime clock (makeTimepoint clock year mon0 mday hour min sec) := by
  unfold makeTimepoint
  dsimp only
  split
  · exact .inl rfl
  · exact .inr (.inr ⟨_, rfl⟩)

theorem readTime_parseSyslogTimestamp (ts : Bytes) (h : ReadTime clock ev.timestamp) :
    ReadTime clock (parseSyslogTimestamp clock ts ev).2.timestamp := by
  unfold parseSyslogTimestamp
  dsimp only
  split
  · exact h
  · split <;> exact readTime_makeTimepoint clock _ _ _ _ _ _

theorem readTime_parseIsoTimestamp (ts : Bytes) (h : ReadTime clock ev.timestamp) :
    ReadTime clock (parseIsoTimestamp clock ts ev).2.timestamp := by
  unfold parseIsoTimestamp
  dsimp only
  split_ifs
  · exact h
  · exact h
  · exact h
  · exact readTime_makeTimepoint clock _ _ _ _ _ _

theorem timestamp_parsePriority (line : Bytes) (ev : LogEvent) :
    (parsePriority line ev).2.timestamp = ev.timestamp := by
  unfold parsePriority
  dsimp only
  split
  · split
    · rfl
    · dsimp only
      split <;> rfl
  · rfl

theorem timestamp_fillProcess (procField : Bytes) (ev : LogEvent) :
    (fillProcess procField ev).timestamp = ev.timestamp := by
  unfold fillProcess
  dsimp only
  split
  · rfl
  · split
    · rfl
    · split <;> rfl

theorem timestamp_parseBracketLevel (rest : Bytes) (ev : LogEvent) :
    (parseBracketLevel rest ev).2.timestamp = ev.timestamp := by
  unfold parseBracketLevel
  split <;> rfl

theorem readTime_parseSyslog (line : Bytes) (h : ReadTime clock ev.timestamp) :
    ReadTime clock (parseSyslog clock line ev).2.timestamp := by
  rw [← timestamp_parsePriority line ev] at h
  unfold parseSyslog
  split
  · next heq => rwa [heq] at h
  · next rest ev' heq =>
    rw [heq] at h
    dsimp only
    split
    · exact h
    · have hstamp := readTime_parseSyslogTimestamp ((ltrim rest).take 15) h
      split
      · next heq => rwa [heq] at hstamp
      · next ev'' heq =>
        rw [heq] at hstamp
        split
        · exact hstamp
        · split
          · exact hstamp
          · dsimp only [extractKv]
            split <;>
            · dsimp only
              rw [timestamp_fillProcess]
              exact hstamp

theorem readTime_parseNginx (line : Bytes) (h : ReadTime clock ev.timestamp) :
    ReadTime clock (parseNginx clock line ev).2.timestamp := by
  have hstamp := readTime_parseIsoTimestamp (line.take 19) h
  unfold parseNginx
  split
  · exact h
  · split
    · next heq => rwa [heq] at hstamp
    · next heq =>
      rw [heq] at hstamp
      dsimp only [extractKv]
      split
      · rw [timestamp_parseBracketLevel]
        exact hstamp
      · exact hstamp

theorem readTime_parseKvPairs (line : Bytes) (h : ReadTime clock ev.timestamp) :
    ReadTime clock (parseKvPairs clock line ev).2.timestamp := by
  unfold parseKvPairs
  split
  · exact h
  · extract_lets stamped ev₁ dated rest levelled filled named
    have hstamped : ReadTime clock stamped.2.timestamp := by
      have hstamp := readTime_parseIsoTimestamp (line.take 19) h
      unfold stamped
      split
      · split
        · next heq => rwa [heq] at hstamp
        · next heq => rwa [heq] at hstamp
      · exact h
    have hdated : ReadTime clock dated.timestamp := by
      unfold dated
      split
      · exact .inr (.inl rfl)
      · exact hstamped
    have hlevelled : ReadTime clock levelled.2.timestamp := by
      unfold levelled
      split
      · rw [timestamp_parseBracketLevel]
        exact hdated
      · exact hdated
    change ReadTime clock named.timestamp
    unfold named
    split <;> exact hlevelled

/-- The time of a parsed line is one of these. -/
theorem readTime_parse {line : Bytes} (h : parse clock line = some ev) :
    ReadTime clock ev.timestamp :=
  parse_keeps (P := fun ev => ReadTime clock ev.timestamp) (.inl rfl)
    (fun _ => readTime_parseSyslog _) (fun _ => readTime_parseNginx _)
    (fun _ => readTime_parseKvPairs _) h

end sources

end Dlads.TimestampYears
