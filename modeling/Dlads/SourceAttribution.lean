import Dlads.IndexedHistory
import Dlads.SyslogLines

/-!
# Attribution of failed logins

The source address of a failed login is looked for in the fields that the
parser extracts from the message, then behind `SRC=`, then behind the first
`from `. The user name stands in front of the address that the daemon wrote,
so each of these searches comes across the user name first. The attribution
is right exactly if they find nothing in it, or the address itself.
-/

namespace Dlads.SourceAttribution

open ByteText StringMaps Records TextSearch LineParsing KeyValueScan SyslogLines IndexedHistory

/-- A byte of an address: a hexadecimal digit, a dot or a colon. -/
def isIpChar (c : UInt8) : Bool :=
  isDigit c || (65 ≤ c && c ≤ 70) || (97 ≤ c && c ≤ 102) || c == 46 || c == 58

/-- A line of `sshd` about a failed login, but for the user name. -/
structure LoginLine where
  /-- The timestamp. -/
  stamp : Stamp
  /-- The host. -/
  host : Bytes
  /-- The process id. -/
  pid : Bytes
  /-- Address of the client. -/
  ip : Bytes
  /-- Port of the client. -/
  port : Bytes
  /-- The host is a word. -/
  host_word : IsWord host
  /-- The process id consists of digits. -/
  pid_digits : ∀ c ∈ pid, isDigit c = true
  /-- The address consists of address bytes. -/
  ip_chars : ∀ c ∈ ip, isIpChar c = true
  /-- The port consists of digits. -/
  port_digits : ∀ c ∈ port, isDigit c = true

/-- The message of a line. -/
def LoginLine.message (l : LoginLine) (user : Bytes) : Bytes :=
  text "Failed password for invalid user " ++ user ++ text " from " ++ l.ip ++ text " port " ++
    l.port ++ text " ssh2"

/-- The line for a user name. -/
def LoginLine.line (l : LoginLine) (user : Bytes) : Bytes :=
  syslogLine l.stamp l.host (text "sshd[" ++ l.pid ++ text "]") (l.message user)

/-- The address that a line is attributed to. -/
def attributed (clock : Clock) (line : Bytes) : Option Bytes :=
  (parse clock line).map extractSrcIp

/-- A nonempty text behind `SRC=`. -/
def srcMark (s : Bytes) : Option Bytes :=
  if (parseKvField s (text "SRC=")).isEmpty then none else some (parseKvField s (text "SRC="))

/-- The text behind the first `from `. -/
def fromMark (s : Bytes) : Option Bytes := (after (text "from ") s).map (·.takeWhile (· != 32))

/-- What the searches for an address find first in a user name and the word
that the daemon writes behind it. -/
def planted (user : Bytes) : Option Bytes :=
  let said := user ++ text " from"
  (firstValue (text "src_ip") (kvPairs said)).or <|
    (firstValue (text "client") (kvPairs said)).or <|
      (firstValue (text "src") (kvPairs said)).or <|
        (srcMark said).or (fromMark said)

/-- The searches find nothing in a user name but the address, if anything. -/
def Harmless (ip user : Bytes) : Prop := ∀ v ∈ planted user, v = ip

section message

variable (l : LoginLine) (user : Bytes)

/-- What follows the user name and a blank. -/
def LoginLine.rest (l : LoginLine) : Bytes :=
  text "from" ++ 32 :: (l.ip ++ 32 :: (text "port " ++ l.port ++ text " ssh2"))

theorem message_eq :
    l.message user = text "Failed password for invalid user " ++ (user ++ 32 :: l.rest) := by
  have hfrom : text " from " = 32 :: (text "from" ++ [32]) := by decide
  have hport : text " port " = 32 :: text "port " := by decide
  rw [LoginLine.message, hfrom, hport, LoginLine.rest]
  simp only [List.append_assoc, List.cons_append, List.nil_append]

/-- Neither digits nor address bytes hold an equals sign or a quotation mark,
and an address holds no blank. -/
theorem rest_plain : 61 ∉ l.rest ∧ 34 ∉ l.rest ∧ 32 ∉ l.ip := by
  have hip : ∀ c : UInt8, isIpChar c = false → c ∉ l.ip := by
    intro c hc h
    rw [l.ip_chars c h] at hc
    cases hc
  have hport : ∀ c : UInt8, isDigit c = false → c ∉ l.port := by
    intro c hc h
    rw [l.port_digits c h] at hc
    cases hc
  have hmem : ∀ c : UInt8, isIpChar c = false → isDigit c = false → c ∉ text "from" → c ≠ 32 →
      c ∉ text "port " → c ∉ text " ssh2" → c ∉ l.rest := by
    intro c hc hd hfrom hblank hword hend
    simp [LoginLine.rest, hip c hc, hport c hd, hfrom, hblank, hword, hend]
  exact ⟨hmem 61 (by decide) (by decide) (by decide) (by decide) (by decide) (by decide),
    hmem 34 (by decide) (by decide) (by decide) (by decide) (by decide) (by decide),
    hip 32 (by decide)⟩

/-- The line is parsed, and its fields are the pairs of its message. -/
theorem parse_line (clock : Clock) : ∃ ev, parse clock (l.line user) = some ev ∧
    ev.message = l.message user ∧
    ∀ key, ev.fields.lookup key = firstValue key (kvPairs (l.message user)) := by
  have hsplit : l.message user = (text "Failed password for invalid user " ++ user ++
      text " from " ++ l.ip ++ text " port " ++ l.port ++ text " ") ++ text "ssh2" := by
    have hend : text " ssh2" = text " " ++ text "ssh2" := by decide
    rw [LoginLine.message, hend]
    simp only [List.append_assoc]
  have hpid : ∀ c : UInt8, isDigit c = false → c ∉ l.pid := by
    intro c hc h
    rw [l.pid_digits c h] at hc
    cases hc
  have hword : IsWord (text "sshd[" ++ l.pid ++ text "]") := by
    refine ⟨List.append_ne_nil_of_right_ne_nil _ (by decide), fun c hc => ?_⟩
    rcases List.mem_append.mp hc with hinit | hlast
    · rcases List.mem_append.mp hinit with hname | hdigit
      · exact (isWord_of_all (s := text "sshd[") (by decide) (by decide)).2 c hname
      · exact not_isSpace_of_isDigit (l.pid_digits c hdigit)
    · exact (isWord_of_all (s := text "]") (by decide) (by decide)).2 c hlast
  have hcolon : 58 ∉ text "sshd[" ++ l.pid ++ text "]" := by
    have hname : 58 ∉ text "sshd[" := by decide
    have hlast : 58 ∉ text "]" := by decide
    simp [hname, hlast, hpid 58 (by decide)]
  have hend : IsWord (text "ssh2") := isWord_of_all (by decide) (by decide)
  obtain ⟨t, ht⟩ := parse_syslogLine clock l.stamp l.host_word hword hcolon hend
  rw [← hsplit] at ht
  refine ⟨_, ht, rfl, fun key => ?_⟩
  rw [lookup_extractKv]
  dsimp only
  rw [(fillProcess_frame _ _).2]
  simp

end message

section searches

variable (l : LoginLine) (user : Bytes)

theorem said_eq : user ++ text " from" = user ++ 32 :: text "from" := by
  have hfrom : text " from" = 32 :: text "from" := by decide
  rw [hfrom]

/-- The first value of a key is the same with the rest of the message behind
the user name, or both hold a blank. -/
theorem firstValue_message (key : Bytes) :
    Option.Rel SimilarValue (firstValue key (kvPairs (l.message user)))
      (firstValue key (kvPairs (user ++ text " from"))) := by
  obtain ⟨hsign, hquote, -⟩ := rest_plain l
  have hwords : text "Failed password for invalid user " =
      text "Failed password for invalid user" ++ [32] := by decide
  have hlead : kvPairs (l.message user) = kvPairs (user ++ 32 :: l.rest) := by
    rw [message_eq, hwords, List.append_assoc, List.singleton_append,
      kvPairs_append_of_no_sign (by decide), kvPairs_skip (by decide)]
  rw [hlead, said_eq]
  exact firstValue_similar (kvPairs_similar ⟨hsign, hquote⟩ (by decide) user) key

/-- A key's text in a message, through the text behind the key. -/
theorem parseKvField_eq (msg key : Bytes) : parseKvField msg key =
    ((after key msg).map (·.takeWhile (!(text " \t\x0d\n").contains ·))).getD [] := by
  unfold parseKvField after
  cases find key msg with
  | none => rfl
  | some p => rfl

/-- The text behind `SRC=` is that of the user name. -/
theorem srcMark_message : srcMark (l.message user) = srcMark (user ++ text " from") := by
  have hn : text "SRC=" ≠ [] := by decide
  have hsep : ∀ t : Bytes, 61 ∉ t →
      after (text "SRC=") (user ++ 32 :: t) = (after (text "SRC=") user).map (· ++ 32 :: t) := by
    intro t ht
    rw [after_append_sep hn (by decide), after_eq_none (by decide) ht, Option.or_none]
  have hmark : parseKvField (l.message user) (text "SRC=") =
      parseKvField (user ++ text " from") (text "SRC=") := by
    rw [parseKvField_eq, parseKvField_eq, message_eq, said_eq, after_append_of_apart (by decide),
      hsep l.rest (rest_plain l).1, hsep (text "from") (by decide)]
    cases after (text "SRC=") user with
    | none => rfl
    | some r =>
      simp only [Option.map_some, Option.getD_some]
      rw [takeWhile_append_sep (by decide), takeWhile_append_sep (by decide)]
  rw [srcMark, srcMark, hmark]

/-- The address behind `from ` in a message. -/
theorem parseFromIp_eq (msg : Bytes) : parseFromIp msg = (fromMark msg).getD [] := by
  unfold parseFromIp fromMark after
  cases find (text "from ") msg with
  | none => rfl
  | some p => rfl

/-- The text behind `from ` is that of the user name, else the address. -/
theorem parseFromIp_message :
    parseFromIp (l.message user) = (fromMark (user ++ text " from")).getD l.ip := by
  have hblank : ∀ x ∈ l.ip, (x != 32) = true := by
    intro x hx
    have hne : x ≠ 32 := fun h => (rest_plain l).2.2 (h ▸ hx)
    simpa using hne
  have hsplit : user ++ 32 :: l.rest = (user ++ [32]) ++ text "from" ++
      32 :: (l.ip ++ 32 :: (text "port " ++ l.port ++ text " ssh2")) := by
    simp [LoginLine.rest]
  have hsaid : user ++ text " from" = (user ++ [32]) ++ text "from" := by
    rw [said_eq, List.append_assoc, List.singleton_append]
  have hneedle : text "from " = text "from" ++ [32] := by decide
  rw [parseFromIp_eq, fromMark, fromMark, message_eq, after_append_of_apart (by decide), hsplit, hsaid,
    hneedle, after_append_last]
  cases after (text "from" ++ [32]) ((user ++ [32]) ++ text "from") with
  | none =>
    simp only [Option.map_none, Option.none_or, Option.map_some, Option.getD_some, Option.getD_none]
    exact takeWhile_run_sep hblank (by decide) _
  | some r =>
    simp only [Option.map_some, Option.some_or, Option.getD_some]
    exact takeWhile_append_sep (by decide) r _

/-- One search more: a candidate goes before what the later searches find. -/
theorem getD_eq_iff {ip found : Bytes} {mark mark' later : Option Bytes}
    (hmark : Option.Rel SimilarValue mark mark') (hip : 32 ∉ ip)
    (hlater : found = ip ↔ ∀ v ∈ later, v = ip) :
    mark.getD found = ip ↔ ∀ v ∈ mark'.or later, v = ip := by
  cases hmark with
  | none => simpa using hlater
  | @some a b hab =>
    have hsame : a = ip ↔ b = ip := by
      rcases hab with rfl | ⟨ha, hb⟩
      · exact Iff.rfl
      · constructor
        · intro h
          exact absurd (h ▸ ha) hip
        · intro h
          exact absurd (h ▸ hb) hip
    simpa using hsame

theorem similar_refl (mark : Option Bytes) : Option.Rel SimilarValue mark mark := by
  cases mark with
  | none => exact .none
  | some a => exact .some (.inl rfl)

/-- The searches in order. -/
theorem extractSrcIp_eq (ev : LogEvent) : extractSrcIp ev =
    (ev.fields.lookup (text "src_ip")).getD ((ev.fields.lookup (text "client")).getD
      ((ev.fields.lookup (text "src")).getD
        ((srcMark ev.message).getD (parseFromIp ev.message)))) := by
  unfold extractSrcIp srcMark
  dsimp only
  split
  · next h => rw [h, Option.getD_some]
  · next h =>
    rw [h, Option.getD_none]
    split
    · next h => rw [h, Option.getD_some]
    · next h =>
      rw [h, Option.getD_none]
      split
      · next h => rw [h, Option.getD_some]
      · next h =>
        rw [h, Option.getD_none]
        cases (parseKvField ev.message (text "SRC=")).isEmpty with
        | true => rfl
        | false => rfl

/-- A failed login is attributed to the client exactly if its user name is
harmless. -/
theorem attributed_eq_iff (clock : Clock) :
    attributed clock (l.line user) = some l.ip ↔ Harmless l.ip user := by
  obtain ⟨ev, hev, hmessage, hfields⟩ := parse_line l user clock
  have hip := (rest_plain l).2.2
  rw [attributed, hev, Option.map_some, Option.some.injEq, extractSrcIp_eq, hfields, hfields,
    hfields, hmessage, srcMark_message, parseFromIp_message, Harmless, planted]
  refine getD_eq_iff (firstValue_message l user _) hip ?_
  refine getD_eq_iff (firstValue_message l user _) hip ?_
  refine getD_eq_iff (firstValue_message l user _) hip ?_
  refine getD_eq_iff (similar_refl _) hip ?_
  cases fromMark (user ++ text " from") with
  | none => simp
  | some v => simp

end searches

/-- Lines that differ in the user name only are both attributed to the client
exactly if both user names are harmless. -/
theorem attribution_iff (l : LoginLine) (clock₁ clock₂ : Clock) (user₁ user₂ : Bytes) :
    (attributed clock₁ (l.line user₁) = some l.ip ∧ attributed clock₂ (l.line user₂) = some l.ip) ↔
      Harmless l.ip user₁ ∧ Harmless l.ip user₂ :=
  and_congr (attributed_eq_iff l user₁ clock₁) (attributed_eq_iff l user₂ clock₂)

/-- A user name without an equals sign in which no word ends in `from` is
harmless for every address. -/
theorem harmless_of_plain {user : Bytes} (hsign : 61 ∉ user)
    (hfrom : after (text "from ") (user ++ [32]) = none) (ip : Bytes) : Harmless ip user := by
  have hsaid : 61 ∉ user ++ text " from" := by
    have hword : 61 ∉ text " from" := by decide
    simp [hsign, hword]
  have hmark : srcMark (user ++ text " from") = none := by
    rw [srcMark, parseKvField_eq, after_eq_none (by decide) hsaid]
    rfl
  have hnone : fromMark (user ++ text " from") = none := by
    have hneedle : text "from " = text "from" ++ [32] := by decide
    have hdivide : user ++ text " from" = user ++ [32] ++ text "from" := by
      rw [said_eq, List.append_assoc, List.singleton_append]
    rw [hneedle] at hfrom
    rw [fromMark, hdivide, hneedle, after_append_plain (by decide), hfrom]
    rfl
  rw [Harmless, planted, kvPairs_of_no_sign hsaid, hmark, hnone]
  simp [firstValue]

/-- A failed login at port 22 of the host `web`. -/
def guess : LoginLine where
  stamp :=
    { month := text "Jan", day := text " 2", hour := text "15", minute := text "04"
      second := text "05"
      month_known := by decide
      day_number := by decide
      hour_number := by decide
      minute_number := by decide
      second_number := by decide }
  host := text "web"
  pid := text "123"
  ip := text "10.0.0.5"
  port := text "22"
  host_word := isWord_of_all (by decide) (by decide)
  pid_digits := List.all_eq_true.mp (by decide)
  ip_chars := List.all_eq_true.mp (by decide)
  port_digits := List.all_eq_true.mp (by decide)

/-- A host at the epoch. -/
def epochClock : Clock where
  time := 0
  now := 0
  gmtimeYear := fun _ => 70
  mktime := fun _ => 0

/-- Two user names that put another address in the place of the client's. -/
theorem guess_framed :
    attributed epochClock (guess.line (text "from 6.6.6.6")) = some (text "6.6.6.6") ∧
      attributed epochClock (guess.line (text "src_ip=6.6.6.6")) = some (text "6.6.6.6") ∧
      ¬∀ user, user ≠ [] → 10 ∉ user → attributed epochClock (guess.line user) = some guess.ip := by
  have hfrom : attributed epochClock (guess.line (text "from 6.6.6.6")) =
      some (text "6.6.6.6") := by
    decide +kernel
  have hfield : attributed epochClock (guess.line (text "src_ip=6.6.6.6")) =
      some (text "6.6.6.6") := by
    decide +kernel
  refine ⟨hfrom, hfield, fun h => ?_⟩
  have hclient := h (text "from 6.6.6.6") (by decide) (by decide)
  rw [hfrom] at hclient
  exact absurd hclient (by decide)

end Dlads.SourceAttribution
