import Dlads.NaiveScan
import Dlads.TextSearch

/-!
# Sudo history by user

The user of an arriving sudo session is the word after the last ` by ` of its
message, while the history is searched for messages that hold this word
anywhere. A session of the user is always found that way. A session of another
user is found as well when the word stands somewhere in its message, and it
then hides the arriving one.
-/

namespace Dlads.SudoHistory

open ByteText TextSearch Records YamlConfig IndexedHistory DetectionRules NaiveScan

/-- Names equal up to case. -/
def sameName (u v : Bytes) : Bool := u.map toLower == v.map toLower

/-- A sudo session opened by a user with a name. -/
structure SudoTrigger (event : LogEvent) (user : Bytes) : Prop where
  /-- The line comes from sudo. -/
  source : event.logSource = text "sudo"
  /-- It reports an opened session. -/
  opened : icontains event.message (text "session opened") = true
  /-- The session is the user's. -/
  parsed : parseSudoUser event.message = user
  /-- The user has a name. -/
  named : user ≠ []

/-- A sudo session opened before the event, within the history looked back at. -/
def priorSession (event : LogEvent) (cfg : RuleConfig) (ev : LogEvent) : Bool :=
  ev.logSource == text "sudo" && icontains ev.message (text "session opened") &&
    decide (event.timestamp - hours cfg.privHistoryHours ≤ ev.timestamp) &&
    decide (ev.timestamp < event.timestamp)

/-- Some prior session was opened by the user. -/
def OpenedBefore (event : LogEvent) (snapshot : List LogEvent) (cfg : RuleConfig)
    (user : Bytes) : Prop :=
  ∃ ev ∈ snapshot, priorSession event cfg ev = true ∧
    sameName (parseSudoUser ev.message) user = true

/-- The message of some prior session holds the user's name. -/
def MentionedBefore (event : LogEvent) (snapshot : List LogEvent) (cfg : RuleConfig)
    (user : Bytes) : Prop :=
  ∃ ev ∈ snapshot, priorSession event cfg ev = true ∧ icontains ev.message user = true

/-- The rule raises an alert exactly about users who opened no prior session. -/
def MatchedByUser (event : LogEvent) (snapshot : List LogEvent) (cfg : RuleConfig)
    (user : Bytes) : Prop :=
  ∀ counter, (indexedEvaluate event snapshot cfg counter .privEsc).isSome = true ↔
    ¬OpenedBefore event snapshot cfg user

/-- The parsed user stands in the message. -/
theorem parseSudoUser_within (msg : Bytes) : parseSudoUser msg <:+: msg := by
  unfold parseSudoUser
  split
  · exact List.nil_infix
  · exact (List.takeWhile_prefix _).isInfix.trans (List.drop_suffix _ _).isInfix

/-- A message holds the name of its user, whatever the case. -/
theorem icontains_of_sameName {msg user : Bytes} (h : sameName (parseSudoUser msg) user = true) :
    icontains msg user = true := by
  have hname : (parseSudoUser msg).map toLower = user.map toLower := by simpa [sameName] using h
  rw [icontains, isearch_iff_infix, ← hname]
  exact (parseSudoUser_within msg).map toLower

/-- A session of the user mentions the user. -/
theorem mentionedBefore_of_openedBefore {event : LogEvent} {snapshot : List LogEvent}
    {cfg : RuleConfig} {user : Bytes} (h : OpenedBefore event snapshot cfg user) :
    MentionedBefore event snapshot cfg user := by
  obtain ⟨ev, hev, hprior, hsame⟩ := h
  exact ⟨ev, hev, hprior, icontains_of_sameName hsame⟩

/-- The rule looks at a sudo trigger. -/
theorem subject_of_trigger {event : LogEvent} {user : Bytes} (ht : SudoTrigger event user) :
    PrivEscRule.subject event = some user := by
  obtain ⟨hsource, hopened, huser, hnamed⟩ := ht
  have hempty : user.isEmpty = false := by simpa using hnamed
  simp [PrivEscRule.subject, hsource, hopened, huser, hempty]

/-- The history check finds exactly the mentions. -/
theorem naiveSeenBefore_iff (event : LogEvent) (snapshot : List LogEvent) (cfg : RuleConfig)
    (user : Bytes) : naiveSeenBefore event snapshot cfg user = true ↔
      MentionedBefore event snapshot cfg user := by
  rw [naiveSeenBefore, List.any_eq_true]
  refine exists_congr fun ev => and_congr_right fun _ => ?_
  simp only [PrivEscRule.matchesUser, priorSession, Bool.and_eq_true, Bool.not_eq_true',
    decide_eq_true_eq, decide_eq_false_iff_not, not_lt, not_le, beq_iff_eq]
  rw [PrivEscRule.cutoff]
  tauto

/-- The rule is silent exactly about users who are mentioned before. -/
theorem fires_iff_unmentioned {event : LogEvent} {user : Bytes} (ht : SudoTrigger event user)
    (snapshot : List LogEvent) {cfg : RuleConfig} (hours : cfg.privHistoryHours ≤ 24)
    (counter : UInt64) : (indexedEvaluate event snapshot cfg counter .privEsc).isSome = true ↔
      ¬MentionedBefore event snapshot cfg user := by
  rw [← naiveSeenBefore_iff, indexedEvaluate, Rule.evaluate, PrivEscRule.evaluate_fst,
    subject_of_trigger ht, Option.bind_some, seenBefore_eq_naive snapshot hours]
  cases naiveSeenBefore event snapshot cfg user with
  | false => simp
  | true => simp

/-- History is matched by user exactly if, whenever a prior session mentions
the user, the user opened one. -/
theorem matchedByUser_iff {event : LogEvent} {user : Bytes} (ht : SudoTrigger event user)
    (snapshot : List LogEvent) {cfg : RuleConfig} (hours : cfg.privHistoryHours ≤ 24) :
    MatchedByUser event snapshot cfg user ↔
      (MentionedBefore event snapshot cfg user → OpenedBefore event snapshot cfg user) := by
  unfold MatchedByUser
  constructor
  · intro h hmention
    by_contra hopened
    exact (fires_iff_unmentioned ht snapshot hours 0).mp ((h 0).mpr hopened) hmention
  · intro h counter
    rw [fires_iff_unmentioned ht snapshot hours counter]
    exact not_congr ⟨h, mentionedBefore_of_openedBefore⟩

/-- The message of a session that a user opens as root. -/
def sessionMessage (user : Bytes) : Bytes :=
  text "pam_unix(sudo:session): session opened for user root by " ++ user ++ text "(uid=1001)"

/-- A session that a user opens as root. -/
def rootSession (user : Bytes) (timestamp : ℤ) : LogEvent where
  timestamp := timestamp
  sourceHost := text "testhost"
  logSource := text "sudo"
  level := .info
  format := .syslog
  message := sessionMessage user

theorem rootSession_bob (timestamp : ℤ) : SudoTrigger (rootSession (text "bob") timestamp)
    (text "bob") where
  source := rfl
  opened := show icontains (sessionMessage (text "bob")) (text "session opened") = true by
    decide +kernel
  parsed := show parseSudoUser (sessionMessage (text "bob")) = text "bob" by decide +kernel
  named := by decide

/-- A user whose own session is an hour old is matched by name. -/
theorem bobHistory_matched : MatchedByUser (rootSession (text "bob") (hours 1))
    [rootSession (text "bob") 0] {} (text "bob") :=
  (matchedByUser_iff (rootSession_bob _) _ (by decide)).mpr fun _ =>
    ⟨rootSession (text "bob") 0, List.mem_singleton_self _, by decide +kernel, by decide +kernel⟩

/-- The session of `bobby` hides the first session of `bob`. -/
theorem bobbyHistory_hides : SudoTrigger (rootSession (text "bob") (hours 1)) (text "bob") ∧
    0 ≤ ({} : RuleConfig).privHistoryHours ∧ ({} : RuleConfig).privHistoryHours ≤ 24 ∧
    ¬MatchedByUser (rootSession (text "bob") (hours 1)) [rootSession (text "bobby") 0] {}
      (text "bob") := by
  refine ⟨rootSession_bob _, by decide, by decide, fun h => ?_⟩
  have hmention : MentionedBefore (rootSession (text "bob") (hours 1))
      [rootSession (text "bobby") 0] {} (text "bob") :=
    ⟨rootSession (text "bobby") 0, List.mem_singleton_self _, by decide +kernel, by decide +kernel⟩
  have hother : ¬OpenedBefore (rootSession (text "bob") (hours 1))
      [rootSession (text "bobby") 0] {} (text "bob") := by
    rintro ⟨ev, hev, -, hsame⟩
    rw [List.mem_singleton.mp hev] at hsame
    exact absurd hsame (by decide +kernel)
  exact (fires_iff_unmentioned (rootSession_bob _) _ (by decide) 0).mp ((h 0).mpr hother) hmention

end Dlads.SudoHistory
