import Dlads.TimestampYears

/-!
# The separator in front of a syslog message

The text behind the host is divided at the first colon with a blank behind it
or, without one, at the last colon, and either way two bytes are skipped. The
fallback is meant for a colon that ends the line. A last colon with anything
behind it costs the message its first byte.
-/

namespace Dlads.MessageSeparators

open ByteText TextSearch Records LineParsing TimestampYears

/-- The text behind the host of a syslog line, trimmed on the left. -/
def behindHost (line : Bytes) : Bytes :=
  match (parsePriority line {}).1 with
  | none => []
  | some rest => ltrim (splitOnce (ltrim ((ltrim rest).drop 15)) 32).2

/-- The text behind the host is a process field, a colon, at most one blank
and the message, and the log source is the field up to its first bracket. -/
def KeepsText (line : Bytes) (ev : LogEvent) : Prop :=
  ∃ procField sep, behindHost line = procField ++ 58 :: (sep ++ ev.message) ∧
    (sep = [] ∨ sep = [32]) ∧ ev.logSource = procField.takeWhile (· != 91)

/-- The text behind a priority does not depend on the event. -/
theorem parsePriority_text (line : Bytes) (ev : LogEvent) :
    (parsePriority line ev).1 = (parsePriority line {}).1 := by
  unfold parsePriority
  split
  · split
    · rfl
    · rfl
  · rfl

/-- The log source is the process field up to its first bracket. -/
theorem fillProcess_logSource (procField : Bytes) (ev : LogEvent) :
    (fillProcess procField ev).logSource = procField.takeWhile (· != 91) := by
  unfold fillProcess
  split
  · next hfind =>
    symm
    rw [List.takeWhile_eq_self_iff]
    intro c hc
    have hne : c ≠ 91 := by
      rintro rfl
      obtain ⟨front, back, hsplit⟩ := List.append_of_mem hc
      exact (find_eq_none_iff [91] procField).mp hfind ⟨front, back, by rw [hsplit]; simp⟩
    simpa using hne
  · next bracket hfind =>
    have hsource : procField.takeWhile (· != 91) = procField.take bracket := takeWhile_of_find hfind
    rw [hsource]
    split
    · rfl
    · dsimp only
      split
      · rfl
      · rfl

/-- An accepted line is divided behind its host. -/
theorem parts_of_parseSyslog {clock : Clock} {line : Bytes} {ev ev' : LogEvent}
    (h : parseSyslog clock line ev = (true, ev')) :
    ∃ procField, splitProcess (behindHost line) = some (procField, ev'.message) ∧
      ev'.logSource = procField.takeWhile (· != 91) := by
  have htext := parsePriority_text line ev
  unfold parseSyslog at h
  unfold behindHost
  rw [← htext]
  split at h
  · cases h
  · next rest ev₁ hprio =>
    rw [hprio]
    dsimp only at h ⊢
    split at h
    · cases h
    · split at h
      · cases h
      · split at h
        · cases h
        · split at h
          · cases h
          · next procField msg hsplit =>
            rw [hsplit]
            rw [Prod.mk.injEq] at h
            rw [← h.2]
            refine ⟨procField, ?_, ?_⟩
            · split
              · rfl
              · rfl
            · rw [← fillProcess_logSource]
              split
              · rfl
              · rfl

/-- How the text behind the host is divided. -/
theorem splitProcess_cases {rest procField msg : Bytes}
    (h : splitProcess rest = some (procField, msg)) :
    rest = procField ++ 58 :: 32 :: msg ∨
      ¬text ": " <:+: rest ∧ (rest = procField ++ [58] ∧ msg = [] ∨
        ∃ c, c ≠ 32 ∧ 58 ∉ c :: msg ∧ rest = procField ++ 58 :: c :: msg) := by
  obtain ⟨colonPos, hpos, hparts⟩ := Option.map_eq_some_iff.mp h
  rw [Prod.mk.injEq] at hparts
  obtain ⟨rfl, rfl⟩ := hparts
  rcases Option.or_eq_some_iff.mp hpos with hfind | ⟨hnone, hfind⟩
  · -- the first colon with a blank behind it
    left
    have hsplit := eq_of_find hfind
    have hlen : colonPos + 2 ≤ rest.length := length_of_find hfind
    rw [if_pos hlen]
    exact hsplit
  · -- the last colon
    right
    refine ⟨(find_eq_none_iff _ _).mp hnone, ?_⟩
    rcases rfind_byte_cases hfind with ⟨hlen, hend⟩ | ⟨c, hlen, hlast, hsplit⟩
    · rw [if_neg (by omega)]
      exact .inl ⟨hend, rfl⟩
    · rw [if_pos hlen]
      refine .inr ⟨c, ?_, hlast, hsplit⟩
      rintro rfl
      refine (find_eq_none_iff _ _).mp hnone ⟨rest.take colonPos, rest.drop (colonPos + 2), ?_⟩
      rw [List.append_assoc]
      exact hsplit.symm

/-- A separator in front of the message, or a colon at the end of the line,
keeps the text. -/
theorem keepsText_of_separated {clock : Clock} {line : Bytes} {ev ev' : LogEvent}
    (h : parseSyslog clock line ev = (true, ev'))
    (hsep : text ": " <:+: behindHost line ∨ [58] <:+ behindHost line) : KeepsText line ev' := by
  obtain ⟨procField, hparts, hsource⟩ := parts_of_parseSyslog h
  rcases splitProcess_cases hparts with hblank | ⟨hnone, hend | ⟨c, -, hcolon, hrest⟩⟩
  · exact ⟨procField, [32], hblank, .inr rfl, hsource⟩
  · exact ⟨procField, [], by rw [hend.1, hend.2]; rfl, .inl rfl, hsource⟩
  · rcases hsep with hblank | hend
    · exact absurd hblank hnone
    · rw [hrest] at hend
      obtain ⟨front, hfront⟩ := hend
      have hlast : (58 : UInt8) = (c :: ev'.message).getLast (List.cons_ne_nil c _) := by
        have hsame := List.getLast_congr (by simp) (by simp) hfront
        simpa using hsame
      exact absurd (hlast ▸ List.getLast_mem _) hcolon

/-- A line that keeps its text has a separator or ends in a colon. -/
theorem separated_of_keepsText {clock : Clock} {line : Bytes} {ev ev' : LogEvent}
    (h : parseSyslog clock line ev = (true, ev')) (hkeeps : KeepsText line ev') :
    text ": " <:+: behindHost line ∨ [58] <:+ behindHost line := by
  obtain ⟨procField, hparts, -⟩ := parts_of_parseSyslog h
  rcases splitProcess_cases hparts with hblank | ⟨-, hend | ⟨c, hc, hcolon, hrest⟩⟩
  · refine .inl ⟨procField, ev'.message, ?_⟩
    rw [hblank, List.append_assoc]
    rfl
  · exact .inr ⟨procField, hend.1.symm⟩
  · -- the skipped byte is neither the colon nor a blank
    obtain ⟨procField', sep, hkept, hsep, -⟩ := hkeeps
    rw [hrest] at hkept
    have hfull : (procField ++ [58]) ++ [c] ++ ev'.message =
        (procField' ++ 58 :: sep) ++ ev'.message := by
      rw [List.append_assoc, List.append_assoc, List.append_assoc]
      exact hkept
    have hcut := List.append_cancel_right hfull
    have hlast : c = (58 :: sep).getLast (List.cons_ne_nil 58 sep) := by
      have hsame := List.getLast_congr (by simp) (by simp) hcut
      simpa using hsame
    rcases hsep with rfl | rfl
    · exact absurd (hlast ▸ List.mem_cons_self) hcolon
    · exact absurd hlast hc

/-- No text of the message is lost exactly if a colon with a blank behind it
stands in front of it, or a colon at the end of the line. -/
theorem keepsText_iff {clock : Clock} {line : Bytes} {ev ev' : LogEvent}
    (h : parseSyslog clock line ev = (true, ev')) : KeepsText line ev' ↔
      text ": " <:+: behindHost line ∨ [58] <:+ behindHost line :=
  ⟨separated_of_keepsText h, keepsText_of_separated h⟩

/-- A line of a process on a host, with the separator left open. -/
def procLine (rest : Bytes) : Bytes := text "Jan  1 00:00:00 host " ++ rest

/-- A blank behind the colon keeps the message. -/
theorem blankLine_kept : ∃ ev,
    parseSyslog (hostClock 0 0) (procLine (text "proc[1]: msg")) {} = (true, ev) ∧
      KeepsText (procLine (text "proc[1]: msg")) ev := by
  have haccept : (parseSyslog (hostClock 0 0) (procLine (text "proc[1]: msg")) {}).1 = true := by
    decide +kernel
  exact ⟨_, Prod.ext haccept rfl,
    (keepsText_iff (Prod.ext haccept rfl)).mpr (.inl (by decide +kernel))⟩

/-- Without the blank the message loses its first byte. -/
theorem closeLine_cut : ∃ ev,
    parseSyslog (hostClock 0 0) (procLine (text "proc:msg")) {} = (true, ev) ∧
      ev.message = text "sg" ∧ ¬KeepsText (procLine (text "proc:msg")) ev := by
  have haccept : (parseSyslog (hostClock 0 0) (procLine (text "proc:msg")) {}).1 = true := by
    decide +kernel
  refine ⟨_, Prod.ext haccept rfl, by decide +kernel, fun hkeeps => ?_⟩
  exact absurd (separated_of_keepsText (Prod.ext haccept rfl) hkeeps) (by decide +kernel)

end Dlads.MessageSeparators
