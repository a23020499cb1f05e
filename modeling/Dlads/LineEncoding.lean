import Dlads.IndexedHistory
import Dlads.KeyValueScan
import Dlads.Utf8Text

/-!
# UTF-8 through the parser

The parser cuts lines at ASCII delimiters and, in timestamps and behind a
colon, at fixed columns. From a line in valid UTF-8 it therefore makes an
event whose log source and fields are valid and whose message is the end of a
valid text: only a cut at a fixed column may fall into a character.
-/

namespace Dlads.LineEncoding

open ByteText StringMaps Records TextSearch LineParsing IndexedHistory Utf8Text

/-- An event of which every text cut out at ASCII delimiters is valid. -/
structure CleanEvent (ev : LogEvent) : Prop where
  /-- The log source is valid. -/
  logSource : IsUtf8 ev.logSource
  /-- The message ends a valid text. -/
  message : IsUtf8End ev.message
  /-- The values of the fields are valid. -/
  fields : ∀ k v, ev.fields.lookup k = some v → IsUtf8 v

section cuts

variable {s t : Bytes} {c : UInt8}

theorem ascii_of_isSpace (h : isSpace c = true) : c < 128 := by
  simp only [isSpace, Bool.or_eq_true, beq_iff_eq, Bool.and_eq_true, decide_eq_true_eq,
    UInt8.le_iff_toNat_le] at h
  rw [UInt8.lt_iff_toNat_lt]
  rcases h with rfl | ⟨-, h⟩
  · decide
  · exact Nat.lt_of_le_of_lt h (by decide)

theorem isUtf8_ltrim (hs : IsUtf8 s) : IsUtf8 (ltrim s) := hs.dropWhile fun _ => ascii_of_isSpace

theorem isUtf8_trim (hs : IsUtf8 s) : IsUtf8 (trim s) :=
  (isUtf8_ltrim hs).rdropWhile fun _ => ascii_of_isSpace

theorem isUtf8End_ltrim (hs : IsUtf8End s) : IsUtf8End (ltrim s) :=
  hs.of_suffix (List.dropWhile_suffix _)

/-- What stands in front of a found ASCII byte is valid. -/
theorem isUtf8_take_find {p : ℕ} (hs : IsUtf8 s) (hc : c < 128) {needle : Bytes}
    (h : find (c :: needle) s = some p) : IsUtf8 (s.take p) := by
  rw [eq_of_find h, List.cons_append] at hs
  exact ((isUtf8_cut hc _ _).mp hs).1

/-- What follows a found text that ends in an ASCII byte is valid. -/
theorem isUtf8_drop_find {p : ℕ} (hs : IsUtf8End s) (hc : c < 128) {needle : Bytes}
    (h : find (needle ++ [c]) s = some p) : IsUtf8 (s.drop (p + (needle.length + 1))) := by
  have hsplit := eq_of_find h
  rw [List.length_append, List.length_singleton, List.append_assoc, List.singleton_append,
    ← List.append_assoc] at hsplit
  rw [hsplit] at hs
  exact hs.behind hc

/-- What stands behind the first delimiter is valid. -/
theorem isUtf8_splitOnce_snd (hs : IsUtf8End s) (hc : c < 128) : IsUtf8 (splitOnce s c).2 := by
  unfold splitOnce
  split
  · exact isUtf8_nil
  · next p hp =>
    obtain ⟨hlt, hget, -⟩ := List.findIdx?_eq_some_iff_getElem.mp hp
    have hat : s[p] = c := by simpa using hget
    have hsplit : s = s.take p ++ c :: s.drop (p + 1) := by
      rw [← hat, ← List.drop_eq_getElem_cons hlt, List.take_append_drop]
    rw [hsplit] at hs
    exact hs.behind hc

end cuts

section fields

variable {msg rest : Bytes} {ev : LogEvent}

/-- A value that an iteration extracts is valid. -/
theorem kvStep_utf8 {pair : Option (Bytes × Bytes)} (hm : IsUtf8End msg)
    (h : kvStep msg = some (pair, rest)) : IsUtf8End rest ∧ ∀ p ∈ pair, IsUtf8 p.2 := by
  unfold kvStep at h
  dsimp only at h
  have hstart := hm.of_suffix (List.dropWhile_suffix (!isKeyStart ·))
  have hbehind := hstart.of_suffix (List.dropWhile_suffix isKeyChar)
  split at h
  · cases h
  · split at h
    · cases h
      exact ⟨isUtf8_nil.isEnd, fun p hp => by cases hp⟩
    · next sign tail hsign =>
      rw [hsign] at hbehind
      split at h
      · cases h
        exact ⟨hbehind, fun p hp => by cases hp⟩
      · next hne =>
        have heq : sign = 61 := by simpa using hne
        subst heq
        have htail : IsUtf8 tail := @IsUtf8End.behind tail [] 61 hbehind (by decide)
        split at h
        · cases h
        · next first body =>
          split at h
          · next hquote =>
            have heq : first = 34 := by simpa using hquote
            subst heq
            have hbody : IsUtf8 body := (isUtf8_cons (by decide) body).mp htail
            cases h
            constructor
            · exact (hbody.isEnd.of_suffix (List.dropWhile_suffix _)).drop 1
            · intro p hp
              cases hp
              refine hbody.takeWhile fun c hc => ?_
              have hquote : c = 34 := by simpa using hc
              rw [hquote]
              decide
          · cases h
            constructor
            · exact htail.isEnd.of_suffix (List.dropWhile_suffix _)
            · intro p hp
              cases hp
              refine htail.takeWhile fun c hc => ?_
              simp only [isValueChar, Bool.and_eq_false_iff, Bool.not_eq_false',
                bne_eq_false_iff_eq]
                at hc
              rcases hc with hc | rfl
              · exact ascii_of_isSpace hc
              · decide

theorem kvLoop_utf8 (fuel : ℕ) (hm : IsUtf8End msg) : ∀ p ∈ kvLoop fuel msg, IsUtf8 p.2 := by
  induction fuel generalizing msg with
  | zero =>
    intro p hp
    cases hp
  | succ fuel ih =>
    intro p hp
    rw [kvLoop] at hp
    split at hp
    · cases hp
    · next pair rest hstep =>
      obtain ⟨hrest, hpair⟩ := kvStep_utf8 hm hstep
      rcases List.mem_append.mp hp with hp | hp
      · exact hpair p (Option.mem_toList.mp hp)
      · exact ih hrest p hp

theorem foldl_emplace_utf8 (pairs : List (Bytes × Bytes)) (hp : ∀ p ∈ pairs, IsUtf8 p.2)
    (m : StringMap Bytes) (hm : ∀ k v, m.lookup k = some v → IsUtf8 v) :
    ∀ k v, (pairs.foldl (fun m pair => emplace m (pair.1.map toLower) pair.2) m).lookup k = some v →
      IsUtf8 v := by
  induction pairs generalizing m with
  | nil => exact hm
  | cons pair rest ih =>
    refine ih (fun p h => hp p (List.mem_cons_of_mem _ h)) _ fun k v h => ?_
    rw [lookup_emplace] at h
    split at h
    · rw [Option.some.injEq] at h
      cases hl : m.lookup (pair.1.map toLower) with
      | none =>
        rw [hl, Option.getD_none] at h
        exact h ▸ hp pair List.mem_cons_self
      | some w =>
        rw [hl, Option.getD_some] at h
        exact h ▸ hm _ w hl
    · exact hm k v h

theorem CleanEvent.extractKv (hm : IsUtf8End msg) (hev : CleanEvent ev) :
    CleanEvent (extractKv msg ev) where
  logSource := hev.logSource
  message := hev.message
  fields := foldl_emplace_utf8 _ (kvLoop_utf8 _ hm) _ hev.fields

end fields

section attempts

variable (clock : Clock) {line : Bytes} {ev : LogEvent}

/-- A new event is clean. -/
theorem cleanEvent_new (line : Bytes) : CleanEvent { rawLine := line } where
  logSource := isUtf8_nil
  message := isUtf8_nil.isEnd
  fields := fun k v h => by cases h

/-- Only log source, message and fields matter. -/
theorem CleanEvent.congr {ev' : LogEvent} (hev : CleanEvent ev) (hs : ev'.logSource = ev.logSource)
    (hm : ev'.message = ev.message) (hf : ev'.fields = ev.fields) : CleanEvent ev' where
  logSource := hs ▸ hev.logSource
  message := hm ▸ hev.message
  fields := hf ▸ hev.fields

theorem parsePriority_clean (hl : IsUtf8End line) (hev : CleanEvent ev) :
    CleanEvent (parsePriority line ev).2 ∧
      ∀ rest, (parsePriority line ev).1 = some rest → IsUtf8End rest := by
  unfold parsePriority
  split
  · split
    · exact ⟨hev, fun rest h => by cases h⟩
    · next close _ =>
      constructor
      · dsimp only
        split
        · exact hev.congr rfl rfl rfl
        · exact hev
      · intro rest h
        cases h
        exact hl.drop (close + 1)
  · exact ⟨hev, fun rest h => by cases h; exact hl⟩

theorem fillProcess_clean {procField : Bytes} (hp : IsUtf8 procField) (hev : CleanEvent ev) :
    CleanEvent (fillProcess procField ev) := by
  unfold fillProcess
  split
  · exact ⟨hp, hev.message, hev.fields⟩
  · next bracket hb =>
    have hsource : IsUtf8 (procField.take bracket) :=
      isUtf8_take_find hp (by decide : (91 : UInt8) < 128) hb
    split
    · exact ⟨hsource, hev.message, hev.fields⟩
    · dsimp only
      split <;> exact ⟨hsource, hev.message, hev.fields⟩

theorem parseSyslogTimestamp_clean (ts : Bytes) (hev : CleanEvent ev) :
    CleanEvent (parseSyslogTimestamp clock ts ev).2 := by
  unfold parseSyslogTimestamp
  dsimp only
  split
  · exact hev
  · exact hev.congr rfl rfl rfl

theorem parseIsoTimestamp_clean (ts : Bytes) (hev : CleanEvent ev) :
    CleanEvent (parseIsoTimestamp clock ts ev).2 := by
  unfold parseIsoTimestamp
  dsimp only
  split_ifs
  · exact hev
  · exact hev
  · exact hev
  · exact hev.congr rfl rfl rfl

/-- The process field is valid, and the message ends a valid text. -/
theorem splitProcess_clean {rest procField msg : Bytes} (hr : IsUtf8 rest)
    (h : splitProcess rest = some (procField, msg)) : IsUtf8 procField ∧ IsUtf8End msg := by
  obtain ⟨colonPos, hpos, hparts⟩ := Option.map_eq_some_iff.mp h
  have hcut : IsUtf8 (rest.take colonPos) := by
    rcases Option.or_eq_some_iff.mp hpos with hfind | ⟨-, hfind⟩
    · exact isUtf8_take_find hr (by decide : (58 : UInt8) < 128) hfind
    · have hsplit := eq_of_rfind hfind
      rw [hsplit] at hr
      exact ((isUtf8_cut (by decide : (58 : UInt8) < 128) _ _).mp hr).1
  cases hparts
  refine ⟨hcut, ?_⟩
  split
  · exact hr.isEnd.drop (colonPos + 2)
  · exact isUtf8_nil.isEnd

theorem parseSyslog_clean (hl : IsUtf8End line) (hev : CleanEvent ev) :
    CleanEvent (parseSyslog clock line ev).2 := by
  unfold parseSyslog
  have hprio := parsePriority_clean hl hev
  split
  · next heq =>
    rw [heq] at hprio
    exact hprio.1
  · next rest ev' heq =>
    rw [heq] at hprio
    have hrest : IsUtf8End (ltrim rest) := isUtf8End_ltrim (hprio.2 rest rfl)
    dsimp only
    split
    · exact hprio.1
    · have hstamp := parseSyslogTimestamp_clean clock ((ltrim rest).take 15) hprio.1
      split
      · next heq => rwa [heq] at hstamp
      · next ev'' heq =>
        rw [heq] at hstamp
        have hhost := isUtf8_splitOnce_snd (isUtf8End_ltrim (hrest.drop 15))
          (by decide : (32 : UInt8) < 128)
        split
        · exact hstamp
        · split
          · exact hstamp.congr rfl rfl rfl
          · next procField msg hsplit =>
            obtain ⟨hproc, hmsg⟩ := splitProcess_clean (isUtf8_ltrim hhost) hsplit
            have hfill : CleanEvent (fillProcess procField { ev'' with
                sourceHost := (splitOnce (ltrim ((ltrim rest).drop 15)) 32).1 }) :=
              fillProcess_clean hproc (hstamp.congr rfl rfl rfl)
            refine CleanEvent.extractKv hmsg ?_
            split
            · exact ⟨hfill.logSource, hmsg, hfill.fields⟩
            · exact ⟨hfill.logSource, hmsg, hfill.fields⟩

theorem parseBracketLevel_clean (hl : IsUtf8End line) (hev : CleanEvent ev) :
    IsUtf8End (parseBracketLevel line ev).1 ∧ CleanEvent (parseBracketLevel line ev).2 := by
  unfold parseBracketLevel
  split
  · exact ⟨hl, hev⟩
  · exact ⟨isUtf8End_ltrim (hl.drop _), hev.congr rfl rfl rfl⟩

theorem skipPidPrefix_clean (hl : IsUtf8End line) : IsUtf8End (skipPidPrefix line) := by
  unfold skipPidPrefix
  split
  · exact hl
  · dsimp only
    split
    · exact isUtf8End_ltrim (hl.drop _)
    · exact hl

theorem parseNginx_clean (hl : IsUtf8End line) (hev : CleanEvent ev) :
    CleanEvent (parseNginx clock line ev).2 := by
  unfold parseNginx
  split
  · exact hev
  · have hstamp := parseIsoTimestamp_clean clock (line.take 19) hev
    split
    · next heq => rwa [heq] at hstamp
    · next ev' heq =>
      rw [heq] at hstamp
      have hrest : IsUtf8End (ltrim (line.drop 19)) := isUtf8End_ltrim (hl.drop 19)
      have hnginx : IsUtf8 (text "nginx") := isUtf8_text _ (by decide)
      dsimp only
      split
      · obtain ⟨hbehind, hlevel⟩ := parseBracketLevel_clean hrest hstamp
        have hmsg := skipPidPrefix_clean hbehind
        exact CleanEvent.extractKv hmsg ⟨hnginx, hmsg, hlevel.fields⟩
      · have hmsg := skipPidPrefix_clean hrest
        exact CleanEvent.extractKv hmsg ⟨hnginx, hmsg, hstamp.fields⟩

theorem fillFromFields_clean (hev : CleanEvent ev) : CleanEvent (fillFromFields ev) := by
  have hfield : ∀ key, IsUtf8 ((ev.fields.lookup key).getD []) := by
    intro key
    cases hl : ev.fields.lookup key with
    | none => exact isUtf8_nil
    | some v => exact hev.fields key v hl
  have hmsg : IsUtf8End ((ev.fields.lookup (text "msg")).getD ev.message) := by
    cases hl : ev.fields.lookup (text "msg") with
    | none => exact hev.message
    | some v => exact (hev.fields _ v hl).isEnd
  refine ⟨?_, ?_, hev.fields⟩
  · simp only [fillFromFields]
    split_ifs
    · exact hfield _
    · exact hfield _
    · exact hev.logSource
  · simp only [fillFromFields]
    split
    · exact (hfield _).isEnd
    · exact hmsg

theorem parseKvPairs_clean (hl : IsUtf8End line) (hev : CleanEvent ev) :
    CleanEvent (parseKvPairs clock line ev).2 := by
  unfold parseKvPairs
  split
  · exact hev
  · extract_lets stamped ev₁ dated rest levelled filled named
    have hstamped : IsUtf8End stamped.1 ∧ CleanEvent stamped.2 := by
      have hstamp := parseIsoTimestamp_clean clock (line.take 19) hev
      unfold stamped
      split
      · split
        · next heq =>
          rw [heq] at hstamp
          exact ⟨isUtf8End_ltrim (hl.drop 19), hstamp⟩
        · next heq =>
          rw [heq] at hstamp
          exact ⟨hl, hstamp⟩
      · exact ⟨hl, hev⟩
    have hdated : CleanEvent dated := by
      unfold dated
      split
      · exact hstamped.2.congr rfl rfl rfl
      · exact hstamped.2
    have hlevelled : IsUtf8End levelled.1 ∧ CleanEvent levelled.2 := by
      unfold levelled
      split
      · exact parseBracketLevel_clean (isUtf8End_ltrim hstamped.1) hdated
      · exact ⟨isUtf8End_ltrim hstamped.1, hdated⟩
    have hfilled : CleanEvent filled :=
      fillFromFields_clean (CleanEvent.extractKv hlevelled.1 hlevelled.2)
    have hnamed : CleanEvent named := by
      unfold named
      split
      · exact ⟨hfilled.logSource, hlevelled.1, hfilled.fields⟩
      · exact hfilled
    exact hnamed.congr rfl rfl rfl

/-- A line in valid UTF-8 yields a clean event. -/
theorem parse_clean {event : LogEvent} (hl : IsUtf8 line) (h : parse clock line = some event) :
    CleanEvent event := by
  have hline : IsUtf8End (trim line) := (isUtf8_trim hl).isEnd
  exact parse_keeps (cleanEvent_new (trim line)) (fun _ => parseSyslog_clean clock hline)
    (fun _ => parseNginx_clean clock hline) (fun _ => parseKvPairs_clean clock hline) h

end attempts

section extraction

variable {ev : LogEvent} {msg : Bytes}

theorem parseFromIp_utf8 (hm : IsUtf8End msg) : IsUtf8 (parseFromIp msg) := by
  unfold parseFromIp
  split
  · exact isUtf8_nil
  · next pos hpos =>
    have hbehind : IsUtf8 (msg.drop (pos + 5)) :=
      @isUtf8_drop_find msg 32 pos hm (by decide) (text "from") hpos
    refine hbehind.takeWhile fun c hc => ?_
    have hblank : c = 32 := by simpa using hc
    rw [hblank]
    decide

/-- A value is cut out behind its key, which ends in an equals sign. -/
theorem parseKvField_utf8 (hm : IsUtf8End msg) (name : Bytes) :
    IsUtf8 (parseKvField msg (name ++ [61])) := by
  unfold parseKvField
  split
  · exact isUtf8_nil
  · next pos hpos =>
    have hbehind := isUtf8_drop_find hm (by decide : (61 : UInt8) < 128) hpos
    rw [List.length_append, List.length_singleton]
    refine hbehind.takeWhile fun c hc => ?_
    have hspace : c ∈ text " \t\x0d\n" := by simpa using hc
    exact isAscii_of_all (by decide) c hspace

theorem parseSudoUser_utf8 (hm : IsUtf8End msg) : IsUtf8 (parseSudoUser msg) := by
  unfold parseSudoUser
  split
  · exact isUtf8_nil
  · next pos hpos =>
    have hsplit : msg = (msg.take pos ++ text " by") ++ 32 :: msg.drop (pos + 4) := by
      rw [List.append_assoc]
      exact eq_of_rfind hpos
    rw [hsplit] at hm
    have hbehind : IsUtf8 (msg.drop (pos + 4)) := hm.behind (by decide)
    refine hbehind.takeWhile fun c hc => ?_
    have hend : c ∈ text " \t(" := by simpa using hc
    exact isAscii_of_all (by decide) c hend

/-- The address of a clean event is valid. -/
theorem CleanEvent.extractSrcIp (hev : CleanEvent ev) : IsUtf8 (extractSrcIp ev) := by
  unfold IndexedHistory.extractSrcIp
  split
  · next ip h => exact hev.fields _ ip h
  · split
    · next ip h => exact hev.fields _ ip h
    · split
      · next ip h => exact hev.fields _ ip h
      · dsimp only
        split
        · exact parseKvField_utf8 hev.message (text "SRC")
        · exact parseFromIp_utf8 hev.message

end extraction

end Dlads.LineEncoding
