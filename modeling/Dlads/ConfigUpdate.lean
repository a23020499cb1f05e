import Dlads.KeyedItems
import Dlads.LineSplitting
import Dlads.YamlConfig

/-!
# Updating the configuration file

`write_yaml_field` overwrites the lines of one key. As long as a carriage
return stands before a line feed only, writer and readers see the same lines as
lines of this key, though they trim differently. The readers then find the
value written, and everything else is what it was: the other lines, what is
read for other keys, and the configuration of the rules.
-/

namespace Dlads.ConfigUpdate

open ByteText StringMaps YamlConfig KeyedItems LineSplitting

/-- A carriage return stands directly before a line feed only. -/
def ReturnsEndLines (content : Bytes) : Prop :=
  ∀ before behind, content = before ++ 13 :: behind → behind.head? = some 10

instance : DecidablePred ReturnsEndLines := fun content =>
  decidable_of_iff (∀ t ∈ content.tails, t.head? = some 13 → t.tail.head? = some 10) <| by
    constructor
    · rintro h before behind rfl
      exact h (13 :: behind) ((List.mem_tails _ _).mpr (List.suffix_append before _)) rfl
    · intro h t ht hhead
      obtain ⟨before, rfl⟩ := (List.mem_tails _ _).mp ht
      cases t with
      | nil => cases hhead
      | cons c behind =>
        cases hhead
        exact h before behind rfl

/-- A byte that the writer trims. -/
def isBlank (c : UInt8) : Bool := c == 32 || c == 9

/-- A text without comment signs and line breaks that neither starts nor ends
with a blank. -/
structure IsField (s : Bytes) : Prop where
  /-- No comment sign. -/
  comment : 35 ∉ s
  /-- No carriage return. -/
  noReturn : 13 ∉ s
  /-- No line feed. -/
  noFeed : 10 ∉ s
  /-- No blank in front. -/
  front : ∀ c ∈ s.head?, isBlank c = false
  /-- No blank at the end. -/
  back : ∀ c ∈ s.getLast?, isBlank c = false

/-- A key that can be written: neither empty nor with a colon. -/
structure IsKey (key : Bytes) : Prop extends IsField key where
  /-- Not empty. -/
  nonempty : key ≠ []
  /-- No colon. -/
  colon : 58 ∉ key

/-- The key of a line, for the readers. -/
def readerKey (line : Bytes) : Option Bytes := (readerEntry line).map Prod.fst

/-- The keys of `RuleConfig::from_yaml`. -/
def ruleKeys : List Bytes :=
  [text "window_seconds", text "threshold", text "cooldown_seconds", text "scan_window_seconds",
    text "scan_threshold", text "scan_cooldown_seconds", text "priv_history_hours",
    text "priv_cooldown_seconds", text "multi_window_seconds", text "multi_min_services",
    text "multi_cooldown_seconds"]

section lines

/-- The first line feed ends the first line. -/
theorem getLines_line {line : Bytes} (h : 10 ∉ line) (rest : Bytes) :
    getLines (line ++ 10 :: rest) = line :: getLines rest := by
  induction line with
  | nil => rfl
  | cons c line ih =>
    have hc : (c == 10) = false := by
      have hne : c ≠ 10 := fun he => h (he ▸ List.mem_cons_self)
      simpa using hne
    rw [List.cons_append, getLines, hc, ih fun hl => h (List.mem_cons_of_mem c hl)]
    rfl

/-- A text without a line feed is one line, unless it is empty. -/
theorem getLines_plain {s : Bytes} (h : 10 ∉ s) : getLines s = if s.isEmpty then [] else [s] := by
  induction s with
  | nil => rfl
  | cons c s ih =>
    have hc : (c == 10) = false := by
      have hne : c ≠ 10 := fun he => h (he ▸ List.mem_cons_self)
      simpa using hne
    rw [getLines, hc, ih fun hl => h (List.mem_cons_of_mem c hl)]
    cases s with
    | nil => rfl
    | cons d s => rfl

/-- Lines that were ended by line feeds are read back. -/
theorem getLines_flatten {lines : List Bytes} (h : ∀ line ∈ lines, 10 ∉ line) :
    getLines (lines.map (· ++ text "\n")).flatten = lines := by
  induction lines with
  | nil => rfl
  | cons line rest ih =>
    have hfeed : text "\n" = [10] := by decide
    rw [List.map_cons, List.flatten_cons, hfeed, List.append_assoc, List.singleton_append,
      getLines_line (h line List.mem_cons_self), ← hfeed,
      ih fun l hl => h l (List.mem_cons_of_mem line hl)]

/-- No line holds a line feed, and a carriage return ends its line. -/
theorem getLines_spec {content : Bytes} (h : ReturnsEndLines content) :
    ∀ line ∈ getLines content, 10 ∉ line ∧
      ∀ before behind, line = before ++ 13 :: behind → behind = [] := by
  induction content using segment_induction (· == (10 : UInt8)) with
  | plain s hplain =>
    have hfeed : 10 ∉ s := fun hmem => by simpa using hplain 10 hmem
    rw [getLines_plain hfeed]
    intro line hline
    have hsame : line = s := by
      split at hline
      · cases hline
      · exact List.mem_singleton.mp hline
    subst hsame
    refine ⟨hfeed, fun before behind hsplit => ?_⟩
    have hnext := List.mem_of_mem_head? (h before behind hsplit)
    exact absurd (hsplit ▸ List.mem_append_right before (List.mem_cons_of_mem 13 hnext)) hfeed
  | line first c rest hfirst hc ih =>
    have hfeed : 10 ∉ first := fun hmem => by simpa using hfirst 10 hmem
    have hc : c = 10 := by simpa using hc
    subst hc
    have hrest : ReturnsEndLines rest := fun before behind hsplit =>
      h (first ++ 10 :: before) behind (by rw [hsplit, List.append_assoc, List.cons_append])
    rw [getLines_line hfeed]
    refine List.forall_mem_cons.mpr ⟨⟨hfeed, fun before behind hsplit => ?_⟩, ih hrest⟩
    cases behind with
    | nil => rfl
    | cons d behind =>
      have hnext := h before (d :: behind ++ 10 :: rest) (by rw [hsplit, List.append_assoc]; rfl)
      have hd : d = 10 := by simpa using hnext
      refine absurd ?_ hfeed
      rw [hsplit, hd]
      simp

end lines

section trimming

/-- Positions are found alike by tests that agree on the text. -/
theorem findIdx?_congr {p q : UInt8 → Bool} {s : Bytes} (h : ∀ c ∈ s, p c = q c) :
    s.findIdx? p = s.findIdx? q := by
  induction s with
  | nil => rfl
  | cons c s ih =>
    rw [List.findIdx?_cons, List.findIdx?_cons, h c List.mem_cons_self,
      ih fun d hd => h d (List.mem_cons_of_mem c hd)]

/-- The bytes trimmed in front, and by the writer at the end. -/
theorem contains_blanks (c : UInt8) : (text " \t").contains c = isBlank c := by
  have hset : text " \t" = [32, 9] := by decide
  rw [hset]
  simp only [List.contains_cons, List.contains_nil, Bool.or_false, isBlank]

/-- The readers trim line breaks, too. -/
theorem contains_breaks {c : UInt8} (h13 : c ≠ 13) (h10 : c ≠ 10) :
    (text " \t\x0d\n").contains c = isBlank c := by
  have hset : text " \t\x0d\n" = [32, 9, 13, 10] := by decide
  rw [hset]
  simp only [List.contains_cons, List.contains_nil, Bool.or_false, isBlank,
    beq_eq_false_iff_ne.mpr h13, beq_eq_false_iff_ne.mpr h10]

/-- Without line breaks both trimmings look for the same last byte. -/
theorem findLastNotOf_breaks {s : Bytes} (h13 : 13 ∉ s) (h10 : 10 ∉ s) :
    findLastNotOf (text " \t\x0d\n") s = findLastNotOf (text " \t") s := by
  unfold findLastNotOf
  rw [findIdx?_congr fun c hc => ?_]
  have hmem := List.mem_reverse.mp hc
  rw [contains_breaks (fun h => h13 (h ▸ hmem)) (fun h => h10 (h ▸ hmem)), contains_blanks]

/-- Without line breaks both trimmings agree, unless the text is blank; then
the readers leave nothing and the writer the text. -/
theorem trims_agree {s : Bytes} (h13 : 13 ∉ s) (h10 : 10 ∉ s) :
    readerTrim s = writerTrim s ∨
      (readerTrim s = [] ∧ writerTrim s = s ∧ ∀ c ∈ s, isBlank c = true) := by
  unfold readerTrim writerTrim
  rw [findLastNotOf_breaks h13 h10]
  cases hfirst : findFirstNotOf (text " \t") s with
  | none =>
    refine .inr ⟨rfl, rfl, fun c hc => ?_⟩
    have hall := List.findIdx?_eq_none_iff.mp hfirst c hc
    rw [contains_blanks] at hall
    simpa using hall
  | some b =>
    cases hlast : findLastNotOf (text " \t") s with
    | some e => exact .inl rfl
    | none =>
      -- a byte that is no blank would be found from either side
      obtain ⟨hb, hfound, -⟩ := List.findIdx?_eq_some_iff_getElem.mp hfirst
      have hnone := List.findIdx?_eq_none_iff.mp (Option.map_eq_none_iff.mp hlast) s[b]
        (List.mem_reverse.mpr (List.getElem_mem hb))
      rw [hnone] at hfound
      cases hfound

/-- A last byte that is no blank is found from the back. -/
theorem findLastNotOf_concat {init : Bytes} {d : UInt8} (hd : isBlank d = false) :
    findLastNotOf (text " \t") (init ++ [d]) = some init.length := by
  unfold findLastNotOf
  rw [List.reverse_concat, List.findIdx?_cons, contains_blanks, hd]
  simp

/-- A field in front of or behind a blank is what the readers leave. -/
theorem readerTrim_field {s : Bytes} (h : IsField s) :
    readerTrim s = s ∧ readerTrim (32 :: s) = s := by
  rcases List.eq_nil_or_concat s with rfl | ⟨init, d, hconcat⟩
  · exact ⟨by decide, by decide⟩
  · rw [List.concat_eq_append] at hconcat
    subst hconcat
    have hd : isBlank d = false := h.back d (by simp)
    have hblank : 13 ∉ 32 :: (init ++ [d]) ∧ 10 ∉ 32 :: (init ++ [d]) := by
      have h13 := h.noReturn
      have h10 := h.noFeed
      exact ⟨fun hmem => h13 (by simpa using hmem), fun hmem => h10 (by simpa using hmem)⟩
    have hfront : findFirstNotOf (text " \t") (init ++ [d]) = some 0 := by
      have hhead := h.front
      unfold findFirstNotOf
      cases hs : init ++ [d] with
      | nil => exact absurd hs (by simp)
      | cons c rest =>
        have hc : isBlank c = false := hhead c (by rw [hs]; rfl)
        rw [List.findIdx?_cons, contains_blanks, hc]
        rfl
    have hbehind : findFirstNotOf (text " \t") (32 :: (init ++ [d])) = some 1 := by
      unfold findFirstNotOf at hfront ⊢
      rw [List.findIdx?_cons, contains_blanks, hfront]
      rfl
    have hlast := @findLastNotOf_concat init d hd
    have hlast' : findLastNotOf (text " \t") (32 :: (init ++ [d])) = some (init.length + 1) :=
      @findLastNotOf_concat (32 :: init) d hd
    constructor
    · unfold readerTrim
      rw [hfront, findLastNotOf_breaks h.noReturn h.noFeed, hlast]
      simp
    · unfold readerTrim
      rw [hbehind, findLastNotOf_breaks hblank.1 hblank.2, hlast']
      simp

end trimming

section keys

variable {key value : Bytes}

/-- The text in front of the colon holds no carriage return, since the colon
stands behind it. -/
theorem noReturn_take {line : Bytes}
    (h13 : ∀ before behind, line = before ++ 13 :: behind → behind = []) {colon : ℕ}
    (hcolon : colon < (stripComment line).length) : 13 ∉ (stripComment line).take colon := by
  intro hmem
  obtain ⟨before, behind, hsplit⟩ := List.append_of_mem hmem
  have hline : line = before ++ 13 :: (behind ++ ((stripComment line).drop colon ++
      line.dropWhile (· != 35))) := by
    have hparts : (stripComment line).take colon ++ (stripComment line).drop colon ++
        line.dropWhile (· != 35) = line := by
      rw [List.take_append_drop]
      exact List.takeWhile_append_dropWhile
    rw [hsplit] at hparts
    simpa using hparts.symm
  have hnone := h13 _ _ hline
  simp only [List.append_eq_nil_iff, List.drop_eq_nil_iff] at hnone
  exact absurd hnone.2.1 (not_le.mpr hcolon)

/-- Writer and readers agree on the lines of a key. -/
theorem keys_agree (hkey : IsKey key) {line : Bytes} (h10 : 10 ∉ line)
    (h13 : ∀ before behind, line = before ++ 13 :: behind → behind = []) :
    (writerKey line == some key) = (readerKey line == some key) := by
  unfold writerKey readerKey readerEntry
  dsimp only
  cases hcolon : (stripComment line).findIdx? (· == 58) with
  | none => rfl
  | some colon =>
    obtain ⟨hlt, -, -⟩ := List.findIdx?_eq_some_iff_getElem.mp hcolon
    have hnoReturn := noReturn_take h13 hlt
    have hnoFeed : 10 ∉ (stripComment line).take colon := fun hmem =>
      h10 ((List.takeWhile_prefix _).subset (List.mem_of_mem_take hmem))
    simp only [Option.map_some]
    rcases trims_agree hnoReturn hnoFeed with hsame | ⟨hreader, hwriter, hblank⟩
    · rw [hsame]
    · rw [hreader, hwriter]
      have hempty : ([] == key) = false := beq_false_of_ne hkey.nonempty.symm
      have hother : ((stripComment line).take colon == key) = false := by
        refine beq_false_of_ne fun heq => ?_
        obtain ⟨c, rest, hcons⟩ := List.exists_cons_of_ne_nil hkey.nonempty
        have hc := hkey.front c (by rw [hcons]; rfl)
        rw [hblank c (by rw [heq, hcons]; exact List.mem_cons_self)] at hc
        cases hc
      simp [hempty, hother]

/-- The readers read the line written as key and value. -/
theorem readerEntry_yamlLine (hkey : IsKey key) (hvalue : IsField value) :
    readerEntry (yamlLine key value) = some (key, value) := by
  have hsep : text ": " = [58, 32] := by decide
  have hline : yamlLine key value = key ++ 58 :: 32 :: value := by
    rw [yamlLine, hsep]
    simp
  have hstrip : stripComment (yamlLine key value) = key ++ 58 :: 32 :: value := by
    have hcomment : 35 ∉ yamlLine key value := by
      rw [hline]
      simp [hkey.comment, hvalue.comment]
    rw [stripComment, ← hline, List.takeWhile_eq_self_iff]
    intro c hc
    have hne : c ≠ 35 := fun h => hcomment (h ▸ hc)
    simpa using hne
  unfold readerEntry
  dsimp only
  rw [hstrip, findIdx?_delim hkey.colon]
  simp [(readerTrim_field hkey.toIsField).1, (readerTrim_field hvalue).2]

end keys

section update

variable {content key value : Bytes}

theorem readerKey_yamlLine (hkey : IsKey key) (hvalue : IsField value) :
    readerKey (yamlLine key value) = some key := by
  rw [readerKey, readerEntry_yamlLine hkey hvalue, Option.map_some]

/-- The lines of the file that the writer writes. -/
theorem getLines_rewriteYaml (hcontent : ReturnsEndLines content) (hkey : IsKey key)
    (hvalue : IsField value) : getLines (rewriteYaml content key value) =
      overwrite readerKey key (yamlLine key value) (getLines content) := by
  have hspec := getLines_spec hcontent
  have hlines : rewriteYaml content key value =
      ((overwrite writerKey key (yamlLine key value) (getLines content)).map
        (· ++ text "\n")).flatten := by
    unfold rewriteYaml overwrite
    dsimp only
    split
    · rfl
    · next hfound =>
      have hsame : (getLines content).map (fun line =>
          if writerKey line == some key then yamlLine key value else line) = getLines content := by
        conv_rhs => rw [← List.map_id (getLines content)]
        refine List.map_congr_left fun line hline => if_neg fun hmeant => ?_
        exact hfound (List.any_eq_true.mpr ⟨line, hline, hmeant⟩)
      rw [hsame]
  have hagree : overwrite writerKey key (yamlLine key value) (getLines content) =
      overwrite readerKey key (yamlLine key value) (getLines content) :=
    overwrite_congr fun line hline => keys_agree hkey (hspec line hline).1 (hspec line hline).2
  rw [hlines, hagree]
  refine getLines_flatten fun line hline => ?_
  rcases mem_overwrite hline with rfl | hold
  · have hsep : text ": " = [58, 32] := by decide
    simp [yamlLine, hsep, hkey.noFeed, hvalue.noFeed]
  · exact (hspec line hold).1

/-- A field is read from the first line with its key. -/
theorem readYamlField_eq (content k default : Bytes) : readYamlField (some content) k default =
    ((((getLines content).find? (readerKey · == some k)).bind readerEntry).map Prod.snd).getD
      default := by
  have htest : (fun line => (readerEntry line).any (·.1 == k)) = (readerKey · == some k) := by
    funext line
    unfold readerKey
    cases readerEntry line with
    | none => rfl
    | some entry => rfl
  unfold readYamlField
  dsimp only
  rw [List.find?_filterMap, htest]
  cases ((getLines content).find? (readerKey · == some k)).bind readerEntry with
  | none => rfl
  | some entry => rfl

/-- What a line does to the map. -/
def storeEntry (out : StringMap Bytes) (line : Bytes) : StringMap Bytes :=
  match readerEntry line with
  | some (key, value) => if key.isEmpty then out else assign out key value
  | none => out

theorem parseFlatYaml_eq (content : Bytes) :
    parseFlatYaml (some content) = (getLines content).foldl storeEntry ∅ := rfl

/-- What a line leaves under a key depends on what is there. -/
theorem storeEntry_congr {m m' : StringMap Bytes} {k : Bytes} (line : Bytes)
    (h : m.lookup k = m'.lookup k) :
    (storeEntry m line).lookup k = (storeEntry m' line).lookup k := by
  unfold storeEntry
  split
  · split
    · exact h
    · rw [lookup_assign, lookup_assign, h]
  · exact h

/-- A line with another key leaves a key alone. -/
theorem storeEntry_skip {k : Bytes} (hk : k ≠ key) (m : StringMap Bytes) {line : Bytes}
    (hline : readerKey line = some key) : (storeEntry m line).lookup k = m.lookup k := by
  obtain ⟨entry, hentry, hfirst⟩ := Option.map_eq_some_iff.mp hline
  unfold storeEntry
  rw [hentry]
  dsimp only
  split
  · rfl
  · rw [lookup_assign, if_neg (hfirst ▸ hk)]

/-- The map under a key, line by line: lines with other keys leave it alone. -/
theorem lookup_parseFlatYaml (hcontent : ReturnsEndLines content) (hkey : IsKey key)
    (hvalue : IsField value) {k : Bytes} (hk : k ≠ key) :
    (parseFlatYaml (some (rewriteYaml content key value))).lookup k =
      (parseFlatYaml (some content)).lookup k := by
  have hothers := fun lines => @foldl_others _ _ _ _ _ readerKey key lines _ storeEntry
    (·.lookup k) (fun _ _ line h => storeEntry_congr line h)
    (fun m _ hline => storeEntry_skip hk m hline) ∅ ∅ rfl
  rw [parseFlatYaml_eq, parseFlatYaml_eq, getLines_rewriteYaml hcontent hkey hvalue, ← hothers,
    others_overwrite (readerKey_yamlLine hkey hvalue), hothers]

/-- The configuration depends on what the map holds for its keys. -/
theorem fromYaml_congr {file file' : Option Bytes}
    (h : ∀ k ∈ ruleKeys, (parseFlatYaml file).lookup k = (parseFlatYaml file').lookup k) :
    RuleConfig.fromYaml file = RuleConfig.fromYaml file' := by
  have hint : ∀ k ∈ ruleKeys, ∀ default,
      toInt (parseFlatYaml file) k default = toInt (parseFlatYaml file') k default := by
    intro k hk default
    rw [toInt, toInt, h k hk]
  simp only [ruleKeys, List.forall_mem_cons] at hint
  obtain ⟨h1, h2, h3, h4, h5, h6, h7, h8, h9, h10, h11, -⟩ := hint
  simp only [RuleConfig.fromYaml, h1, h2, h3, h4, h5, h6, h7, h8, h9, h10, h11]

/-- What one update of the configuration file does and leaves alone. -/
structure Updated (before after key value : Bytes) : Prop where
  /-- The value is read back. -/
  written : ∀ default, readYamlField (some after) key default = value
  /-- Other keys read as before. -/
  fields : ∀ k ≠ key, ∀ default,
    readYamlField (some after) k default = readYamlField (some before) k default
  /-- The rules keep their configuration unless the key is one of theirs. -/
  rules : key ∉ ruleKeys → RuleConfig.fromYaml (some after) = RuleConfig.fromYaml (some before)
  /-- The lines without the key are the same, in the same order. -/
  lines : others readerKey key (getLines after) = others readerKey key (getLines before)

theorem updated_rewriteYaml (hcontent : ReturnsEndLines content) (hkey : IsKey key)
    (hvalue : IsField value) : Updated content (rewriteYaml content key value) key value := by
  have hlines := getLines_rewriteYaml hcontent hkey hvalue
  have hnew := readerKey_yamlLine hkey hvalue
  refine ⟨fun default => ?_, fun k hk default => ?_, fun hrules => ?_, ?_⟩
  · rw [readYamlField_eq, hlines, find_overwrite hnew, Option.bind_some,
      readerEntry_yamlLine hkey hvalue]
    rfl
  · rw [readYamlField_eq, readYamlField_eq, hlines, ← find_others hk, others_overwrite hnew,
      find_others hk]
  · exact fromYaml_congr fun k hk =>
      lookup_parseFlatYaml hcontent hkey hvalue fun h => hrules (h ▸ hk)
  · rw [hlines, others_overwrite hnew]

end update

/-- A successful `write_yaml_field` writes one key and nothing else. -/
theorem writeYamlField_updates {content key value : Bytes} {outcome : WriteOutcome}
    (hcontent : ReturnsEndLines content) (hkey : IsKey key) (hvalue : IsField value)
    (hsuccess : (writeYamlField content key value outcome).1 = true) :
    Updated content (writeYamlField content key value outcome).2 key value := by
  unfold writeYamlField at hsuccess ⊢
  split at hsuccess
  · next hopens =>
    rw [if_pos hopens]
    exact updated_rewriteYaml hcontent hkey hvalue
  · cases hsuccess

/-- A file with a comment, both kinds of line breaks, an indented line for the
key, another one, and no line break at the end. -/
def mixedFile : Bytes :=
  text "# agent\x0d\n\tids_mode : builtin # old\x0d\nthreshold: 5\nids_mode:x"

theorem mixedFile_updated : ReturnsEndLines mixedFile ∧
    Updated mixedFile (writeYamlField mixedFile (text "ids_mode") (text "suricata") ⟨true, true⟩).2
      (text "ids_mode") (text "suricata") ∧
    (writeYamlField mixedFile (text "ids_mode") (text "suricata") ⟨true, true⟩).2 =
      text "# agent\x0d\nids_mode: suricata\nthreshold: 5\nids_mode: suricata\n" := by
  have hreturns : ReturnsEndLines mixedFile := by decide +kernel
  have hkey : IsKey (text "ids_mode") :=
    ⟨⟨by decide, by decide, by decide, by decide +kernel, by decide +kernel⟩, by decide, by decide⟩
  have hvalue : IsField (text "suricata") :=
    ⟨by decide, by decide, by decide, by decide +kernel, by decide +kernel⟩
  exact ⟨hreturns, writeYamlField_updates hreturns hkey hvalue rfl, by decide +kernel⟩

end Dlads.ConfigUpdate
