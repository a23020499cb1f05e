import Dlads.ConfigUpdate

/-!
# The two readers of the configuration file

`parse_flat_yaml` and `read_yaml_field` read a line alike. The one collects the
lines into a map, where a later line for a key overwrites an earlier one; the
other returns at the first line for its key. They therefore agree on a key
exactly if its first and its last line give it the same value.
-/

namespace Dlads.YamlReaders

open ByteText StringMaps YamlConfig ConfigUpdate

/-- A line defines a key for `read_yaml_field`. -/
def Defines (key line : Bytes) : Prop := ∃ value, readerEntry line = some (key, value)

/-- The value that a line gives a key. -/
def valueFor (key line : Bytes) : Option Bytes :=
  (readerEntry line).bind fun entry => if entry.1 == key then some entry.2 else none

/-- The values that the lines of a file give a key, in order. -/
def definitions (content key : Bytes) : List Bytes := (getLines content).filterMap (valueFor key)

/-- The two readers agree on a key. -/
structure Agree (content key : Bytes) : Prop where
  /-- The map has the key exactly if some line defines it. -/
  contains : key ∈ parseFlatYaml (some content) ↔ ∃ line ∈ getLines content, Defines key line
  /-- Both give it the same value. -/
  same : ∀ value, (parseFlatYaml (some content)).lookup key = some value →
    ∀ default, readYamlField (some content) key default = value

section readers

variable {key : Bytes}

theorem valueFor_eq_some {line value : Bytes} :
    valueFor key line = some value ↔ readerEntry line = some (key, value) := by
  unfold valueFor
  cases readerEntry line with
  | none => simp
  | some entry =>
    obtain ⟨k, v⟩ := entry
    by_cases hk : k = key
    · simp [hk]
    · simp [hk]

theorem defines_iff {line : Bytes} : Defines key line ↔ (valueFor key line).isSome := by
  rw [Option.isSome_iff_exists, Defines]
  simp only [valueFor_eq_some]

/-- What a line does to the map, under a key. -/
theorem lookup_storeEntry (hkey : key ≠ []) (m : StringMap Bytes) (line : Bytes) :
    (storeEntry m line).lookup key = (valueFor key line).or (m.lookup key) := by
  unfold storeEntry valueFor
  cases readerEntry line with
  | none => rfl
  | some entry =>
    obtain ⟨k, v⟩ := entry
    dsimp only [Option.bind_some]
    by_cases hk : k = key
    · have hne : k.isEmpty = false := by simpa [hk] using hkey
      rw [hne, if_neg Bool.false_ne_true, lookup_assign, if_pos hk.symm, if_pos (by simpa using hk)]
      rfl
    · have hother : (k == key) = false := by simpa using hk
      rw [hother]
      split
      · rfl
      · rw [lookup_assign, if_neg (Ne.symm hk)]
        rfl

/-- The map keeps the last value. -/
theorem lookup_foldl_storeEntry (hkey : key ≠ []) (lines : List Bytes) (m : StringMap Bytes) :
    (lines.foldl storeEntry m).lookup key =
      (lines.filterMap (valueFor key)).getLast?.or (m.lookup key) := by
  induction lines generalizing m with
  | nil => rfl
  | cons line rest ih =>
    rw [List.foldl_cons, ih, lookup_storeEntry hkey, List.filterMap_cons]
    cases valueFor key line with
    | none => rfl
    | some v =>
      rw [List.getLast?_cons]
      cases (rest.filterMap (valueFor key)).getLast? with
      | none => rfl
      | some w => rfl

theorem lookup_parseFlatYaml_eq (hkey : key ≠ []) (content : Bytes) :
    (parseFlatYaml (some content)).lookup key = (definitions content key).getLast? := by
  rw [parseFlatYaml_eq, lookup_foldl_storeEntry hkey]
  exact Option.or_none

/-- `read_yaml_field` takes the first value. -/
theorem readYamlField_head (content key default : Bytes) :
    readYamlField (some content) key default = (definitions content key).head?.getD default := by
  have hfirst : ((getLines content).filterMap readerEntry).find? (·.1 == key) =
      ((definitions content key).head?).map fun value => (key, value) := by
    unfold definitions
    induction getLines content with
    | nil => rfl
    | cons line rest ih =>
      rw [List.filterMap_cons, List.filterMap_cons]
      cases hentry : readerEntry line with
      | none => simpa [valueFor, hentry] using ih
      | some entry =>
        obtain ⟨k, v⟩ := entry
        by_cases hk : k = key
        · simp [valueFor, hentry, hk]
        · simpa [valueFor, hentry, hk] using ih
  unfold readYamlField
  dsimp only
  rw [hfirst]
  cases (definitions content key).head? with
  | none => rfl
  | some value => rfl

/-- A key is defined exactly if it has values. -/
theorem exists_defines_iff (content key : Bytes) :
    (∃ line ∈ getLines content, Defines key line) ↔ definitions content key ≠ [] := by
  simp only [definitions, ne_eq, List.filterMap_eq_nil_iff, defines_iff, not_forall,
    ← Option.isSome_iff_ne_none, exists_prop]

end readers

/-- The readers agree on a key exactly if its first and its last line give it
the same value. -/
theorem agree_iff {content key : Bytes} (hkey : key ≠ []) : Agree content key ↔
    (definitions content key).head? = (definitions content key).getLast? := by
  have hmap := lookup_parseFlatYaml_eq hkey content
  constructor
  · intro h
    cases hlast : (definitions content key).getLast? with
    | none => rw [List.getLast?_eq_none_iff.mp hlast, List.head?_nil]
    | some value =>
      obtain ⟨first, hfirst⟩ : ∃ first, (definitions content key).head? = some first := by
        cases hdefs : definitions content key with
        | nil =>
          rw [hdefs] at hlast
          cases hlast
        | cons v rest => exact ⟨v, rfl⟩
      have hsame := h.same value (hmap.trans hlast) []
      rw [readYamlField_head, hfirst, Option.getD_some] at hsame
      rw [hfirst, hsame]
  · intro h
    refine ⟨?_, fun value hvalue default => ?_⟩
    · rw [exists_defines_iff, Finmap.mem_iff, hmap, ← Option.isSome_iff_exists]
      simp
    · rw [readYamlField_head, h, ← hmap, hvalue, Option.getD_some]

/-- A key that the shipped file defines twice, each time alike. -/
def shippedFile : Bytes :=
  text "eve_json_path: /var/log/suricata/eve.json\n\n# eve_json_path: eve.json\n" ++
    text "ids_mode: suricata\neve_json_path: /var/log/suricata/eve.json\n"

theorem agree_shipped : Agree shippedFile (text "eve_json_path") :=
  (agree_iff (by decide)).mpr (by decide +kernel)

/-- A threshold that is raised further down. -/
def raisedThreshold : Bytes := text "threshold: 5\nthreshold: 10\n"

/-- The map has the last value, and `read_yaml_field` returns the first. -/
theorem raisedThreshold_differs :
    (parseFlatYaml (some raisedThreshold)).lookup (text "threshold") = some (text "10") ∧
    readYamlField (some raisedThreshold) (text "threshold") [] = text "5" ∧
    ¬Agree raisedThreshold (text "threshold") := by
  have hmap : (parseFlatYaml (some raisedThreshold)).lookup (text "threshold") =
      some (text "10") := by
    decide +kernel
  have hfield : readYamlField (some raisedThreshold) (text "threshold") [] = text "5" := by
    decide +kernel
  refine ⟨hmap, hfield, fun h => ?_⟩
  have hsame := h.same (text "10") hmap []
  rw [hfield] at hsame
  exact absurd hsame (by decide)

end Dlads.YamlReaders
