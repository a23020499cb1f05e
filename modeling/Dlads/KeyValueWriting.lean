import Dlads.KeyValueScan

/-!
# Writing key-value pairs

Pairs written one after another, each with an unquoted or a quoted value and a
blank between them, are what `extract_kv` reads: the loop is back at the start
of a key behind every value, whatever the value holds.
-/

namespace Dlads.KeyValueWriting

open ByteText StringMaps Records TextSearch LineParsing KeyValueScan

/-- A value as it can be written. -/
inductive Value
  /-- Without quotation marks: no white space, no comma, and no quotation mark
  at the front. -/
  | bare (value : Bytes) (nonempty : value ≠ []) (chars : ∀ c ∈ value, isValueChar c = true)
    (front : value.head? ≠ some 34)
  /-- In quotation marks, without one inside. -/
  | quoted (value : Bytes) (chars : 34 ∉ value)

/-- The value that is meant. -/
def Value.content : Value → Bytes
  | .bare value _ _ _ => value
  | .quoted value _ => value

/-- The value as it stands behind the equals sign. -/
def Value.text : Value → Bytes
  | .bare value _ _ _ => value
  | .quoted value _ => 34 :: (value ++ [34])

/-- A pair to be written. -/
structure Item where
  /-- The key. -/
  key : Bytes
  /-- The value. -/
  value : Value
  /-- The key starts with a letter or an underscore and goes on with letters,
  digits, underscores and hyphens. -/
  isKey : IsKey key

/-- A pair as it is written. -/
def Item.text (item : Item) : Bytes := item.key ++ 61 :: item.value.text

/-- The pairs with single blanks between them. -/
def joinItems : List Item → Bytes
  | [] => []
  | [item] => item.text
  | item :: rest => item.text ++ 32 :: joinItems rest

/-- The map from each key in lower case to the value it is first written with. -/
def firstWins : List Item → StringMap Bytes
  | [] => ∅
  | item :: rest => assign (firstWins rest) (item.key.map toLower) item.value.content

section scanning

/-- What can stand behind a value: nothing, or a blank. -/
def Ends (t : Bytes) : Prop := t = [] ∨ ∃ u, t = 32 :: u

/-- An unquoted value is read up to what ends it. -/
theorem value_run {v : Bytes} (hv : ∀ c ∈ v, isValueChar c = true) {t : Bytes} (ht : Ends t) :
    (v ++ t).takeWhile isValueChar = v ∧ (v ++ t).dropWhile isValueChar = t := by
  rcases ht with rfl | ⟨u, rfl⟩
  · rw [List.append_nil]
    exact ⟨List.takeWhile_eq_self_iff.mpr hv, List.dropWhile_eq_nil_iff.mpr hv⟩
  · exact ⟨takeWhile_run_sep hv (by decide) u, dropWhile_run_sep hv (by decide) u⟩

/-- A written pair at the front of a text is the first that is read, and the
reading goes on behind it. -/
theorem kvPairs_item (item : Item) {t : Bytes} (ht : Ends t) :
    kvPairs (item.text ++ t) = (item.key, item.value.content) :: kvPairs t := by
  unfold Item.text
  cases item.value with
  | bare v hne hchars hfront =>
    obtain ⟨htake, hdrop⟩ := value_run hchars ht
    cases v with
    | nil => exact absurd rfl hne
    | cons c v =>
      have hc : c ≠ 34 := by simpa using hfront
      have hsplit : item.key ++ 61 :: (Value.bare (c :: v) hne hchars hfront).text ++ t =
          item.key ++ 61 :: c :: (v ++ t) := by
        rw [Value.text, List.append_assoc]
        rfl
      rw [hsplit, kvPairs_unquoted item.isKey hc, ← List.cons_append, htake, hdrop]
      rfl
  | quoted v hchars =>
    have hrun : ∀ c ∈ v, (c != 34) = true := by
      intro c hc
      have hne : c ≠ 34 := fun h => hchars (h ▸ hc)
      simpa using hne
    have hsplit : item.key ++ 61 :: (Value.quoted v hchars).text ++ t =
        item.key ++ 61 :: 34 :: (v ++ 34 :: t) := by
      simp [Value.text]
    rw [hsplit, kvPairs_quoted item.isKey, takeWhile_run_sep hrun (by decide),
      dropWhile_run_sep hrun (by decide)]
    rfl

/-- The pairs of the written text are the pairs that were written. -/
theorem kvPairs_joinItems (items : List Item) :
    kvPairs (joinItems items) = items.map fun item => (item.key, item.value.content) := by
  induction items with
  | nil => rfl
  | cons item rest ih =>
    cases rest with
    | nil =>
      have hone := kvPairs_item item (t := []) (.inl rfl)
      rw [List.append_nil] at hone
      exact hone
    | cons next rest =>
      rw [joinItems, kvPairs_item item (.inr ⟨_, rfl⟩), kvPairs_skip (by decide), ih]
      · rfl
      · exact List.cons_ne_nil next rest

end scanning

/-- The first value of a key among the pairs is what the map holds. -/
theorem firstValue_items (items : List Item) (key : Bytes) :
    firstValue key (items.map fun item => (item.key, item.value.content)) =
      (firstWins items).lookup key := by
  induction items with
  | nil => rfl
  | cons item rest ih =>
    rw [firstWins, lookup_assign, ← ih, List.map_cons, firstValue, List.find?_cons]
    by_cases hk : key = item.key.map toLower
    · rw [if_pos hk, hk]
      simp
    · have hne : (item.key.map toLower == key) = false := by simpa using Ne.symm hk
      rw [if_neg hk, hne]
      rfl

/-- Reading inverts writing: an event without fields gets exactly the map of
the first values, an event with fields keeps them and gets the others, and
nothing else changes. -/
theorem extractKv_joinItems (items : List Item) (ev : LogEvent) :
    (extractKv (joinItems items) { ev with fields := ∅ }).fields = firstWins items ∧
      (∀ key, (extractKv (joinItems items) ev).fields.lookup key =
        (ev.fields.lookup key).or ((firstWins items).lookup key)) ∧
      extractKv (joinItems items) ev =
        { ev with fields := (extractKv (joinItems items) ev).fields } := by
  have hlookup : ∀ (ev : LogEvent) key, (extractKv (joinItems items) ev).fields.lookup key =
      (ev.fields.lookup key).or ((firstWins items).lookup key) := by
    intro ev key
    rw [lookup_extractKv, kvPairs_joinItems, firstValue_items]
  refine ⟨Finmap.ext_lookup fun key => ?_, hlookup ev, rfl⟩
  rw [hlookup, Finmap.lookup_empty, Option.none_or]

end Dlads.KeyValueWriting
