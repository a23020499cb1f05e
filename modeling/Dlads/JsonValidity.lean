import Dlads.JsonReading

/-!
# Strings of a JSON text

A text that is read as JSON is valid UTF-8, and so is every string that the
reader takes out of it. The reader cuts the text at ASCII bytes only, and what
an escape stands for is a character: surrogates are read in pairs or not at
all.
-/

namespace Dlads.JsonValidity

open ByteText Utf8Text JsonValue JsonReading

section points

/-- A code point is encoded as its character is. -/
theorem encodePoint_eq {n : ℕ} (h : n.isValidChar) :
    encodePoint n = String.utf8EncodeChar (Char.ofNat n) := by
  have hlt : n < 1114112 := by
    unfold Nat.isValidChar at h
    omega
  have hval : (Char.ofNat n).val.toNat = n := by
    rw [Char.ofNat, dif_pos h]
    rfl
  unfold encodePoint String.utf8EncodeChar
  rw [hval]
  have h128 : n ≤ 127 ↔ n < 128 := by omega
  have h2048 : n ≤ 2047 ↔ n < 2048 := by omega
  have h65536 : n ≤ 65535 ↔ n < 65536 := by omega
  simp only [h128, h2048, h65536]
  split_ifs
  · rfl
  · have hhigh : n / 64 % 32 = n / 64 := Nat.mod_eq_of_lt (by omega)
    simp only [hhigh, Nat.add_comm]
  · have hhigh : n / 4096 % 16 = n / 4096 := Nat.mod_eq_of_lt (by omega)
    simp only [hhigh, Nat.add_comm]
  · simp only [Nat.add_comm]

theorem isUtf8_encodePoint {n : ℕ} (h : n.isValidChar) : IsUtf8 (encodePoint n) :=
  ⟨[Char.ofNat n], by rw [encodePoint_eq h, List.flatMap_singleton]⟩

/-- Four hexadecimal digits make a number of 16 bits. -/
theorem hexNumber_lt (digits : Bytes) : hexNumber digits < 16 ^ digits.length := by
  have hdigit : ∀ c : UInt8, (hexValue c).getD 0 < 16 := by
    have hall : ∀ c : Fin 256, (hexValue (UInt8.ofNat c)).getD 0 < 16 := by decide +kernel
    intro c
    simpa using hall ⟨c.toNat, c.toNat_lt⟩
  have hfold : ∀ n : ℕ, digits.foldl (fun n c => n * 16 + (hexValue c).getD 0) n <
      (n + 1) * 16 ^ digits.length := by
    induction digits with
    | nil => exact fun n => by simp
    | cons c rest ih =>
      intro n
      rw [List.foldl_cons, List.length_cons, pow_succ]
      have hc := hdigit c
      calc _ < (n * 16 + (hexValue c).getD 0 + 1) * 16 ^ rest.length := ih _
        _ ≤ ((n + 1) * 16) * 16 ^ rest.length := Nat.mul_le_mul_right _ (by omega)
        _ = (n + 1) * (16 ^ rest.length * 16) := by rw [Nat.mul_assoc, Nat.mul_comm 16]
  simpa [hexNumber] using hfold 0

end points

section delimiters

variable {c : UInt8}

/-- A test that only ASCII bytes pass. -/
theorem low_of_test {p : UInt8 → Bool}
    (hall : ∀ c : Fin 256, p (UInt8.ofNat c) = true → UInt8.ofNat c < 128) (h : p c = true) :
    c < 128 := by
  have hc := hall ⟨c.toNat, c.toNat_lt⟩
  rw [UInt8.ofNat_toNat] at hc
  exact hc h

theorem isBlank_low (h : isBlank c = true) : c < 128 := low_of_test (by decide +kernel) h

theorem isNumeric_low (h : isNumeric c = true) : c < 128 := low_of_test (by decide +kernel) h

theorem hexValue_low (h : ¬(hexValue c).isNone = true) : c < 128 :=
  low_of_test (p := fun c => (hexValue c).isSome) (by decide +kernel)
    (Option.isSome_iff_ne_none.mpr (by simpa using h))

theorem openValue_low {stack : List Frame} {r' : Reader} (h : openValue stack c = some r') :
    c < 128 := by
  unfold openValue at h
  split_ifs at h with h1 h2 h3 h4 h5 h6 h7
  · exact h1 ▸ by decide
  · exact h2 ▸ by decide
  · exact h3 ▸ by decide
  · exact h4 ▸ by decide
  · exact h5 ▸ by decide
  · exact h6 ▸ by decide
  · exact low_of_test (p := fun c => decide (c = 45) || isDigit c) (by decide +kernel) h7

theorem unescape_low {d : UInt8} (h : unescape c = some d) : c < 128 ∧ d < 128 := by
  unfold unescape at h
  split_ifs at h with h1 h2 h3 h4 h5 h6 h7 h8
  all_goals
    cases h
    subst_vars
    decide

end delimiters

section reader

/-- The first half of a pair of surrogates. -/
def IsHigh (unit : ℕ) : Prop := 0xd800 ≤ unit ∧ unit < 0xdc00

/-- What is being read is valid, with what is left of the text. -/
def Valid (s : Bytes) : Mode → Prop
  | .after value => value.AllUtf8 ∧ IsUtf8 s
  | .word rest value => IsAscii rest ∧ value.AllUtf8 ∧ IsUtf8 s
  | .string chars => IsUtf8 (chars ++ s)
  | .escape chars => IsUtf8 chars ∧ IsUtf8 s
  | .hex chars high digits =>
    IsUtf8 chars ∧ IsUtf8 s ∧ digits.length ≤ 3 ∧ ∀ unit ∈ high, IsHigh unit
  | .low chars high => IsUtf8 chars ∧ IsUtf8 s ∧ IsHigh high
  | .lowEscape chars high => IsUtf8 chars ∧ IsUtf8 s ∧ IsHigh high
  | _ => IsUtf8 s

/-- The strings of what is open are valid. -/
def ValidStack (stack : List Frame) : Prop := ∀ frame ∈ stack, ∀ t ∈ frame.strings, IsUtf8 t

variable {stack : List Frame} {r' : Reader} {c : UInt8} {s : Bytes}

theorem validStack_cons {frame : Frame} :
    ValidStack (frame :: stack) ↔ (∀ t ∈ frame.strings, IsUtf8 t) ∧ ValidStack stack :=
  List.forall_mem_cons

/-- The strings of a member that is set. -/
theorem mem_setMember {name t : Bytes} {value : Json} {members : List (Bytes × Json)}
    (h : t ∈ memberStrings (setMember name value members)) :
    t = name ∨ t ∈ value.strings ∨ t ∈ memberStrings members := by
  induction members with
  | nil => simpa [setMember, memberStrings] using h
  | cons m rest ih =>
    unfold setMember at h
    split_ifs at h with hlt heq
    · simpa [memberStrings] using h
    · simp only [memberStrings, List.mem_cons, List.mem_append] at h ⊢
      tauto
    · simp only [memberStrings, List.mem_cons, List.mem_append] at h ⊢
      rcases h with h | h | h
      · exact .inr (.inr (.inl h))
      · exact .inr (.inr (.inr (.inl h)))
      · rcases ih h with h | h | h
        · exact .inl h
        · exact .inr (.inl h)
        · exact .inr (.inr (.inr (.inr h)))

/-- The end of a string. -/
theorem valid_closeString (hstack : ValidStack stack) {chars : Bytes} (hchars : IsUtf8 chars)
    (hs : IsUtf8 s) : ValidStack (closeString stack chars).stack ∧
      Valid s (closeString stack chars).mode := by
  unfold closeString
  split
  · next before rest =>
    obtain ⟨hbefore, hrest⟩ := validStack_cons.mp hstack
    refine ⟨validStack_cons.mpr ⟨?_, hrest⟩, hs⟩
    intro t ht
    rcases List.mem_append.mp ht with ht | ht
    · exact hbefore t ht
    · exact (List.mem_singleton.mp ht) ▸ hchars
  · refine ⟨hstack, ?_, hs⟩
    intro t ht
    rw [Json.strings] at ht
    exact (List.mem_singleton.mp ht) ▸ hchars

/-- The first byte of a value. -/
theorem valid_openValue (hstack : ValidStack stack) (hs : IsUtf8 (c :: s))
    (h : openValue stack c = some r') : ValidStack r'.stack ∧ Valid s r'.mode := by
  have hrest : IsUtf8 s := (isUtf8_cons (openValue_low h) s).mp hs
  have hlit : ∀ t ∈ ([] : List Bytes), IsUtf8 t := fun t ht => absurd ht List.not_mem_nil
  unfold openValue at h
  split_ifs at h <;> cases h
  · exact ⟨hstack, hrest⟩
  · exact ⟨validStack_cons.mpr ⟨hlit, hstack⟩, hrest⟩
  · exact ⟨validStack_cons.mpr ⟨hlit, hstack⟩, hrest⟩
  · exact ⟨hstack, isAscii_of_all (by decide), hlit, hrest⟩
  · exact ⟨hstack, isAscii_of_all (by decide), hlit, hrest⟩
  · exact ⟨hstack, isAscii_of_all (by decide), hlit, hrest⟩
  · exact ⟨hstack, hrest⟩

/-- The end of an array or an object that has nothing in it. -/
theorem valid_closeEmpty (hstack : ValidStack stack) (hs : IsUtf8 s)
    (h : closeEmpty stack = some r') : ValidStack r'.stack ∧ Valid s r'.mode := by
  have hlit : ∀ t ∈ ([] : List Bytes), IsUtf8 t := fun t ht => absurd ht List.not_mem_nil
  unfold closeEmpty at h
  split at h
  · cases h
    exact ⟨(validStack_cons.mp hstack).2, hlit, hs⟩
  · cases h
    exact ⟨(validStack_cons.mp hstack).2, hlit, hs⟩
  · cases h

/-- The byte behind a value. -/
theorem valid_closeValue (hstack : ValidStack stack) {value : Json} (hvalue : value.AllUtf8)
    (hs : IsUtf8 (c :: s)) (h : closeValue stack value c = some r') :
    ValidStack r'.stack ∧ Valid s r'.mode := by
  have hrest : c < 128 → IsUtf8 s := fun hlow => (isUtf8_cons hlow s).mp hs
  unfold closeValue at h
  split at h
  · next hblank =>
    cases h
    exact ⟨hstack, hvalue, hrest (isBlank_low hblank)⟩
  · split at h
    · next before rest =>
      obtain ⟨hbefore, hopen⟩ := validStack_cons.mp hstack
      have hitems : ∀ t ∈ itemStrings (before ++ [value]), IsUtf8 t := by
        intro t ht
        rw [itemStrings_append] at ht
        exact (List.mem_append.mp ht).elim (hbefore t) (hvalue t)
      split_ifs at h with hcomma hclose
      · cases h
        exact ⟨validStack_cons.mpr ⟨hitems, hopen⟩, hrest (hcomma ▸ by decide)⟩
      · cases h
        refine ⟨hopen, ?_, hrest (hclose ▸ by decide)⟩
        intro t ht
        rw [Json.strings] at ht
        exact hitems t ht
    · next before name rest =>
      obtain ⟨hbefore, hopen⟩ := validStack_cons.mp hstack
      have hmembers : ∀ t ∈ memberStrings (setMember name value before), IsUtf8 t := by
        intro t ht
        rcases mem_setMember ht with rfl | ht | ht
        · exact hbefore t (List.mem_append_right _ (List.mem_singleton_self t))
        · exact hvalue t ht
        · exact hbefore t (List.mem_append_left _ ht)
      split_ifs at h with hcomma hclose
      · cases h
        exact ⟨validStack_cons.mpr ⟨hmembers, hopen⟩, hrest (hcomma ▸ by decide)⟩
      · cases h
        refine ⟨hopen, ?_, hrest (hclose ▸ by decide)⟩
        intro t ht
        rw [Json.strings] at ht
        exact hmembers t ht
    · cases h

/-- A code unit is a character, or half of one. -/
theorem valid_pushUnit {chars digits : Bytes} {high : Option ℕ} {mode : Mode}
    (hchars : IsUtf8 chars) (hs : IsUtf8 s) (hdigits : digits.length = 4)
    (hhigh : ∀ unit ∈ high, IsHigh unit)
    (h : pushUnit chars high (hexNumber digits) = some mode) : Valid s mode := by
  have hlt := hexNumber_lt digits
  rw [hdigits] at hlt
  have hchar : ∀ n : ℕ, n.isValidChar → IsUtf8 ((chars ++ encodePoint n) ++ s) := fun n hn =>
    (hchars.append (isUtf8_encodePoint hn)).append hs
  unfold pushUnit at h
  cases high with
  | none =>
    dsimp only at h
    split_ifs at h with h1 h2
    · cases h
      exact ⟨hchars, hs, h1⟩
    · cases h
      refine hchar _ ?_
      unfold Nat.isValidChar
      omega
  | some high =>
    dsimp only at h
    split_ifs at h with h1
    cases h
    obtain ⟨hlow, htop⟩ := hhigh high rfl
    refine hchar _ ?_
    unfold Nat.isValidChar
    omega

/-- The reader takes a byte of a valid text. -/
theorem valid_step {r : Reader} (hstack : ValidStack r.stack) (hmode : Valid (c :: s) r.mode)
    (h : r.step c = some r') : ValidStack r'.stack ∧ Valid s r'.mode := by
  obtain ⟨stack, mode⟩ := r
  unfold Reader.step at h
  cases mode with
  | value =>
    dsimp only at h
    split_ifs at h with hb
    · cases h
      exact ⟨hstack, (isUtf8_cons (isBlank_low hb) s).mp hmode⟩
    · exact valid_openValue hstack hmode h
  | firstItem =>
    dsimp only at h
    split_ifs at h with hb hclose
    · cases h
      exact ⟨hstack, (isUtf8_cons (isBlank_low hb) s).mp hmode⟩
    · exact valid_closeEmpty hstack ((isUtf8_cons (hclose ▸ by decide) s).mp hmode) h
    · exact valid_openValue hstack hmode h
  | firstMember =>
    dsimp only at h
    split_ifs at h with hb hclose hquote
    · cases h
      exact ⟨hstack, (isUtf8_cons (isBlank_low hb) s).mp hmode⟩
    · exact valid_closeEmpty hstack ((isUtf8_cons (hclose ▸ by decide) s).mp hmode) h
    · cases h
      exact ⟨hstack, (isUtf8_cons (hquote ▸ by decide) s).mp hmode⟩
  | name =>
    dsimp only at h
    split_ifs at h with hb hquote
    · cases h
      exact ⟨hstack, (isUtf8_cons (isBlank_low hb) s).mp hmode⟩
    · cases h
      exact ⟨hstack, (isUtf8_cons (hquote ▸ by decide) s).mp hmode⟩
  | colon =>
    dsimp only at h
    split_ifs at h with hb hcolon
    · cases h
      exact ⟨hstack, (isUtf8_cons (isBlank_low hb) s).mp hmode⟩
    · cases h
      exact ⟨hstack, (isUtf8_cons (hcolon ▸ by decide) s).mp hmode⟩
  | after value => exact valid_closeValue hstack hmode.1 hmode.2 h
  | string chars =>
    dsimp only at h
    have hcut : c < 128 → IsUtf8 chars ∧ IsUtf8 s := fun hlow => (isUtf8_cut hlow chars s).mp hmode
    split_ifs at h with hquote hback hcontrol
    · cases h
      obtain ⟨hchars, hs⟩ := hcut (hquote ▸ by decide)
      exact valid_closeString hstack hchars hs
    · cases h
      exact ⟨hstack, hcut (hback ▸ by decide)⟩
    · cases h
      refine ⟨hstack, ?_⟩
      change IsUtf8 (chars ++ [c] ++ s)
      rwa [List.append_assoc]
  | escape chars =>
    dsimp only at h
    split_ifs at h with hu
    · cases h
      exact ⟨hstack, hmode.1, (isUtf8_cons (hu ▸ by decide) s).mp hmode.2, Nat.zero_le 3,
        fun unit hunit => nomatch hunit⟩
    · obtain ⟨d, hd, rfl⟩ := Option.map_eq_some_iff.mp h
      have hlow := unescape_low hd
      refine ⟨hstack, ?_⟩
      change IsUtf8 (chars ++ [d] ++ s)
      rw [List.append_assoc]
      exact (isUtf8_cut hlow.2 chars s).mpr ⟨hmode.1, (isUtf8_cons hlow.1 s).mp hmode.2⟩
  | hex chars high digits =>
    obtain ⟨hchars, hs, hlength, hhigh⟩ := hmode
    dsimp only at h
    split_ifs at h with hnone hmore
    · cases h
      have hlow := hexValue_low hnone
      refine ⟨hstack, hchars, (isUtf8_cons hlow s).mp hs, ?_, hhigh⟩
      rw [List.length_append, List.length_singleton]
      omega
    · obtain ⟨mode, hpush, rfl⟩ := Option.map_eq_some_iff.mp h
      have hlow := hexValue_low hnone
      refine ⟨hstack, valid_pushUnit hchars ((isUtf8_cons hlow s).mp hs) ?_ hhigh hpush⟩
      rw [List.length_append, List.length_singleton]
      omega
  | low chars high =>
    dsimp only at h
    split_ifs at h with hback
    cases h
    exact ⟨hstack, hmode.1, (isUtf8_cons (hback ▸ by decide) s).mp hmode.2.1, hmode.2.2⟩
  | lowEscape chars high =>
    dsimp only at h
    split_ifs at h with hu
    cases h
    refine ⟨hstack, hmode.1, (isUtf8_cons (hu ▸ by decide) s).mp hmode.2.1, Nat.zero_le 3, ?_⟩
    intro unit hunit
    cases hunit
    exact hmode.2.2
  | word rest value =>
    cases rest with
    | nil => exact valid_closeValue hstack hmode.2.1 hmode.2.2 h
    | cons d rest =>
      dsimp only at h
      split_ifs at h with hd
      cases h
      obtain ⟨hascii, hvalue, hs⟩ := hmode
      have hlow : c < 128 := hd ▸ hascii d List.mem_cons_self
      exact ⟨hstack, fun e he => hascii e (List.mem_cons_of_mem d he), hvalue,
        (isUtf8_cons hlow s).mp hs⟩
  | number token =>
    dsimp only at h
    split_ifs at h with hnumeric
    · cases h
      exact ⟨hstack, (isUtf8_cons (isNumeric_low hnumeric) s).mp hmode⟩
    · obtain ⟨value, hvalue, hclose⟩ := Option.bind_eq_some_iff.mp h
      refine valid_closeValue hstack ?_ hmode hclose
      intro t ht
      rw [strings_numberValue hvalue] at ht
      cases ht

theorem valid_run {r : Reader} (hstack : ValidStack r.stack) (hmode : Valid s r.mode)
    (h : r.run s = some r') : ValidStack r'.stack ∧ Valid [] r'.mode := by
  induction s generalizing r with
  | nil =>
    cases h
    exact ⟨hstack, hmode⟩
  | cons c s ih =>
    obtain ⟨next, hstep, hrest⟩ := Option.bind_eq_some_iff.mp h
    obtain ⟨hnext, hmode⟩ := valid_step hstack hmode hstep
    exact ih hnext hmode hrest

/-- Every string of a JSON text is valid. -/
theorem allUtf8_readJson {j : Json} (h : readJson s = some j) : j.AllUtf8 := by
  unfold readJson at h
  split at h
  · next hs =>
    obtain ⟨r, hrun, hfinish⟩ := Option.bind_eq_some_iff.mp h
    obtain ⟨-, hmode⟩ :=
      valid_run (r := ⟨[], .value⟩) (fun frame hf => absurd hf List.not_mem_nil) hs hrun
    unfold Reader.finish at hfinish
    split at hfinish
    · next value hvalue =>
      cases hfinish
      rw [hvalue] at hmode
      exact hmode.1
    · next value hvalue =>
      cases hfinish
      rw [hvalue] at hmode
      exact hmode.2.1
    · intro t ht
      rw [strings_numberValue hfinish] at ht
      cases ht
    · cases hfinish
  · cases h

end reader

end Dlads.JsonValidity
