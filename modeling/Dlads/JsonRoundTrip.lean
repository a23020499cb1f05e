import Mathlib.Data.List.Sort
import Dlads.JsonByHand

/-!
# Printed JSON is read back

The reader takes the compact text of a value back to the value. It does so
from any place where a value may stand, whatever is open around it, so that
the proof follows the value and not the text. The members of an object have to
stand in the strict order of their names, as those of an ordered map do, and
how a floating-point number is printed has to be one of the ways to write it.
-/

namespace Dlads.JsonRoundTrip

open ByteText Utf8Text JsonValue JsonPrinting JsonReading JsonByHand

/-- A number is printed as a number's text that denotes it. -/
structure PrintsReal (real : ℚ → Bytes) (q : ℚ) : Prop where
  /-- The text consists of what occurs in numbers. -/
  numeric : ∀ c ∈ real q, isNumeric c = true
  /-- It begins as a number does. -/
  opens : ∃ c rest, real q = c :: rest ∧ (c = 45 ∨ isDigit c = true)
  /-- It denotes the number. -/
  value : numberValue (real q) = some (.real q)

/-- A value whose numbers the printer can print. -/
def Tidy (real : ℚ → Bytes) : Json → Prop := Formed (fun _ => True) (PrintsReal real)

/-- Each item of an array is tidy. -/
def TidyItems (real : ℚ → Bytes) : List Json → Prop :=
  FormedItems (fun _ => True) (PrintsReal real)

/-- The value of each member of an object is tidy. -/
def TidyMembers (real : ℚ → Bytes) : List (Bytes × Json) → Prop :=
  FormedMembers (fun _ => True) (PrintsReal real)

section reader

theorem run_append (r : Reader) (s t : Bytes) : r.run (s ++ t) = (r.run s).bind fun r => r.run t := by
  induction s generalizing r with
  | nil => rfl
  | cons c s ih =>
    rw [List.cons_append, Reader.run, Reader.run]
    cases r.step c with
    | none => rfl
    | some r' => exact ih r'

/-- The reader has seen a value: any byte that is in no number closes it, and
so does the end of the text. -/
def Behind (stack : List Frame) (j : Json) (r : Reader) : Prop :=
  (∀ c, isNumeric c = false → r.step c = closeValue stack j c) ∧
    (stack = [] → r.finish = some j)

/-- The reader takes a text for a value. -/
def Takes (stack : List Frame) (s : Bytes) (j : Json) : Prop :=
  ∃ r, (⟨stack, .value⟩ : Reader).run s = some r ∧ Behind stack j r

variable {stack : List Frame} {s t : Bytes} {j : Json}

theorem behind_after (stack : List Frame) (j : Json) : Behind stack j ⟨stack, .after j⟩ :=
  ⟨fun _ _ => rfl, fun h => by rw [h]; rfl⟩

/-- A value that was taken is closed by the byte behind it. -/
theorem Takes.run_cons (h : Takes stack s j) {c : UInt8} (hc : isNumeric c = false) (t : Bytes) :
    (⟨stack, .value⟩ : Reader).run (s ++ c :: t) = (closeValue stack j c).bind fun r => r.run t := by
  obtain ⟨r, hrun, hstep, -⟩ := h
  rw [run_append, hrun, Option.bind_some, Reader.run, hstep c hc]

/-- The rest of a literal is read to its end. -/
theorem run_word (stack : List Frame) (w : Bytes) (j : Json) :
    (⟨stack, .word w j⟩ : Reader).run w = some ⟨stack, .word [] j⟩ := by
  induction w with
  | nil => rfl
  | cons d w ih =>
    have hstep : (⟨stack, .word (d :: w) j⟩ : Reader).step d = some ⟨stack, .word w j⟩ := by
      simp [Reader.step]
    rw [Reader.run, hstep, Option.bind_some, ih]

theorem takes_word {c : UInt8} {w : Bytes}
    (hopen : (⟨stack, .value⟩ : Reader).step c = some ⟨stack, .word w j⟩) :
    Takes stack (c :: w) j := by
  refine ⟨⟨stack, .word [] j⟩, ?_, fun _ _ => rfl, fun h => by rw [h]; rfl⟩
  rw [Reader.run, hopen, Option.bind_some, run_word]

/-- A byte that begins a number opens one. -/
theorem step_number (stack : List Frame) {c : UInt8} (hc : c = 45 ∨ isDigit c = true) :
    (⟨stack, .value⟩ : Reader).step c = some ⟨stack, .number [c]⟩ := by
  have hkind : ∀ d : Fin 256, UInt8.ofNat d = 45 ∨ isDigit (UInt8.ofNat d) = true →
      isBlank (UInt8.ofNat d) = false ∧ UInt8.ofNat d ≠ 34 ∧ UInt8.ofNat d ≠ 91 ∧
        UInt8.ofNat d ≠ 123 ∧ UInt8.ofNat d ≠ 116 ∧ UInt8.ofNat d ≠ 102 ∧
        UInt8.ofNat d ≠ 110 := by decide +kernel
  obtain ⟨h0, h1, h2, h3, h4, h5, h6⟩ := hkind ⟨c.toNat, c.toNat_lt⟩ (by simpa using hc)
  simp only [UInt8.ofNat_toNat] at h0 h1 h2 h3 h4 h5 h6
  have hlast : (decide (c = 45) || isDigit c) = true := by simpa using hc
  simp only [Reader.step, openValue, h0, h1, h2, h3, h4, h5, h6, Bool.false_eq_true, if_false,
    hlast, if_true]

/-- A number's text is taken for the number. -/
theorem takes_number (hnumeric : ∀ c ∈ s, isNumeric c = true)
    (hopens : ∃ c rest, s = c :: rest ∧ (c = 45 ∨ isDigit c = true))
    (hvalue : numberValue s = some j) : Takes stack s j := by
  obtain ⟨c, rest, rfl, hc⟩ := hopens
  have hrest : ∀ d ∈ rest, isNumeric d = true := fun d hd =>
    hnumeric d (List.mem_cons_of_mem c hd)
  have hrun := run_numeric stack hrest [c] []
  rw [List.append_nil, List.singleton_append] at hrun
  refine ⟨⟨stack, .number (c :: rest)⟩, ?_, ?_, ?_⟩
  · rw [Reader.run, step_number stack hc, Option.bind_some, hrun]
    rfl
  · intro d hd
    simp only [Reader.step, hd, Bool.false_eq_true, if_false, hvalue, Option.bind_some]
  · intro h
    rw [h]
    exact hvalue

end reader

section integers

theorem isNumeric_dec (n : ℤ) : ∀ c ∈ dec n, isNumeric c = true := by
  have hdigit : ∀ m : ℕ, ∀ c ∈ decNat m, isNumeric c = true := by
    intro m c hc
    simp [isNumeric, isDigit_of_mem_decNat hc]
  unfold dec
  split
  · intro c hc
    rcases List.mem_append.mp hc with hc | hc
    · rw [List.mem_singleton.mp hc]
      decide
    · exact hdigit _ c hc
  · exact hdigit _

theorem opens_decNat (m : ℕ) : ∃ c rest, decNat m = c :: rest ∧ isDigit c = true := by
  cases hm : decNat m with
  | nil => exact absurd hm (decNat_ne_nil m)
  | cons c rest => exact ⟨c, rest, rfl, isDigit_of_mem_decNat (hm ▸ List.mem_cons_self)⟩

theorem opens_dec (n : ℤ) : ∃ c rest, dec n = c :: rest ∧ (c = 45 ∨ isDigit c = true) := by
  unfold dec
  split
  · exact ⟨45, decNat n.natAbs, rfl, .inl rfl⟩
  · obtain ⟨c, rest, hdec, hc⟩ := opens_decNat n.natAbs
    exact ⟨c, rest, hdec, .inr hc⟩

end integers

section strings

variable (stack : List Frame)

/-- The four digits of a control byte denote it. -/
theorem hex_control {c : UInt8} (hc : c < 32) :
    (hexValue (hexDigit (c / 16))).isNone = false ∧ (hexValue (hexDigit (c % 16))).isNone = false ∧
      hexNumber [48, 48, hexDigit (c / 16), hexDigit (c % 16)] = c.toNat ∧
      encodePoint c.toNat = [c] := by
  have hall : ∀ c : Fin 32,
      (hexValue (hexDigit (UInt8.ofNat c / 16))).isNone = false ∧
      (hexValue (hexDigit (UInt8.ofNat c % 16))).isNone = false ∧
      hexNumber [48, 48, hexDigit (UInt8.ofNat c / 16), hexDigit (UInt8.ofNat c % 16)] =
        (UInt8.ofNat c).toNat ∧
      encodePoint (UInt8.ofNat c).toNat = [UInt8.ofNat c] := by decide +kernel
  have hlt : c.toNat < 32 := UInt8.lt_iff_toNat_lt.mp hc
  simpa using hall ⟨c.toNat, hlt⟩

/-- What an escape stands for is read behind what was read before. -/
theorem run_escapeByte (c : UInt8) (chars t : Bytes) :
    (⟨stack, .string chars⟩ : Reader).run (escapeByte c ++ t) =
      (⟨stack, .string (chars ++ [c])⟩ : Reader).run t := by
  by_cases hc : isSpecial c = true
  · by_cases hnamed : c = 34 ∨ c = 92 ∨ c = 8 ∨ c = 12 ∨ c = 10 ∨ c = 13 ∨ c = 9
    · rcases hnamed with rfl | rfl | rfl | rfl | rfl | rfl | rfl <;> rfl
    · simp only [not_or] at hnamed
      obtain ⟨h34, h92, h8, h12, h10, h13, h9⟩ := hnamed
      have hlt : c < 32 := by simpa [isSpecial, h34, h92] using hc
      obtain ⟨hhigh, hlow, hnumber, hpoint⟩ := hex_control hlt
      have htext : escapeByte c = [92, 117, 48, 48, hexDigit (c / 16), hexDigit (c % 16)] := by
        simp only [escapeByte, h34, h92, h8, h12, h10, h13, h9, hlt, if_false, if_true]
      have hunit : pushUnit chars none c.toNat = some (.string (chars ++ [c])) := by
        have hsmall : c.toNat < 32 := UInt8.lt_iff_toNat_lt.mp hlt
        rw [pushUnit, if_neg (by omega), if_neg (by omega), hpoint]
      have hfront : (⟨stack, .string chars⟩ : Reader).run
          ([92, 117, 48, 48, hexDigit (c / 16), hexDigit (c % 16)] ++ t) =
          (⟨stack, .hex chars none [48, 48]⟩ : Reader).run
            (hexDigit (c / 16) :: hexDigit (c % 16) :: t) := rfl
      rw [htext, hfront, Reader.run]
      simp only [Reader.step, hhigh, Bool.false_eq_true, if_false, List.length_cons,
        List.length_nil, Nat.reduceAdd, Nat.reduceLT, if_true, Option.bind_some]
      rw [Reader.run]
      simp only [Reader.step, hlow, Bool.false_eq_true, if_false, List.length_cons,
        List.length_nil, Nat.reduceAdd, Nat.reduceLT, List.cons_append, List.nil_append, hnumber,
        hunit, Option.map_some, Option.bind_some]
  · have hplain : Plain [c] := fun d hd => by
      rw [List.mem_singleton.mp hd]
      simpa using hc
    rw [escapeByte_of_plain (by simpa using hc)]
    exact run_plain stack hplain chars t

/-- A printed string is read as the string. -/
theorem run_escape (s chars t : Bytes) :
    (⟨stack, .string chars⟩ : Reader).run (escape s ++ t) =
      (⟨stack, .string (chars ++ s)⟩ : Reader).run t := by
  induction s generalizing chars with
  | nil => rw [List.append_nil]; rfl
  | cons c s ih =>
    rw [escape_cons, List.append_assoc, run_escapeByte, ih, List.append_assoc,
      List.singleton_append]

/-- A quoted string is taken for the string. -/
theorem takes_quoted {stack : List Frame} (hstack : AtValue stack) (s : Bytes) :
    Takes stack (quoted s) (.str s) := by
  have hopen : (⟨stack, .value⟩ : Reader).step 34 = some ⟨stack, .string []⟩ := rfl
  have hend : (⟨stack, .string s⟩ : Reader).step 34 = some (closeString stack s) := rfl
  have hclose : closeString stack s = ⟨stack, .after (.str s)⟩ := by
    unfold closeString
    split
    · next before rest => exact absurd rfl (hstack before rest)
    · rfl
  refine ⟨⟨stack, .after (.str s)⟩, ?_, behind_after stack _⟩
  rw [quoted, Reader.run, hopen, Option.bind_some, run_escape, List.nil_append, Reader.run, hend,
    Option.bind_some, hclose]
  rfl

/-- A name and its colon are read behind an opening brace or a comma. -/
theorem run_name {mode : Mode} (hmode : mode = .name ∨ mode = .firstMember)
    (before : List (Bytes × Json)) (name t : Bytes) :
    (⟨.members before :: stack, mode⟩ : Reader).run (quoted name ++ 58 :: t) =
      (⟨.member before name :: stack, .value⟩ : Reader).run t := by
  have hopen : (⟨.members before :: stack, mode⟩ : Reader).step 34 =
      some ⟨.members before :: stack, .string []⟩ := by
    rcases hmode with rfl | rfl <;> rfl
  have hend : (⟨.members before :: stack, .string name⟩ : Reader).step 34 =
      some ⟨.member before name :: stack, .colon⟩ := rfl
  have hcolon : (⟨.member before name :: stack, .colon⟩ : Reader).step 58 =
      some ⟨.member before name :: stack, .value⟩ := rfl
  rw [quoted, List.cons_append, List.append_assoc, List.singleton_append, Reader.run, hopen,
    Option.bind_some, run_escape, List.nil_append, Reader.run, hend, Option.bind_some, Reader.run,
    hcolon, Option.bind_some]

end strings

section values

variable {real : ℚ → Bytes}

/-- A printed value does not begin like white space or the end of an array. -/
theorem compact_head (j : Json) (h : Tidy real j) :
    ∃ c rest, compact real j = c :: rest ∧ isBlank c = false ∧ c ≠ 93 := by
  have hnumber : ∀ {s : Bytes}, (∃ c rest, s = c :: rest ∧ (c = 45 ∨ isDigit c = true)) →
      ∃ c rest, s = c :: rest ∧ isBlank c = false ∧ c ≠ 93 := by
    rintro s ⟨c, rest, rfl, hc⟩
    refine ⟨c, rest, rfl, ?_⟩
    have hkind : ∀ d : Fin 256, UInt8.ofNat d = 45 ∨ isDigit (UInt8.ofNat d) = true →
        isBlank (UInt8.ofNat d) = false ∧ UInt8.ofNat d ≠ 93 := by decide +kernel
    simpa using hkind ⟨c.toNat, c.toNat_lt⟩ (by simpa using hc)
  cases j with
  | null => exact ⟨110, text "ull", by rw [compact]; rfl, by decide, by decide⟩
  | bool b =>
    cases b with
    | true => exact ⟨116, text "rue", by rw [compact]; rfl, by decide, by decide⟩
    | false => exact ⟨102, text "alse", by rw [compact]; rfl, by decide, by decide⟩
  | int n =>
    rw [compact]
    exact hnumber (opens_dec n)
  | real q =>
    rw [Tidy, Formed] at h
    rw [compact]
    exact hnumber h.opens
  | str s => exact ⟨34, escape s ++ [34], by rw [compact]; rfl, by decide, by decide⟩
  | arr items => exact ⟨91, _, by rw [compact], by decide, by decide⟩
  | obj members => exact ⟨123, _, by rw [compact], by decide, by decide⟩

/-- The first item of an array is read like any value. -/
theorem run_firstItem (stack : List Frame) (j : Json) (h : Tidy real j) (t : Bytes) :
    (⟨stack, .firstItem⟩ : Reader).run (compact real j ++ t) =
      (⟨stack, .value⟩ : Reader).run (compact real j ++ t) := by
  obtain ⟨c, rest, hc, hblank, hclose⟩ := compact_head j h
  rw [hc, List.cons_append, Reader.run, Reader.run]
  simp only [Reader.step, hblank, Bool.false_eq_true, if_false, hclose]

/-- A member whose name comes last is set behind the others. -/
theorem setMember_last (name : Bytes) (value : Json) {before : List (Bytes × Json)}
    (h : ∀ m ∈ before, m.1 < name) : setMember name value before = before ++ [(name, value)] := by
  induction before with
  | nil => rfl
  | cons m rest ih =>
    have hm := h m List.mem_cons_self
    have hne : m.1 ≠ name := fun he => List.lt_irrefl name (he ▸ hm)
    rw [setMember, if_neg (List.lt_asymm hm), if_neg hne,
      ih fun x hx => h x (List.mem_cons_of_mem m hx), List.cons_append]

theorem atValue_items (stack : List Frame) (before : List Json) :
    AtValue (.items before :: stack) := fun _ _ h => by cases h

theorem atValue_member (stack : List Frame) (before : List (Bytes × Json)) (name : Bytes) :
    AtValue (.member before name :: stack) := fun _ _ h => by cases h

mutual

/-- The compact text of a value is taken for the value. -/
theorem takes_compact : ∀ (j : Json), Tidy real j → ∀ stack, AtValue stack →
    Takes stack (compact real j) j
  | .null, _, stack, _ => by
    rw [compact]
    exact takes_word (c := 110) (w := text "ull") rfl
  | .bool true, _, stack, _ => by
    rw [compact]
    exact takes_word (c := 116) (w := text "rue") rfl
  | .bool false, _, stack, _ => by
    rw [compact]
    exact takes_word (c := 102) (w := text "alse") rfl
  | .int n, _, stack, _ => by
    rw [compact]
    exact takes_number (isNumeric_dec n) (opens_dec n) (numberValue_dec n)
  | .real q, h, stack, _ => by
    rw [Tidy, Formed] at h
    rw [compact]
    exact takes_number h.numeric h.opens h.value
  | .str s, _, stack, hstack => by
    rw [compact]
    exact takes_quoted hstack s
  | .arr items, h, stack, _ => by
    rw [Tidy, Formed] at h
    have hopen : (⟨stack, .value⟩ : Reader).step 91 = some ⟨.items [] :: stack, .firstItem⟩ := rfl
    refine ⟨⟨stack, .after (.arr items)⟩, ?_, behind_after stack _⟩
    rw [compact, Reader.run, hopen, Option.bind_some]
    cases items with
    | nil => rw [compactItems]; rfl
    | cons item rest =>
      rw [run_items (item :: rest) h (List.cons_ne_nil _ _) stack [] .firstItem (.inr rfl) [],
        List.nil_append]
      rfl
  | .obj members, h, stack, _ => by
    rw [Tidy, Formed] at h
    have hopen : (⟨stack, .value⟩ : Reader).step 123 = some ⟨.members [] :: stack, .firstMember⟩ :=
      rfl
    refine ⟨⟨stack, .after (.obj members)⟩, ?_, behind_after stack _⟩
    rw [compact, Reader.run, hopen, Option.bind_some]
    cases members with
    | nil => rw [compactMembers]; rfl
    | cons m rest =>
      rw [run_members (m :: rest) h.2 (List.cons_ne_nil _ _) stack [] h.1 .firstMember (.inr rfl) [],
        List.nil_append]
      rfl

/-- The items of an array are read up to its end. -/
theorem run_items : ∀ (items : List Json), TidyItems real items → items ≠ [] →
    ∀ (stack : List Frame) (before : List Json) (mode : Mode), mode = .value ∨ mode = .firstItem →
    ∀ t, (⟨.items before :: stack, mode⟩ : Reader).run (compactItems real items ++ 93 :: t) =
      (⟨stack, .after (.arr (before ++ items))⟩ : Reader).run t
  | [], _, hne, _, _, _, _, _ => absurd rfl hne
  | item :: rest, h, _, stack, before, mode, hmode, t => by
    rw [TidyItems, FormedItems] at h
    have htakes := takes_compact item h.1 (.items before :: stack) (atValue_items stack before)
    have hrun : ∀ s, (⟨.items before :: stack, mode⟩ : Reader).run (compact real item ++ s) =
        (⟨.items before :: stack, .value⟩ : Reader).run (compact real item ++ s) := by
      intro s
      rcases hmode with rfl | rfl
      · rfl
      · exact run_firstItem _ item h.1 s
    cases rest with
    | nil =>
      rw [compactItems, hrun, htakes.run_cons (by decide)]
      rfl
    | cons next rest =>
      have hrest := run_items (next :: rest) h.2 (List.cons_ne_nil _ _) stack (before ++ [item])
        .value (.inl rfl) t
      rw [compactItems, List.append_assoc, List.cons_append, hrun, htakes.run_cons (by decide)]
      · rw [List.append_assoc, List.singleton_append] at hrest
        exact hrest
      · exact List.cons_ne_nil _ _

/-- The members of an object are read up to its end. -/
theorem run_members : ∀ (members : List (Bytes × Json)), TidyMembers real members → members ≠ [] →
    ∀ (stack : List Frame) (before : List (Bytes × Json)),
    ((before ++ members).map Prod.fst).Pairwise (· < ·) →
    ∀ mode : Mode, mode = .name ∨ mode = .firstMember →
    ∀ t, (⟨.members before :: stack, mode⟩ : Reader).run (compactMembers real members ++ 125 :: t) =
      (⟨stack, .after (.obj (before ++ members))⟩ : Reader).run t
  | [], _, hne, _, _, _, _, _, _ => absurd rfl hne
  | (name, value) :: rest, h, _, stack, before, hsorted, mode, hmode, t => by
    rw [TidyMembers, FormedMembers] at h
    have htakes := takes_compact value h.1 (.member before name :: stack)
      (atValue_member stack before name)
    have hlast : ∀ m ∈ before, m.1 < name := by
      intro m hm
      rw [List.map_append, List.pairwise_append] at hsorted
      exact hsorted.2.2 m.1 (List.mem_map_of_mem hm) name List.mem_cons_self
    have hset := setMember_last name value hlast
    cases rest with
    | nil =>
      rw [compactMembers, List.append_assoc, List.cons_append, run_name _ hmode,
        htakes.run_cons (by decide), ← hset]
      rfl
    | cons next rest =>
      have hrest := run_members (next :: rest) h.2 (List.cons_ne_nil _ _) stack
        (before ++ [(name, value)]) (by simpa using hsorted) .name (.inl rfl) t
      rw [compactMembers, List.append_assoc, List.cons_append, List.append_assoc,
        List.cons_append, run_name _ hmode, htakes.run_cons (by decide)]
      · rw [List.append_assoc, List.singleton_append, ← hset] at hrest
        exact hrest
      · exact List.cons_ne_nil _ _

end

/-- Escaping keeps a text valid. -/
theorem isUtf8_escape {s : Bytes} (h : IsUtf8 s) : IsUtf8 (escape s) := by
  obtain ⟨chars, rfl⟩ := h
  induction chars with
  | nil => exact isUtf8_nil
  | cons ch rest ih =>
    have hch : IsUtf8 (escape (String.utf8EncodeChar ch)) := by
      rcases encode_cases ch with ⟨c, hc, henc⟩ | hhigh
      · have hall : ∀ c : Fin 128, IsAscii (escapeByte (UInt8.ofNat c)) := by decide +kernel
        have hascii := hall ⟨c.toNat, UInt8.lt_iff_toNat_lt.mp hc⟩
        rw [UInt8.ofNat_toNat] at hascii
        rw [henc, escape_cons]
        exact hascii.isUtf8.append isUtf8_nil
      · have hplain : Plain (String.utf8EncodeChar ch) := by
          intro c hc
          have hkind : ∀ d : Fin 256, ¬UInt8.ofNat d < 128 → isSpecial (UInt8.ofNat d) = false := by
            decide +kernel
          have hd := hkind ⟨c.toNat, c.toNat_lt⟩
          rw [UInt8.ofNat_toNat] at hd
          exact hd (hhigh c hc)
        rw [escape_of_plain hplain]
        exact ⟨[ch], (List.flatMap_singleton _ _).symm⟩
    rw [List.flatMap_cons, escape, List.flatMap_append]
    exact hch.append ih

theorem isUtf8_quoted {s : Bytes} (h : IsUtf8 s) : IsUtf8 (quoted s) :=
  (isUtf8_cons (by decide) _).mpr
    ((isUtf8_escape h).append ((isUtf8_cons (by decide) _).mpr isUtf8_nil))

/-- What occurs in numbers is ASCII. -/
theorem isUtf8_numeric {s : Bytes} (h : ∀ c ∈ s, isNumeric c = true) : IsUtf8 s := by
  have hascii : IsAscii s := by
    intro c hc
    have hkind : ∀ d : Fin 256, isNumeric (UInt8.ofNat d) = true → UInt8.ofNat d < 128 := by
      decide +kernel
    have hd := hkind ⟨c.toNat, c.toNat_lt⟩
    rw [UInt8.ofNat_toNat] at hd
    exact hd (h c hc)
  exact hascii.isUtf8

mutual

/-- The compact text of valid strings is valid. -/
theorem isUtf8_compact : ∀ (j : Json), Tidy real j → j.AllUtf8 → IsUtf8 (compact real j)
  | .null, _, _ => by
    rw [compact]
    exact isUtf8_text _ (by decide)
  | .bool true, _, _ => by
    rw [compact]
    exact isUtf8_text _ (by decide)
  | .bool false, _, _ => by
    rw [compact]
    exact isUtf8_text _ (by decide)
  | .int n, _, _ => by
    rw [compact]
    exact (isAscii_dec n).isUtf8
  | .real q, h, _ => by
    rw [Tidy, Formed] at h
    rw [compact]
    exact isUtf8_numeric h.numeric
  | .str s, _, hj => by
    rw [compact]
    exact isUtf8_quoted (hj s (by rw [Json.strings]; exact List.mem_singleton_self s))
  | .arr items, h, hj => by
    rw [Tidy, Formed] at h
    rw [compact]
    exact (isUtf8_cons (by decide) _).mpr
      ((isUtf8_compactItems items h fun s hs => hj s (by rw [Json.strings]; exact hs)).append
        ((isUtf8_cons (by decide) _).mpr isUtf8_nil))
  | .obj members, h, hj => by
    rw [Tidy, Formed] at h
    rw [compact]
    exact (isUtf8_cons (by decide) _).mpr
      ((isUtf8_compactMembers members h.2 fun s hs => hj s (by rw [Json.strings]; exact hs)).append
        ((isUtf8_cons (by decide) _).mpr isUtf8_nil))

theorem isUtf8_compactItems : ∀ (items : List Json), TidyItems real items →
    (∀ s ∈ itemStrings items, IsUtf8 s) → IsUtf8 (compactItems real items)
  | [], _, _ => by
    rw [compactItems]
    exact isUtf8_nil
  | item :: rest, h, hs => by
    rw [TidyItems, FormedItems] at h
    rw [itemStrings] at hs
    have hitem := isUtf8_compact item h.1 fun s hmem => hs s (List.mem_append_left _ hmem)
    have hrest := isUtf8_compactItems rest h.2 fun s hmem => hs s (List.mem_append_right _ hmem)
    cases rest with
    | nil =>
      rw [compactItems]
      exact hitem
    | cons next rest =>
      rw [compactItems]
      · exact hitem.append ((isUtf8_cons (by decide) _).mpr hrest)
      · exact List.cons_ne_nil _ _

theorem isUtf8_compactMembers : ∀ (members : List (Bytes × Json)), TidyMembers real members →
    (∀ s ∈ memberStrings members, IsUtf8 s) → IsUtf8 (compactMembers real members)
  | [], _, _ => by
    rw [compactMembers]
    exact isUtf8_nil
  | (name, value) :: rest, h, hs => by
    rw [TidyMembers, FormedMembers] at h
    rw [memberStrings] at hs
    have hname := isUtf8_quoted (hs name List.mem_cons_self)
    have hvalue := isUtf8_compact value h.1 fun s hmem =>
      hs s (List.mem_cons_of_mem _ (List.mem_append_left _ hmem))
    have hrest := isUtf8_compactMembers rest h.2 fun s hmem =>
      hs s (List.mem_cons_of_mem _ (List.mem_append_right _ hmem))
    cases rest with
    | nil =>
      rw [compactMembers]
      exact hname.append ((isUtf8_cons (by decide) _).mpr hvalue)
    | cons next rest =>
      rw [compactMembers]
      · exact hname.append ((isUtf8_cons (by decide) _).mpr
          (hvalue.append ((isUtf8_cons (by decide) _).mpr hrest)))
      · exact List.cons_ne_nil _ _

end

/-- The compact text of a tidy value is read back as the value. -/
theorem readJson_compact {j : Json} (htidy : Tidy real j) (hj : j.AllUtf8) :
    readJson (compact real j) = some j := by
  obtain ⟨r, hrun, -, hfinish⟩ := takes_compact j htidy [] fun _ _ h => by cases h
  rw [readJson, if_pos (isUtf8_compact j htidy hj), hrun, Option.bind_some, hfinish rfl]

/-- No value has an empty text. -/
theorem compact_ne_nil {j : Json} (h : Tidy real j) : compact real j ≠ [] := by
  obtain ⟨c, rest, hc, -⟩ := compact_head j h
  rw [hc]
  exact List.cons_ne_nil c rest

end values

end Dlads.JsonRoundTrip
