import Dlads.JsonValue

/-!
# Compact JSON text

The printed form of a value without any white space: strings in quotes with
the standard escapes, members in the order the value holds them. How a
floating-point number is printed is a parameter. A string that holds no quote,
no backslash and no control byte is its own printed form; any other is
shorter than its printed form.
-/

namespace Dlads.JsonPrinting

open ByteText JsonValue

/-- A byte that a string holds only under an escape: the quote, the backslash
and the control bytes. -/
def isSpecial (c : UInt8) : Bool := c == 34 || c == 92 || c < 32

/-- A string that is its own printed form. -/
def Plain (s : Bytes) : Prop := ∀ c ∈ s, isSpecial c = false

instance : DecidablePred Plain := fun s => List.decidableBAll _ s

/-- The digit of a hexadecimal numeral, in lower case. -/
def hexDigit (d : UInt8) : UInt8 := if d < 10 then d + 48 else d + 87

/-- The printed form of a byte of a string. -/
def escapeByte (c : UInt8) : Bytes :=
  if c = 34 then [92, 34]
  else if c = 92 then [92, 92]
  else if c = 8 then [92, 98]
  else if c = 12 then [92, 102]
  else if c = 10 then [92, 110]
  else if c = 13 then [92, 114]
  else if c = 9 then [92, 116]
  else if c < 32 then [92, 117, 48, 48, hexDigit (c / 16), hexDigit (c % 16)]
  else [c]

/-- The printed form of a string, without its quotes. -/
def escape (s : Bytes) : Bytes := s.flatMap escapeByte

/-- The printed form of a string. -/
def quoted (s : Bytes) : Bytes := 34 :: (escape s ++ [34])

mutual

/-- The printed form of a value. -/
def compact (real : ℚ → Bytes) : Json → Bytes
  | .null => text "null"
  | .bool true => text "true"
  | .bool false => text "false"
  | .int value => dec value
  | .real value => real value
  | .str value => quoted value
  | .arr items => 91 :: (compactItems real items ++ [93])
  | .obj members => 123 :: (compactMembers real members ++ [125])

/-- The printed items of an array, separated by commas. -/
def compactItems (real : ℚ → Bytes) : List Json → Bytes
  | [] => []
  | [item] => compact real item
  | item :: rest => compact real item ++ 44 :: compactItems real rest

/-- The printed members of an object, separated by commas. -/
def compactMembers (real : ℚ → Bytes) : List (Bytes × Json) → Bytes
  | [] => []
  | [(name, value)] => quoted name ++ 58 :: compact real value
  | (name, value) :: rest =>
    quoted name ++ 58 :: (compact real value ++ 44 :: compactMembers real rest)

end

/-- A printer that prints standard compact text and throws on strings that are
not valid UTF-8. -/
def Standard (real : ℚ → Bytes) (dump : Json → Option Bytes) : Prop :=
  ∀ j, dump j = if j.AllUtf8 then some (compact real j) else none

section escapes

variable {s : Bytes}

theorem escapeByte_of_plain {c : UInt8} (h : isSpecial c = false) : escapeByte c = [c] := by
  have hall : ∀ c : Fin 256, isSpecial (UInt8.ofNat c) = false →
      escapeByte (UInt8.ofNat c) = [UInt8.ofNat c] := by decide +kernel
  simpa using hall ⟨c.toNat, c.toNat_lt⟩ (by simpa using h)

/-- A special byte is printed as a backslash and more, and only a quote has a
quote in its printed form, right behind the backslash. -/
theorem escapeByte_of_special {c : UInt8} (h : isSpecial c = true) :
    ∃ x tail, escapeByte c = 92 :: x :: tail ∧ 34 ∉ tail ∧ (x = 34 ↔ c = 34) := by
  have hall : ∀ c : Fin 256, isSpecial (UInt8.ofNat c) = true →
      (escapeByte (UInt8.ofNat c)).head? = some 92 ∧
      ((escapeByte (UInt8.ofNat c)).drop 1).head?.isSome ∧
      34 ∉ (escapeByte (UInt8.ofNat c)).drop 2 ∧
      (((escapeByte (UInt8.ofNat c)).drop 1).head? = some 34 ↔ UInt8.ofNat c = 34) := by
    decide +kernel
  obtain ⟨hhead, hsecond, htail, hquote⟩ := hall ⟨c.toNat, c.toNat_lt⟩ (by simpa using h)
  simp only [UInt8.ofNat_toNat] at hhead hsecond htail hquote
  generalize escapeByte c = e at hhead hsecond htail hquote
  rcases e with _ | ⟨a, _ | ⟨x, tail⟩⟩
  · cases hhead
  · cases hsecond
  · cases hhead
    exact ⟨x, tail, rfl, htail, by simpa using hquote⟩

/-- Only a quote has a quote in its printed form. -/
theorem no_quote_escapeByte {c : UInt8} (h : c ≠ 34) : 34 ∉ escapeByte c := by
  cases hc : isSpecial c with
  | false =>
    rw [escapeByte_of_plain hc, List.mem_singleton]
    exact Ne.symm h
  | true =>
    obtain ⟨x, tail, he, htail, hx⟩ := escapeByte_of_special hc
    rw [he, List.mem_cons, List.mem_cons, not_or, not_or]
    exact ⟨by decide, fun h34 => h (hx.mp h34.symm), htail⟩

theorem escape_cons (c : UInt8) (s : Bytes) : escape (c :: s) = escapeByte c ++ escape s := rfl

/-- A plain string is its own printed form. -/
theorem escape_of_plain (h : Plain s) : escape s = s := by
  induction s with
  | nil => rfl
  | cons c s ih =>
    rw [escape_cons, escapeByte_of_plain (h c List.mem_cons_self),
      ih fun d hd => h d (List.mem_cons_of_mem c hd), List.singleton_append]

/-- No string is longer than its printed form. -/
theorem length_le_escape (s : Bytes) : s.length ≤ (escape s).length := by
  induction s with
  | nil => exact Nat.le_refl 0
  | cons c s ih =>
    rw [escape_cons, List.length_append, List.length_cons]
    cases hc : isSpecial c with
    | false =>
      rw [escapeByte_of_plain hc, List.length_singleton]
      omega
    | true =>
      obtain ⟨x, tail, he, -⟩ := escapeByte_of_special hc
      rw [he, List.length_cons]
      omega

/-- A string that is its own printed form is plain. -/
theorem plain_of_escape (h : escape s = s) : Plain s := by
  induction s with
  | nil => exact fun c hc => absurd hc List.not_mem_nil
  | cons c s ih =>
    cases hc : isSpecial c with
    | false =>
      rw [escape_cons, escapeByte_of_plain hc] at h
      intro d hd
      rcases List.mem_cons.mp hd with rfl | hd
      · exact hc
      · exact ih (List.cons.inj h).2 d hd
    | true =>
      obtain ⟨x, tail, he, -⟩ := escapeByte_of_special hc
      have hlen := congrArg List.length h
      have hle := length_le_escape s
      rw [escape_cons, he, List.length_append, List.length_cons, List.length_cons,
        List.length_cons] at hlen
      omega

/-- A printed string is cut at its first quote to itself exactly if it is
plain. -/
theorem takeWhile_escape_iff (s : Bytes) : (escape s).takeWhile (· != 34) = s ↔ Plain s := by
  constructor
  · intro h
    have hnone : 34 ∉ s := by
      rw [← h]
      intro hmem
      simpa using List.mem_takeWhile_imp hmem
    refine plain_of_escape ?_
    have hall : ∀ c ∈ escape s, (c != 34) = true := by
      intro c hc
      obtain ⟨d, hd, hcd⟩ := List.mem_flatMap.mp hc
      have hd34 : 34 ∉ escapeByte d := no_quote_escapeByte fun he => hnone (he ▸ hd)
      have hne : c ≠ 34 := fun he => hd34 (he ▸ hcd)
      simpa using hne
    rwa [List.takeWhile_eq_self_iff.mpr hall] at h
  · intro h
    rw [escape_of_plain h, List.takeWhile_eq_self_iff]
    intro c hc
    have hne : c ≠ 34 := by
      rintro rfl
      exact absurd (h 34 hc) (by decide)
    simpa using hne

end escapes

end Dlads.JsonPrinting
