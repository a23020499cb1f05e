import Mathlib.Data.List.Basic
import Mathlib.Data.List.DropRight
import Mathlib.Data.List.TakeWhile
import Mathlib.Tactic.Common

/-!
# Byte strings and their search operations

A string is the list of its bytes, with no encoding assumed. The operations
are those of the C++ string library on such strings: first and last
occurrence of a needle, substrings by position, the "C" locale's character
classes, decimal rendering and decimal reading. The laws say how a search
passes over a prefix or stops before a suffix, which is what every argument
about a line assembled from parts needs.
-/

namespace Dlads.ByteText

/-- A string as the list of its bytes. -/
abbrev Bytes := List UInt8

/-- The bytes of an ASCII literal. -/
def text (s : String) : Bytes := s.toList.map Char.toUInt8

/-- The long dash, U+2014, in UTF-8. -/
def emDash : Bytes := [0xe2, 0x80, 0x94]

/-- White space of the "C" locale: blank, tab, line feed, vertical tab,
form feed and carriage return. -/
def isSpace (c : UInt8) : Bool := c == 32 || (9 ≤ c && c ≤ 13)

/-- Decimal digits. -/
def isDigit (c : UInt8) : Bool := 48 ≤ c && c ≤ 57

/-- ASCII capital letters. -/
def isUpper (c : UInt8) : Bool := 65 ≤ c && c ≤ 90

/-- ASCII small letters. -/
def isLower (c : UInt8) : Bool := 97 ≤ c && c ≤ 122

/-- ASCII letters. -/
def isAlpha (c : UInt8) : Bool := isUpper c || isLower c

/-- ASCII letters and digits. -/
def isAlnum (c : UInt8) : Bool := isAlpha c || isDigit c

/-- Lower-casing of one byte; only capital letters move. -/
def toLower (c : UInt8) : UInt8 := if isUpper c then c + 32 else c

/-- Drop leading white space. -/
def ltrim (s : Bytes) : Bytes := s.dropWhile isSpace

/-- Drop trailing white space. -/
def rtrim (s : Bytes) : Bytes := s.rdropWhile isSpace

/-- Drop white space on both sides. -/
def trim (s : Bytes) : Bytes := rtrim (ltrim s)

/-- Position of the first occurrence of the needle, as `std::string::find`
returns it; `none` stands for `npos`. -/
def find (needle : Bytes) : Bytes → Option ℕ
  | [] => if needle.isEmpty then some 0 else none
  | c :: rest =>
    if needle.isPrefixOf (c :: rest) then some 0
    else (find needle rest).map (· + 1)

/-- Position of the last occurrence of the needle, as `std::string::rfind`. -/
def rfind (needle : Bytes) : Bytes → Option ℕ
  | [] => if needle.isEmpty then some 0 else none
  | c :: rest =>
    match rfind needle rest with
    | some p => some (p + 1)
    | none => if needle.isPrefixOf (c :: rest) then some 0 else none

/-- What follows the first occurrence of the needle. -/
def after (needle : Bytes) (s : Bytes) : Option Bytes :=
  (find needle s).map fun p => s.drop (p + needle.length)

/-- Case-insensitive search for a needle, as `std::search` with `tolower`. -/
def isearch (needle : Bytes) : Bytes → Bool
  | [] => needle.isEmpty
  | c :: rest => (needle.map toLower).isPrefixOf ((c :: rest).map toLower) || isearch needle rest

/-- Split at the first delimiter byte, which belongs to neither part; without
a delimiter the second part is empty. -/
def splitOnce (s : Bytes) (delim : UInt8) : Bytes × Bytes :=
  match s.findIdx? (· == delim) with
  | none => (s, [])
  | some p => (s.take p, s.drop (p + 1))

/-- Decimal rendering of a natural number. -/
def decNat (n : ℕ) : Bytes := (Nat.toDigits 10 n).map Char.toUInt8

/-- Decimal rendering of an integer, as `std::to_string`. -/
def dec (n : ℤ) : Bytes := if n < 0 then text "-" ++ decNat n.natAbs else decNat n.natAbs

/-- The number a run of decimal digits denotes. -/
def digitsValue (s : Bytes) : ℕ := s.foldl (fun acc c => acc * 10 + (c.toNat - 48)) 0

/-- The 32-bit signed range. -/
def inInt32 (n : ℤ) : Bool := -2147483648 ≤ n && n ≤ 2147483647

/-- `std::from_chars` into an `int`: an optional minus and the longest run of
digits. No digits, or a value outside the range, leaves the target alone. -/
def fromChars (s : Bytes) : Option ℤ :=
  let negative := s.head? == some 45
  let digits := (if negative then s.drop 1 else s).takeWhile isDigit
  let value : ℤ := if negative then -(digitsValue digits : ℤ) else digitsValue digits
  if digits.isEmpty then none else if inInt32 value then some value else none

/-- The bytes a C string consumer sees: everything before the first NUL. -/
def cStr (s : Bytes) : Bytes := s.takeWhile (· != 0)

/-- The last decimal digit splits off. -/
theorem decNat_eq (n : ℕ) : decNat n =
    if n < 10 then [(Nat.digitChar n).toUInt8]
    else decNat (n / 10) ++ [(Nat.digitChar (n % 10)).toUInt8] := by
  unfold decNat
  rw [Nat.toDigits_eq_if (by decide)]
  split
  · rfl
  · rw [List.map_append, List.map_singleton]

/-- A decimal digit's byte is a digit and denotes it. -/
theorem digitChar_toUInt8 {d : ℕ} (hd : d < 10) :
    isDigit (Nat.digitChar d).toUInt8 = true ∧ (Nat.digitChar d).toUInt8.toNat - 48 = d := by
  have hall : ∀ d < 10, isDigit (Nat.digitChar d).toUInt8 = true ∧
      (Nat.digitChar d).toUInt8.toNat - 48 = d := by decide
  exact hall d hd

theorem decNat_ne_nil (n : ℕ) : decNat n ≠ [] := by
  rw [decNat_eq]
  split
  · exact List.cons_ne_nil _ _
  · exact List.append_ne_nil_of_right_ne_nil _ (List.cons_ne_nil _ _)

/-- A decimal rendering consists of digits. -/
theorem isDigit_of_mem_decNat {n : ℕ} {c : UInt8} (hc : c ∈ decNat n) : isDigit c = true := by
  induction n using Nat.strong_induction_on with
  | _ n ih =>
    rw [decNat_eq] at hc
    split at hc
    · next hn =>
      rw [List.mem_singleton.mp hc]
      exact (digitChar_toUInt8 hn).1
    · next hn =>
      rcases List.mem_append.mp hc with hinit | hlast
      · exact ih (n / 10) (by omega) hinit
      · rw [List.mem_singleton.mp hlast]
        exact (digitChar_toUInt8 (Nat.mod_lt n (by decide))).1

/-- Reading a decimal rendering back gives the number. -/
theorem digitsValue_decNat (n : ℕ) : digitsValue (decNat n) = n := by
  induction n using Nat.strong_induction_on with
  | _ n ih =>
    rw [decNat_eq]
    split
    · next hn => simpa [digitsValue] using (digitChar_toUInt8 hn).2
    · next hn =>
      have hi : (decNat (n / 10)).foldl (fun acc c => acc * 10 + (c.toNat - 48)) 0 = n / 10 :=
        ih (n / 10) (by omega)
      have hd := (digitChar_toUInt8 (Nat.mod_lt n (show 0 < 10 by decide))).2
      rw [digitsValue, List.foldl_append, hi]
      simp only [List.foldl_cons, List.foldl_nil, hd]
      omega

/-- Different numbers have different decimal renderings. -/
theorem decNat_injective : Function.Injective decNat := fun m n h => by
  rw [← digitsValue_decNat m, h, digitsValue_decNat]

@[simp] theorem dec_natCast (n : ℕ) : dec (n : ℤ) = decNat n := by
  rw [dec, if_neg (by omega), Int.natAbs_natCast]

/-- A C string consumer sees all of a string exactly if it holds no NUL. -/
theorem cStr_eq_self_iff (s : Bytes) : cStr s = s ↔ 0 ∉ s := by
  rw [cStr, List.takeWhile_eq_self_iff]
  constructor
  · intro h h0
    simpa using h 0 h0
  · intro h c hc
    have hne : c ≠ 0 := fun h0 => h (h0 ▸ hc)
    simpa using hne

/-- A string without NUL is what its C string consumer sees of it. -/
theorem cStr_of_noNul {s : Bytes} (h : 0 ∉ s) : cStr s = s := (cStr_eq_self_iff s).mpr h

/-- A delimiter is found behind a text without it. -/
theorem findIdx?_delim {delim : UInt8} {s : Bytes} (hs : delim ∉ s) (t : Bytes) :
    (s ++ delim :: t).findIdx? (· == delim) = some s.length := by
  have hnone : s.findIdx? (· == delim) = none := by
    refine List.findIdx?_eq_none_iff.mpr fun x hx => ?_
    have hne : x ≠ delim := fun h => hs (h ▸ hx)
    simpa using hne
  rw [List.findIdx?_append, hnone]
  simp [List.findIdx?_cons]

/-- A run of digits after a separator splits off in one way only. -/
theorem append_digits_inj {p q d e : Bytes} {c : UInt8} (hc : isDigit c = false)
    (hd : ∀ x ∈ d, isDigit x = true) (he : ∀ x ∈ e, isDigit x = true)
    (h : p ++ c :: d = q ++ c :: e) : p = q ∧ d = e := by
  have hrev : ∀ (r f : Bytes), (∀ x ∈ f, isDigit x = true) →
      (r ++ c :: f).reverse.takeWhile isDigit = f.reverse := by
    intro r f hf
    rw [List.reverse_append, List.reverse_cons, List.append_assoc,
      List.takeWhile_append_of_pos (fun x hx => hf x (List.mem_reverse.mp hx)),
      List.singleton_append, List.takeWhile_cons_of_neg (by simp [hc]), List.append_nil]
  have hde : d = e := by
    have hsame := hrev p d hd
    rw [h, hrev q e he] at hsame
    exact (List.reverse_injective hsame).symm
  rw [hde] at h
  exact ⟨List.append_cancel_right h, hde⟩

/-- Different integers have different decimal renderings. -/
theorem dec_injective : Function.Injective dec := by
  intro m n h
  have hminus : ∀ k l : ℕ, text "-" ++ decNat k ≠ decNat l := by
    intro k l hkl
    have hdigit : isDigit 45 = true := isDigit_of_mem_decNat (n := l) (hkl ▸ List.mem_cons_self)
    exact absurd hdigit (by decide)
  unfold dec at h
  split at h
  · split at h
    · have habs := decNat_injective (List.append_cancel_left h)
      omega
    · exact absurd h (hminus _ _)
  · split at h
    · exact absurd h.symm (hminus _ _)
    · have habs := decNat_injective h
      omega

/-- A decimal rendering holds no NUL. -/
theorem noNul_decNat (n : ℕ) : 0 ∉ decNat n := fun h =>
  absurd (isDigit_of_mem_decNat h) (by decide)

theorem noNul_dec (n : ℤ) : 0 ∉ dec n := by
  unfold dec
  split
  · rw [List.mem_append, not_or]
    exact ⟨by decide, noNul_decNat _⟩
  · exact noNul_decNat _

/-- `from_chars` reads back a rendered number of the 32-bit range. -/
theorem fromChars_decNat {n : ℕ} (hn : n ≤ 2147483647) : fromChars (decNat n) = some (n : ℤ) := by
  have hall : ∀ c ∈ decNat n, isDigit c = true := fun c hc => isDigit_of_mem_decNat hc
  have hminus : ((decNat n).head? == some 45) = false := by
    cases hd : decNat n with
    | nil => rfl
    | cons c rest =>
      have hc : isDigit c = true := hall c (hd ▸ List.mem_cons_self)
      have hne : c ≠ 45 := by
        rintro rfl
        exact absurd hc (by decide)
      simpa using hne
  have htake : (decNat n).takeWhile isDigit = decNat n := List.takeWhile_eq_self_iff.mpr hall
  have hrange : inInt32 (n : ℤ) = true := by
    simp only [inInt32, Bool.and_eq_true, decide_eq_true_eq]
    omega
  have hne : (decNat n).isEmpty = false := by simpa using decNat_ne_nil n
  simp only [fromChars, hminus, Bool.false_eq_true, if_false, htake, hne, digitsValue_decNat,
    hrange, if_true]

end Dlads.ByteText
