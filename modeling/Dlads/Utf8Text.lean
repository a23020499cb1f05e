import Dlads.ByteText

/-!
# Texts in UTF-8

A byte string is valid UTF-8 if it is the encoding of some sequence of
characters. Bytes below 128 occur in it only as characters of their own, so a
valid text may be cut at any of them, and what a search for ASCII delimiters
takes out of it is valid again. A text that starts in the middle of a
character is valid again from its first ASCII byte on.
-/

namespace Dlads.Utf8Text

open ByteText

/-- Valid UTF-8. -/
def IsUtf8 (s : Bytes) : Prop := ∃ chars : List Char, s = chars.flatMap String.utf8EncodeChar

/-- A text of ASCII bytes. -/
def IsAscii (s : Bytes) : Prop := ∀ c ∈ s, c < 128

/-- The end of a valid text, which may start in the middle of a character. -/
def IsUtf8End (s : Bytes) : Prop := ∃ front, IsUtf8 (front ++ s)

section encoding

/-- Validity is what the core library decides. -/
theorem isUtf8_iff (s : Bytes) : IsUtf8 s ↔ s.toByteArray.IsValidUTF8 := by
  constructor
  · rintro ⟨chars, rfl⟩
    exact ⟨chars, rfl⟩
  · rintro ⟨chars, h⟩
    refine ⟨chars, ?_⟩
    have hdata := congrArg (fun b : ByteArray => b.data.toList) h
    simpa [List.utf8Encode] using hdata

instance : DecidablePred IsUtf8 := fun s => decidable_of_iff _ (isUtf8_iff s).symm

instance (s : Bytes) : Decidable (IsAscii s) := List.decidableBAll _ s

/-- A character is one ASCII byte, or several bytes none of which is ASCII. -/
theorem encode_cases (ch : Char) :
    (∃ c : UInt8, c < 128 ∧ String.utf8EncodeChar ch = [c]) ∨
      ∀ c ∈ String.utf8EncodeChar ch, ¬c < 128 := by
  have hhigh : ∀ k b : ℕ, 128 ≤ b → b + k < 256 → ¬UInt8.ofNat (k + b) < 128 := by
    intro k b hb hk
    rw [UInt8.lt_iff_toNat_lt, UInt8.toNat_ofNat', Nat.mod_eq_of_lt (by omega)]
    change ¬k + b < 128
    omega
  unfold String.utf8EncodeChar
  dsimp only
  split
  · next h =>
    refine .inl ⟨_, ?_, rfl⟩
    rw [UInt8.lt_iff_toNat_lt, UInt8.toNat_ofNat', Nat.mod_eq_of_lt (by omega)]
    change ch.val.toNat < 128
    omega
  · right
    split
    · intro c hc
      simp only [List.mem_cons, List.not_mem_nil, or_false] at hc
      rcases hc with rfl | rfl <;> exact hhigh _ _ (by omega) (by omega)
    · split
      · intro c hc
        simp only [List.mem_cons, List.not_mem_nil, or_false] at hc
        rcases hc with rfl | rfl | rfl <;> exact hhigh _ _ (by omega) (by omega)
      · intro c hc
        simp only [List.mem_cons, List.not_mem_nil, or_false] at hc
        rcases hc with rfl | rfl | rfl | rfl <;> exact hhigh _ _ (by omega) (by omega)

/-- The bytes from 248 on occur in no character. -/
theorem encode_lt (ch : Char) : ∀ c ∈ String.utf8EncodeChar ch, c.toNat < 248 := by
  intro c hc
  unfold String.utf8EncodeChar at hc
  dsimp only at hc
  split at hc
  · rw [List.mem_singleton.mp hc, UInt8.toNat_ofNat']
    omega
  · split at hc
    · simp only [List.mem_cons, List.not_mem_nil, or_false] at hc
      rcases hc with rfl | rfl <;> rw [UInt8.toNat_ofNat'] <;> omega
    · split at hc
      · simp only [List.mem_cons, List.not_mem_nil, or_false] at hc
        rcases hc with rfl | rfl | rfl <;> rw [UInt8.toNat_ofNat'] <;> omega
      · simp only [List.mem_cons, List.not_mem_nil, or_false] at hc
        rcases hc with rfl | rfl | rfl | rfl <;> rw [UInt8.toNat_ofNat'] <;> omega

/-- An ASCII byte is the encoding of a character. -/
theorem encode_ofUInt8 {c : UInt8} (hc : c < 128) :
    String.utf8EncodeChar (Char.ofUInt8 c) = [c] := by
  have hall : ∀ c : Fin 128, String.utf8EncodeChar (Char.ofUInt8 (UInt8.ofNat c)) =
      [UInt8.ofNat c] := by decide
  have hlt : c.toNat < 128 := UInt8.lt_iff_toNat_lt.mp hc
  simpa using hall ⟨c.toNat, hlt⟩

end encoding

section texts

variable {s t : Bytes} {c : UInt8}

/-- Whether a text is ASCII is a test of its bytes. -/
theorem isAscii_of_all (h : s.all (fun c => decide (c < 128)) = true) : IsAscii s := by
  intro c hc
  simpa using List.all_eq_true.mp h c hc

theorem isAscii_dec (n : ℤ) : IsAscii (dec n) := by
  have hdigits : ∀ m : ℕ, IsAscii (decNat m) := by
    intro m c hc
    have hdigit := isDigit_of_mem_decNat hc
    simp only [isDigit, Bool.and_eq_true, decide_eq_true_eq, UInt8.le_iff_toNat_le] at hdigit
    rw [UInt8.lt_iff_toNat_lt]
    exact Nat.lt_of_le_of_lt hdigit.2 (by decide)
  unfold dec
  split
  · intro c hc
    rcases List.mem_append.mp hc with hc | hc
    · exact isAscii_of_all (by decide) c hc
    · exact hdigits _ c hc
  · exact hdigits _

theorem isUtf8_nil : IsUtf8 [] := ⟨[], rfl⟩

theorem IsUtf8.append (hs : IsUtf8 s) (ht : IsUtf8 t) : IsUtf8 (s ++ t) := by
  obtain ⟨chars, rfl⟩ := hs
  obtain ⟨more, rfl⟩ := ht
  exact ⟨chars ++ more, List.flatMap_append.symm⟩

theorem IsAscii.isUtf8 (hs : IsAscii s) : IsUtf8 s := by
  refine ⟨s.map Char.ofUInt8, ?_⟩
  rw [List.flatMap_map]
  induction s with
  | nil => rfl
  | cons c s ih =>
    rw [List.flatMap_cons, encode_ofUInt8 (hs c List.mem_cons_self),
      ← ih fun d hd => hs d (List.mem_cons_of_mem c hd)]
    rfl

/-- A literal seen to be ASCII is valid. -/
theorem isUtf8_text (s : String) (h : (text s).all (fun c => decide (c < 128)) = true) :
    IsUtf8 (text s) :=
  (isAscii_of_all h).isUtf8

theorem IsUtf8.append_text (hs : IsUtf8 s) (t : String)
    (h : (text t).all (fun c => decide (c < 128)) = true) : IsUtf8 (s ++ text t) :=
  hs.append (isUtf8_text t h)

/-- A valid text may be cut at an ASCII byte. -/
theorem isUtf8_cut (hc : c < 128) (s t : Bytes) :
    IsUtf8 (s ++ c :: t) ↔ IsUtf8 s ∧ IsUtf8 t := by
  constructor
  · rintro ⟨chars, h⟩
    induction chars generalizing s with
    | nil => simp at h
    | cons ch chars ih =>
      have hch : IsUtf8 (String.utf8EncodeChar ch) := ⟨[ch], by simp⟩
      rw [List.flatMap_cons] at h
      rcases List.append_eq_append_iff.mp h with ⟨u, henc, hrest⟩ | ⟨u, hs, hrest⟩
      · -- the cut lies in the first character, which is the byte itself, or right behind it
        cases u with
        | nil =>
          rw [List.append_nil] at henc
          obtain ⟨-, ht⟩ := ih [] hrest
          exact ⟨henc ▸ hch, ht⟩
        | cons d u =>
          obtain ⟨rfl, htail⟩ := List.cons_eq_cons.mp hrest
          rcases encode_cases ch with ⟨e, -, hone⟩ | hnone
          · rw [hone] at henc
            obtain ⟨rfl, hu⟩ : s = [] ∧ u = [] := by
              have hlen := congrArg List.length henc
              simp only [List.length_append, List.length_cons, List.length_nil] at hlen
              exact ⟨List.eq_nil_of_length_eq_zero (by omega),
                List.eq_nil_of_length_eq_zero (by omega)⟩
            exact ⟨isUtf8_nil, chars, by rw [htail, hu]; rfl⟩
          · exact absurd hc (hnone c (by simp [henc]))
      · obtain ⟨hu, ht⟩ := ih u hrest.symm
        exact ⟨hs ▸ hch.append hu, ht⟩
  · rintro ⟨hs, ht⟩
    have hone : IsAscii [c] := by simpa [IsAscii] using hc
    exact hs.append (hone.isUtf8.append ht)

theorem isUtf8_cons (hc : c < 128) (t : Bytes) : IsUtf8 (c :: t) ↔ IsUtf8 t := by
  rw [← List.nil_append (c :: t), isUtf8_cut hc]
  exact and_iff_right isUtf8_nil

/-- An ASCII text in front makes no difference. -/
theorem isUtf8_ascii_append (hs : IsAscii s) (t : Bytes) : IsUtf8 (s ++ t) ↔ IsUtf8 t := by
  induction s with
  | nil => rfl
  | cons c s ih =>
    rw [List.cons_append, isUtf8_cons (hs c List.mem_cons_self)]
    exact ih fun d hd => hs d (List.mem_cons_of_mem c hd)

/-- An ASCII text behind makes no difference. -/
theorem isUtf8_append_ascii (ht : IsAscii t) (s : Bytes) : IsUtf8 (s ++ t) ↔ IsUtf8 s := by
  cases t with
  | nil => rw [List.append_nil]
  | cons c t =>
    have htail : IsAscii t := fun d hd => ht d (List.mem_cons_of_mem c hd)
    rw [isUtf8_cut (ht c List.mem_cons_self)]
    exact and_iff_left htail.isUtf8

/-- A byte that occurs in no character makes a text invalid. -/
theorem not_isUtf8_of_mem (hc : 248 ≤ c.toNat) (hs : c ∈ s) : ¬IsUtf8 s := by
  rintro ⟨chars, rfl⟩
  obtain ⟨ch, -, hmem⟩ := List.mem_flatMap.mp hs
  have := encode_lt ch c hmem
  omega

end texts

section cuts

variable {s t : Bytes} {c : UInt8} {p : UInt8 → Bool}

/-- A run that only ASCII bytes end is valid. -/
theorem IsUtf8.takeWhile (hs : IsUtf8 s) (hp : ∀ c, p c = false → c < 128) :
    IsUtf8 (s.takeWhile p) := by
  rw [← List.takeWhile_append_dropWhile (p := p) (l := s)] at hs
  cases hd : s.dropWhile p with
  | nil => simpa [hd] using hs
  | cons c rest =>
    have hnot : p c = false := by
      have hhead := List.head_dropWhile_not (p := p) (l := s) (by simp [hd])
      simpa [hd] using hhead
    rw [hd] at hs
    exact ((isUtf8_cut (hp c hnot) _ _).mp hs).1

/-- What is left behind ASCII bytes is valid. -/
theorem IsUtf8.dropWhile (hs : IsUtf8 s) (hp : ∀ c, p c = true → c < 128) :
    IsUtf8 (s.dropWhile p) := by
  rw [← List.takeWhile_append_dropWhile (p := p) (l := s)] at hs
  exact (isUtf8_ascii_append (fun c hc => hp c (List.mem_takeWhile_imp hc)) _).mp hs

/-- What is left in front of ASCII bytes is valid. -/
theorem IsUtf8.rdropWhile (hs : IsUtf8 s) (hp : ∀ c, p c = true → c < 128) :
    IsUtf8 (s.rdropWhile p) := by
  rw [← List.rdropWhile_append_rtakeWhile (p := p) (l := s)] at hs
  exact (isUtf8_append_ascii (fun c hc => hp c (List.mem_rtakeWhile_imp hc)) _).mp hs

theorem IsUtf8.isEnd (hs : IsUtf8 s) : IsUtf8End s := ⟨[], hs⟩

/-- A part that reaches to the end of an end is one. -/
theorem IsUtf8End.of_append (h : IsUtf8End (t ++ s)) : IsUtf8End s := by
  obtain ⟨front, hf⟩ := h
  exact ⟨front ++ t, by rwa [List.append_assoc]⟩

theorem IsUtf8End.of_suffix (h : IsUtf8End t) (hs : s <:+ t) : IsUtf8End s := by
  obtain ⟨u, rfl⟩ := hs
  exact h.of_append

theorem IsUtf8End.drop (h : IsUtf8End s) (n : ℕ) : IsUtf8End (s.drop n) :=
  h.of_suffix (List.drop_suffix n s)

/-- Behind an ASCII byte an end is valid. -/
theorem IsUtf8End.behind (h : IsUtf8End (t ++ c :: s)) (hc : c < 128) : IsUtf8 s := by
  obtain ⟨front, hf⟩ := h
  rw [← List.append_assoc] at hf
  exact ((isUtf8_cut hc _ _).mp hf).2

end cuts

end Dlads.Utf8Text
