import Dlads.LineParsing

/-!
# The key-value loop

Equations for `extract_kv`: bytes that no key starts with are skipped, a word
without an equals sign yields nothing, and a key with an equals sign yields a
quoted or an unquoted value. The fields that result hold the first value of
each key in lower case.
-/

namespace Dlads.KeyValueScan

open ByteText StringMaps Records TextSearch LineParsing

/-- A word that the loop reads as a key. -/
structure IsKey (w : Bytes) : Prop where
  /-- Its first byte starts a key. -/
  start : ∃ c rest, w = c :: rest ∧ isKeyStart c = true
  /-- Its bytes are key bytes. -/
  chars : ∀ c ∈ w, isKeyChar c = true

theorem isKeyChar_of_isKeyStart {c : UInt8} (h : isKeyStart c = true) : isKeyChar c = true := by
  simp only [isKeyStart, isKeyChar, isAlnum, Bool.or_eq_true] at h ⊢
  tauto

section step

/-- An iteration that goes on leaves less text. -/
theorem kvStep_length {msg rest : Bytes} {pair : Option (Bytes × Bytes)}
    (h : kvStep msg = some (pair, rest)) : rest.length < msg.length := by
  unfold kvStep at h
  dsimp only at h
  have hstart : (msg.dropWhile (!isKeyStart ·)).length ≤ msg.length :=
    (List.dropWhile_suffix _).length_le
  cases hs : msg.dropWhile (!isKeyStart ·) with
  | nil => simp [hs] at h
  | cons c t =>
    have hc : isKeyStart c = true := by
      have hnot := List.head_dropWhile_not (p := (!isKeyStart ·)) (l := msg) (by simp [hs])
      simpa [hs] using hnot
    have hkey : ((c :: t).dropWhile isKeyChar).length ≤ t.length := by
      rw [List.dropWhile_cons_of_pos (isKeyChar_of_isKeyStart hc)]
      exact (List.dropWhile_suffix _).length_le
    rw [hs, List.length_cons] at hstart
    rw [hs] at h
    cases hk : (c :: t).dropWhile isKeyChar with
    | nil =>
      simp only [hk, List.isEmpty_cons, Bool.false_eq_true, if_false, Option.some.injEq,
        Prod.mk.injEq] at h
      rw [← h.2, List.length_nil]
      omega
    | cons sign tail =>
      rw [hk, List.length_cons] at hkey
      simp only [hk, List.isEmpty_cons, Bool.false_eq_true, if_false] at h
      split at h
      · simp only [Option.some.injEq, Prod.mk.injEq] at h
        rw [← h.2, List.length_cons]
        omega
      · cases tail with
        | nil => simp at h
        | cons first body =>
          rw [List.length_cons] at hkey
          dsimp only at h
          split at h
          · simp only [Option.some.injEq, Prod.mk.injEq] at h
            have hle := (List.dropWhile_suffix (· != 34) (l := body)).length_le
            rw [← h.2, List.length_drop]
            omega
          · simp only [Option.some.injEq, Prod.mk.injEq] at h
            have hle := (List.dropWhile_suffix isValueChar (l := first :: body)).length_le
            rw [List.length_cons] at hle
            rw [← h.2]
            omega

/-- Iterations beyond the length of the text change nothing. -/
theorem kvLoop_eq {fuel : ℕ} {msg : Bytes} (h : msg.length < fuel) :
    kvLoop fuel msg = kvPairs msg := by
  have hany : ∀ f g (msg : Bytes), msg.length < f → msg.length < g →
      kvLoop f msg = kvLoop g msg := by
    intro f
    induction f with
    | zero => intro g msg hf; omega
    | succ f ih =>
      intro g msg hf hg
      cases g with
      | zero => omega
      | succ g =>
        rw [kvLoop, kvLoop]
        cases hs : kvStep msg with
        | none => rfl
        | some step =>
          have hlen : step.2.length < msg.length := kvStep_length hs
          dsimp only
          rw [ih g step.2 (by omega) (by omega)]
  exact hany fuel (msg.length + 1) msg h (Nat.lt_succ_self _)

/-- The pairs of a text are the pair of the first iteration and those of the
text it leaves. -/
theorem kvPairs_eq (msg : Bytes) : kvPairs msg =
    match kvStep msg with
    | none => []
    | some (pair, rest) => pair.toList ++ kvPairs rest := by
  rw [kvPairs, kvLoop]
  cases hs : kvStep msg with
  | none => rfl
  | some step =>
    have hlen : step.2.length < msg.length := kvStep_length hs
    dsimp only
    rw [kvLoop_eq hlen]

end step

section equations

/-- A byte that no key starts with is skipped. -/
theorem kvPairs_skip {c : UInt8} (hc : isKeyStart c = false) (t : Bytes) :
    kvPairs (c :: t) = kvPairs t := by
  have hstep : kvStep (c :: t) = kvStep t := by
    unfold kvStep
    rw [List.dropWhile_cons_of_pos (by simp [hc])]
  rw [kvPairs_eq, kvPairs_eq t, hstep]

variable {w : Bytes} (hw : IsKey w)

include hw

/-- A key is where an iteration starts, and what it takes. -/
theorem kvStep_key {c : UInt8} (hc : isKeyChar c = false) (t : Bytes) :
    (w ++ c :: t).dropWhile (!isKeyStart ·) = w ++ c :: t ∧
      (w ++ c :: t).takeWhile isKeyChar = w ∧ (w ++ c :: t).dropWhile isKeyChar = c :: t := by
  refine ⟨?_, takeWhile_run_sep hw.chars hc t, dropWhile_run_sep hw.chars hc t⟩
  obtain ⟨x, rest, hx, hstart⟩ := hw.start
  rw [hx, List.cons_append, List.dropWhile_cons_of_neg (by simp [hstart])]

/-- A word before another byte than an equals sign yields nothing. -/
theorem kvPairs_word {c : UInt8} (hc : isKeyChar c = false) (hsign : c ≠ 61) (t : Bytes) :
    kvPairs (w ++ c :: t) = kvPairs (c :: t) := by
  obtain ⟨hskip, -, hdrop⟩ := kvStep_key hw hc t
  have hstep : kvStep (w ++ c :: t) = some (none, c :: t) := by
    unfold kvStep
    simp [hskip, hdrop, hsign]
  rw [kvPairs_eq, hstep]
  rfl

/-- A word at the end yields nothing. -/
theorem kvPairs_last : kvPairs w = [] := by
  obtain ⟨x, rest, hx, hstart⟩ := hw.start
  have hskip : w.dropWhile (!isKeyStart ·) = w := by
    rw [hx, List.dropWhile_cons_of_neg (by simp [hstart])]
  have hdrop : w.dropWhile isKeyChar = [] := List.dropWhile_eq_nil_iff.mpr hw.chars
  have hne : w ≠ [] := by
    rw [hx]
    exact List.cons_ne_nil x rest
  have hstep : kvStep w = some (none, []) := by
    unfold kvStep
    simp [hskip, hdrop, hne]
  rw [kvPairs_eq, hstep]
  rfl

/-- A key with a quoted value. -/
theorem kvPairs_quoted (t : Bytes) : kvPairs (w ++ 61 :: 34 :: t) =
    (w, t.takeWhile (· != 34)) :: kvPairs ((t.dropWhile (· != 34)).drop 1) := by
  obtain ⟨hskip, htake, hdrop⟩ := kvStep_key hw (c := 61) (by decide) (34 :: t)
  have hstep : kvStep (w ++ 61 :: 34 :: t) =
      some (some (w, t.takeWhile (· != 34)), (t.dropWhile (· != 34)).drop 1) := by
    unfold kvStep
    simp [hskip, htake, hdrop]
  rw [kvPairs_eq, hstep]
  rfl

/-- A key with an unquoted value. -/
theorem kvPairs_unquoted {c : UInt8} (hc : c ≠ 34) (t : Bytes) : kvPairs (w ++ 61 :: c :: t) =
    (w, (c :: t).takeWhile isValueChar) :: kvPairs ((c :: t).dropWhile isValueChar) := by
  obtain ⟨hskip, htake, hdrop⟩ := kvStep_key hw (c := 61) (by decide) (c :: t)
  have hstep : kvStep (w ++ 61 :: c :: t) =
      some (some (w, (c :: t).takeWhile isValueChar), (c :: t).dropWhile isValueChar) := by
    unfold kvStep
    simp only [hskip, htake, hdrop]
    simp [hc]
  rw [kvPairs_eq, hstep]
  rfl

end equations

section texts

/-- What the loop finds at the front of a text. -/
inductive Shape : Bytes → Prop
  /-- Nothing. -/
  | empty : Shape []
  /-- A byte that no key starts with. -/
  | skip (c : UInt8) (t : Bytes) (hc : isKeyStart c = false) : Shape (c :: t)
  /-- A word that ends the text. -/
  | last (w : Bytes) (hw : IsKey w) : Shape w
  /-- A word and the byte that ends it. -/
  | word (w : Bytes) (c : UInt8) (t : Bytes) (hw : IsKey w) (hc : isKeyChar c = false) :
    Shape (w ++ c :: t)

theorem shape (s : Bytes) : Shape s := by
  cases s with
  | nil => exact .empty
  | cons c t =>
    cases hc : isKeyStart c with
    | false => exact .skip c t hc
    | true =>
      have hchar := isKeyChar_of_isKeyStart hc
      have hw : IsKey ((c :: t).takeWhile isKeyChar) := by
        refine ⟨⟨c, t.takeWhile isKeyChar, List.takeWhile_cons_of_pos hchar, hc⟩, fun x hx => ?_⟩
        exact List.mem_takeWhile_imp hx
      have hsplit := List.takeWhile_append_dropWhile (p := isKeyChar) (l := c :: t)
      cases hd : (c :: t).dropWhile isKeyChar with
      | nil =>
        rw [hd, List.append_nil] at hsplit
        rw [hsplit] at hw
        exact .last _ hw
      | cons x rest =>
        have hx : isKeyChar x = false := by
          have hnot := List.head_dropWhile_not (p := isKeyChar) (l := c :: t) (by simp [hd])
          simpa [hd] using hnot
        rw [hd] at hsplit
        rw [← hsplit]
        exact .word _ x rest hw hx

/-- A word is not empty. -/
theorem IsKey.length_pos {w : Bytes} (hw : IsKey w) : 0 < w.length := by
  obtain ⟨x, rest, hx, -⟩ := hw.start
  rw [hx, List.length_cons]
  omega

/-- A text without an equals sign yields nothing. -/
theorem kvPairs_of_no_sign {s : Bytes} (hs : 61 ∉ s) : kvPairs s = [] := by
  induction hn : s.length using Nat.strong_induction_on generalizing s with
  | _ n ih =>
    cases shape s with
    | empty => rfl
    | skip c t hc =>
      rw [kvPairs_skip hc]
      exact ih t.length (by simp [← hn]) (fun h => hs (List.mem_cons_of_mem c h)) rfl
    | last w hw => exact kvPairs_last hw
    | word w c t hw hc =>
      have hsign : c ≠ 61 := fun h => hs (by simp [h])
      have hpos := hw.length_pos
      rw [kvPairs_word hw hc hsign]
      refine ih (c :: t).length ?_ (fun h => hs (List.mem_append_right w h)) rfl
      rw [← hn, List.length_append]
      omega

/-- A text without an equals sign before a blank yields nothing either. -/
theorem kvPairs_append_of_no_sign {s : Bytes} (hs : 61 ∉ s) (t : Bytes) :
    kvPairs (s ++ 32 :: t) = kvPairs (32 :: t) := by
  induction hn : s.length using Nat.strong_induction_on generalizing s with
  | _ n ih =>
    cases shape s with
    | empty => rfl
    | skip c r hc =>
      rw [List.cons_append, kvPairs_skip hc]
      exact ih r.length (by simp [← hn]) (fun h => hs (List.mem_cons_of_mem c h)) rfl
    | last w hw => exact kvPairs_word hw (by decide) (by decide) t
    | word w c r hw hc =>
      have hsign : c ≠ 61 := fun h => hs (by simp [h])
      have hpos := hw.length_pos
      rw [List.append_assoc, List.cons_append, kvPairs_word hw hc hsign, ← List.cons_append]
      refine ih (c :: r).length ?_ (fun h => hs (List.mem_append_right w h)) rfl
      rw [← hn, List.length_append]
      omega

end texts

section comparison

/-- Values that are equal or both hold a blank. -/
def SimilarValue (a b : Bytes) : Prop := a = b ∨ (32 ∈ a ∧ 32 ∈ b)

/-- Pairs with the same key and similar values. -/
def Similar (a b : Bytes × Bytes) : Prop := a.1 = b.1 ∧ SimilarValue a.2 b.2

/-- A key with a value that starts a text: what follows the text behind a
blank shows only in a quotation that stays open, if it does not show in
shorter texts. -/
theorem kvPairs_similar_value {w s t : Bytes} (hw : IsKey w) (hs : 34 ∉ s) (ht : 34 ∉ t) (r : Bytes)
    (ih : ∀ u : Bytes, u.length ≤ r.length →
      List.Forall₂ Similar (kvPairs (u ++ 32 :: s)) (kvPairs (u ++ 32 :: t))) :
    List.Forall₂ Similar (kvPairs (w ++ 61 :: (r ++ 32 :: s)))
      (kvPairs (w ++ 61 :: (r ++ 32 :: t))) := by
  cases r with
  | nil =>
    -- The value is empty: the blank ends it.
    rw [List.nil_append, List.nil_append, kvPairs_unquoted hw (by decide),
      kvPairs_unquoted hw (by decide)]
    exact .cons ⟨rfl, .inl rfl⟩ (ih [] (Nat.le_refl 0))
  | cons q b =>
    rw [List.length_cons] at ih
    by_cases hq : q = 34
    · subst hq
      rw [List.cons_append, List.cons_append, kvPairs_quoted hw, kvPairs_quoted hw]
      by_cases hb : 34 ∈ b
      · obtain ⟨v, b', rfl, hv⟩ := List.eq_append_cons_of_mem hb
        have hrun : ∀ x ∈ v, (x != 34) = true := by
          intro x hx
          have hne : x ≠ 34 := fun h => hv (h ▸ hx)
          simpa using hne
        rw [List.append_assoc, List.append_assoc, List.cons_append, List.cons_append,
          takeWhile_run_sep hrun (by decide), takeWhile_run_sep hrun (by decide),
          dropWhile_run_sep hrun (by decide), dropWhile_run_sep hrun (by decide)]
        refine .cons ⟨rfl, .inl rfl⟩ (ih b' ?_)
        rw [List.length_append, List.length_cons]
        omega
      · -- The quotation stays open and takes everything that follows.
        have hopen : ∀ r : Bytes, 34 ∉ r → ∀ x ∈ b ++ 32 :: r, (x != 34) = true := by
          intro r hr x hx
          have hne : x ≠ 34 := by
            rintro rfl
            simp [hb, hr] at hx
          simpa using hne
        rw [List.takeWhile_eq_self_iff.mpr (hopen s hs),
          List.takeWhile_eq_self_iff.mpr (hopen t ht),
          List.dropWhile_eq_nil_iff.mpr (hopen s hs), List.dropWhile_eq_nil_iff.mpr (hopen t ht)]
        exact .cons ⟨rfl, .inr ⟨by simp, by simp⟩⟩ .nil
    · rw [List.cons_append, List.cons_append, kvPairs_unquoted hw hq, kvPairs_unquoted hw hq,
        ← List.cons_append, ← List.cons_append, takeWhile_append_sep (by decide),
        takeWhile_append_sep (by decide), dropWhile_append_sep (by decide),
        dropWhile_append_sep (by decide)]
      exact .cons ⟨rfl, .inl rfl⟩ (ih _ (List.dropWhile_suffix isValueChar).length_le)

/-- What follows a text behind a blank, without equals signs and quotation
marks, has no influence on the pairs but at the end of an open quotation. -/
theorem kvPairs_similar {s t : Bytes} (hs : 61 ∉ s ∧ 34 ∉ s) (ht : 61 ∉ t ∧ 34 ∉ t) (u : Bytes) :
    List.Forall₂ Similar (kvPairs (u ++ 32 :: s)) (kvPairs (u ++ 32 :: t)) := by
  have hnone : List.Forall₂ Similar (kvPairs (32 :: s)) (kvPairs (32 :: t)) := by
    rw [kvPairs_of_no_sign (by simp [hs.1]), kvPairs_of_no_sign (by simp [ht.1])]
    exact .nil
  induction hn : u.length using Nat.strong_induction_on generalizing u with
  | _ n ih =>
    cases shape u with
    | empty => exact hnone
    | skip c r hc =>
      rw [List.cons_append, List.cons_append, kvPairs_skip hc, kvPairs_skip hc]
      exact ih r.length (by simp [← hn]) r rfl
    | last w hw =>
      rw [kvPairs_word hw (by decide) (by decide), kvPairs_word hw (by decide) (by decide)]
      exact hnone
    | word w c r hw hc =>
      have hpos := hw.length_pos
      rw [List.append_assoc, List.append_assoc, List.cons_append, List.cons_append]
      rw [List.length_append, List.length_cons] at hn
      by_cases hsign : c = 61
      · rw [hsign]
        exact kvPairs_similar_value hw hs.2 ht.2 r fun v hv => ih v.length (by omega) v rfl
      · rw [kvPairs_word hw hc hsign, kvPairs_word hw hc hsign, ← List.cons_append,
          ← List.cons_append]
        refine ih (c :: r).length ?_ (c :: r) rfl
        rw [List.length_cons]
        omega

end comparison

section fields

/-- The first value of a key, which is compared in lower case. -/
def firstValue (key : Bytes) (pairs : List (Bytes × Bytes)) : Option Bytes :=
  (pairs.find? fun pair => pair.1.map toLower == key).map Prod.snd

/-- A field is what it was, or else the first value of its key. -/
theorem lookup_extractKv (msg : Bytes) (ev : LogEvent) (key : Bytes) :
    (extractKv msg ev).fields.lookup key =
      (ev.fields.lookup key).or (firstValue key (kvPairs msg)) := by
  unfold extractKv
  dsimp only
  generalize kvPairs msg = pairs
  generalize ev.fields = m
  induction pairs generalizing m with
  | nil => simp [firstValue]
  | cons pair pairs ih =>
    rw [List.foldl_cons, ih, lookup_emplace, firstValue, firstValue, List.find?_cons]
    by_cases hk : key = pair.1.map toLower
    · subst hk
      cases hm : m.lookup (pair.1.map toLower) <;> simp
    · have hne : (pair.1.map toLower == key) = false := by simpa using Ne.symm hk
      rw [if_neg hk, hne]

/-- Similar pairs have similar first values. -/
theorem firstValue_similar {as bs : List (Bytes × Bytes)} (h : List.Forall₂ Similar as bs)
    (key : Bytes) : Option.Rel SimilarValue (firstValue key as) (firstValue key bs) := by
  unfold firstValue
  induction h with
  | nil => exact .none
  | @cons a b as bs hab _ ih =>
    rw [List.find?_cons, List.find?_cons, ← hab.1]
    split
    · exact .some hab.2
    · exact ih

end fields

end Dlads.KeyValueScan
