import Mathlib.Data.Nat.Prime.Basic
import Mathlib.Tactic.FieldSimp
import Dlads.FloatRounding
import Dlads.JsonRoundTrip

/-!
# Decimal expansions

A fraction whose denominator is a power of two has a decimal expansion that
ends, and a reader of numbers takes it back to the fraction. The values of
single precision are such fractions.
-/

namespace Dlads.DecimalPrinting

open ByteText FloatFormat JsonValue JsonReading JsonRoundTrip

section decimals

/-- The last `k` digits of a number, with leading zeros. -/
def lastDigits : ℕ → ℕ → Bytes
  | 0, _ => []
  | k + 1, m => lastDigits k (m / 10) ++ [(Nat.digitChar (m % 10)).toUInt8]

/-- The decimal expansion of a fraction whose denominator is a power of two,
with at least one digit behind the point. -/
def decimal (q : ℚ) : Bytes :=
  let k := max 1 (Nat.log2 q.den)
  let m := q.num.natAbs * (10 ^ k / q.den)
  (if q < 0 then [45] else []) ++ decNat (m / 10 ^ k) ++ 46 :: lastDigits k m

theorem length_lastDigits (k m : ℕ) : (lastDigits k m).length = k := by
  induction k generalizing m with
  | zero => rfl
  | succ k ih => rw [lastDigits, List.length_append, ih, List.length_singleton]

theorem isDigit_lastDigits (k m : ℕ) : ∀ c ∈ lastDigits k m, isDigit c = true := by
  induction k generalizing m with
  | zero => simp [lastDigits]
  | succ k ih =>
    intro c hc
    rcases List.mem_append.mp hc with hc | hc
    · exact ih _ c hc
    · rw [List.mem_singleton.mp hc]
      exact (digitChar_toUInt8 (Nat.mod_lt m (by decide))).1

theorem digitsValue_concat (s : Bytes) (c : UInt8) :
    digitsValue (s ++ [c]) = digitsValue s * 10 + (c.toNat - 48) := by
  rw [digitsValue, List.foldl_append]
  rfl

/-- A number is what its front digits and its last digits denote together. -/
theorem digitsValue_append_lastDigits (k m : ℕ) (s : Bytes) (h : digitsValue s = m / 10 ^ k) :
    digitsValue (s ++ lastDigits k m) = m := by
  induction k generalizing m with
  | zero => simpa [lastDigits] using h
  | succ k ih =>
    have hfront : digitsValue s = m / 10 / 10 ^ k := by
      rw [h, Nat.div_div_eq_div_mul, Nat.pow_succ']
    rw [lastDigits, ← List.append_assoc, digitsValue_concat, ih _ hfront,
      (digitChar_toUInt8 (Nat.mod_lt m (by decide))).2]
    omega

/-- A sign, digits, a point and more digits denote what they say. -/
theorem numberValue_decimal (negative : Bool) (w : ℕ) {ds : Bytes} (hne : ds ≠ [])
    (hds : ∀ c ∈ ds, isDigit c = true) :
    numberValue ((if negative then [45] else []) ++ decNat w ++ 46 :: ds) =
      some (.real (scale (if negative then -(digitsValue (decNat w ++ ds) : ℤ)
        else digitsValue (decNat w ++ ds)) (0 - ds.length))) := by
  have hpoint : isDigit 46 = false := by decide
  have hwhole : ∀ c ∈ decNat w, isDigit c = true := fun c hc => isDigit_of_mem_decNat hc
  have htake : (decNat w ++ 46 :: ds).takeWhile isDigit = decNat w := by
    rw [List.takeWhile_append_of_pos hwhole, List.takeWhile_cons_of_neg (by simp [hpoint]),
      List.append_nil]
  have hdrop : (decNat w ++ 46 :: ds).dropWhile isDigit = 46 :: ds := by
    rw [List.dropWhile_append_of_pos hwhole, List.dropWhile_cons_of_neg (by simp [hpoint])]
  have hzero : ((decNat w).isEmpty ||
      ((decNat w).head? == some 48 && decide (1 < (decNat w).length))) = false := by
    rw [show (decNat w).isEmpty = false by simpa using decNat_ne_nil w, Bool.false_or,
      Bool.and_eq_false_iff]
    by_cases hw : w = 0
    · rw [hw]
      exact .inr rfl
    · exact .inl (by simpa using decNat_no_zero hw)
  have hfraction : fraction (46 :: ds) = some (ds, []) := by
    have htakeDs : ds.takeWhile isDigit = ds := List.takeWhile_eq_self_iff.mpr hds
    have hdropDs : ds.dropWhile isDigit = [] := List.dropWhile_eq_nil_iff.mpr hds
    rw [fraction, htakeDs, hdropDs, if_neg (by simpa using hne)]
  obtain ⟨c, rest, hdec, hc⟩ := opens_decNat w
  have hsign : ((decNat w ++ 46 :: ds).head? == some 45) = false := by
    have hne45 : c ≠ 45 := by
      rintro rfl
      exact absurd hc (by decide)
    rw [hdec]
    simpa using hne45
  cases negative with
  | true =>
    simp only [numberValue, if_true, List.cons_append, List.nil_append, List.head?_cons,
      beq_self_eq_true, List.drop_succ_cons, List.drop_zero, htake, hdrop, hzero,
      Bool.false_eq_true, if_false, List.isEmpty_cons, hfraction, exponent, Option.map_some]
  | false =>
    simp only [numberValue, Bool.false_eq_true, if_false, List.nil_append, hsign, htake, hdrop,
      hzero, List.isEmpty_cons, hfraction, exponent, Option.map_some]

/-- A fraction whose denominator is a power of two is printed as its decimal
expansion. -/
theorem printsReal_decimal {q : ℚ} {k : ℕ} (hq : q.den = 2 ^ k) : PrintsReal decimal q := by
  have hlog : Nat.log2 q.den = k := by rw [hq, Nat.log2_two_pow]
  obtain ⟨p, hp⟩ : ∃ p, p = max 1 k := ⟨_, rfl⟩
  obtain ⟨c, hc⟩ : 2 ^ k ∣ 10 ^ p := by
    refine (Nat.pow_dvd_pow 2 (hp ▸ le_max_right 1 k)).trans ?_
    exact pow_dvd_pow_of_dvd (by decide) p
  have hpos : 0 < 2 ^ k := Nat.two_pow_pos k
  have hquot : 10 ^ p / q.den = c := by rw [hq, hc, Nat.mul_div_cancel_left c hpos]
  have htext : decimal q = (if decide (q < 0) = true then [45] else []) ++
      decNat (q.num.natAbs * c / 10 ^ p) ++ 46 :: lastDigits p (q.num.natAbs * c) := by
    simp only [decimal, hlog, ← hp, hquot, decide_eq_true_eq]
  have hlen : (lastDigits p (q.num.natAbs * c)).length = p := length_lastDigits _ _
  have hne : lastDigits p (q.num.natAbs * c) ≠ [] := by
    intro h
    rw [h, List.length_nil] at hlen
    have := le_max_left 1 k
    omega
  have hdigits := isDigit_lastDigits p (q.num.natAbs * c)
  refine ⟨?_, ?_, ?_⟩
  · intro d hd
    rw [htext] at hd
    rcases List.mem_append.mp hd with hd | hd
    · rcases List.mem_append.mp hd with hd | hd
      · split at hd
        · rw [List.mem_singleton.mp hd]
          decide
        · cases hd
      · simp [isNumeric, isDigit_of_mem_decNat hd]
    · rcases List.mem_cons.mp hd with rfl | hd
      · decide
      · simp [isNumeric, hdigits d hd]
  · rw [htext]
    split
    · exact ⟨45, _, rfl, .inl rfl⟩
    · obtain ⟨d, rest, hdec, hd⟩ := opens_decNat (q.num.natAbs * c / 10 ^ p)
      rw [hdec]
      exact ⟨d, _, rfl, .inr hd⟩
  · have hvalue : digitsValue (decNat (q.num.natAbs * c / 10 ^ p) ++
        lastDigits p (q.num.natAbs * c)) = q.num.natAbs * c :=
      digitsValue_append_lastDigits p _ _ (digitsValue_decNat _)
    rw [htext, numberValue_decimal _ _ hne hdigits, hvalue, hlen]
    congr 2
    have hexp : ¬(0 : ℤ) ≤ 0 - p := by
      have := le_max_left 1 k
      omega
    have hnum : (if decide (q < 0) = true then -((q.num.natAbs * c : ℕ) : ℤ)
        else ((q.num.natAbs * c : ℕ) : ℤ)) = q.num * c := by
      have hneg : q < 0 ↔ q.num < 0 := by rw [← not_le, ← not_le, Rat.num_nonneg]
      simp only [decide_eq_true_eq, hneg]
      split
      · next h =>
        push_cast
        rw [abs_of_neg h]
        ring
      · next h =>
        push_cast
        rw [abs_of_nonneg (not_lt.mp h)]
    have hten : ((10 : ℚ) ^ p) = 2 ^ k * c := by exact_mod_cast hc
    have hc0 : (c : ℚ) ≠ 0 := by
      intro h
      rw [h, mul_zero] at hten
      exact absurd hten (by positivity)
    have hexp' : (-(0 - (p : ℤ))).toNat = p := by omega
    rw [scale, if_neg hexp, hnum, hexp', hten]
    push_cast
    rw [mul_div_mul_right _ _ hc0]
    have hself := Rat.num_div_den q
    rw [hq] at hself
    exact_mod_cast hself

/-- A value of single precision has a power of two for its denominator. -/
theorem IsValue.den {q : ℚ} (h : IsValue q) : ∃ k, q.den = 2 ^ k := by
  obtain ⟨m, e, rfl, -, hlow, -⟩ := h
  obtain ⟨n, hn⟩ : ∃ n : ℕ, (n : ℤ) = e + 149 := ⟨(e + 149).toNat, by omega⟩
  have hsplit : (2 : ℚ) ^ e = 2 ^ n / 2 ^ 149 := by
    rw [eq_div_iff (by positivity), ← zpow_natCast, ← zpow_natCast, ← two_zpow_add]
    congr 1
    push_cast
    omega
  have hfraction : (m : ℚ) * 2 ^ e = ((m * 2 ^ n : ℤ) : ℚ) / ((2 ^ 149 : ℤ) : ℚ) := by
    rw [hsplit]
    push_cast
    ring
  have hdvd : (((m : ℚ) * 2 ^ e).den : ℤ) ∣ 2 ^ 149 := by
    rw [hfraction, Rat.intCast_div_eq_divInt]
    exact Rat.den_dvd _ _
  have hnat : ((m : ℚ) * 2 ^ e).den ∣ 2 ^ 149 := by exact_mod_cast hdvd
  obtain ⟨k, -, hk⟩ := (Nat.dvd_prime_pow Nat.prime_two).mp hnat
  exact ⟨k, hk⟩

/-- Every value of single precision is printed as its decimal expansion. -/
theorem printsReal_of_isValue {q : ℚ} (h : IsValue q) : PrintsReal decimal q := by
  obtain ⟨k, hk⟩ := IsValue.den h
  exact printsReal_decimal hk

end decimals

end Dlads.DecimalPrinting
