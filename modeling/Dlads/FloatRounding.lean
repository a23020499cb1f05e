import Mathlib.Algebra.Order.Field.Power
import Mathlib.Tactic.Linarith
import Mathlib.Tactic.Ring
import Dlads.FloatFormat

/-!
# Rounding to single precision

What the format can hold is a significand of 24 bits times a power of two
between 2^-149 and 2^104. Rounding leaves such a value alone, and whatever it
makes of a rational is one, so that rounding twice is rounding once.
-/

namespace Dlads.FloatFormat

/-- A rational that single precision holds. -/
def IsValue (q : ℚ) : Prop :=
  ∃ m e : ℤ, q = m * (2 : ℚ) ^ e ∧ |m| < 2 ^ 24 ∧ -149 ≤ e ∧ e ≤ 104

/-- A value of the format; its finite ones are the rationals it holds. -/
def Binary32.WellFormed : Binary32 → Prop
  | .finite q => IsValue q
  | _ => True

section nearest

theorem roundHalfEven_int (n : ℤ) : roundHalfEven n = n := by
  have hfloor : (n : ℚ).floor = n := Rat.floor_intCast n
  simp only [roundHalfEven, hfloor, sub_self]
  exact if_pos (by norm_num)

/-- Rounding moves by less than one. -/
theorem floor_le_roundHalfEven (q : ℚ) :
    q.floor ≤ roundHalfEven q ∧ roundHalfEven q ≤ q.floor + 1 := by
  unfold roundHalfEven
  dsimp only
  split_ifs <;> omega

/-- Rounding does not pass an integer. -/
theorem roundHalfEven_le {q : ℚ} {n : ℤ} (h : q < n) : roundHalfEven q ≤ n := by
  have hfloor : q.floor < n := Rat.floor_lt_iff.mpr h
  have := (floor_le_roundHalfEven q).2
  omega

theorem le_roundHalfEven {q : ℚ} {n : ℤ} (h : n ≤ q) : n ≤ roundHalfEven q :=
  (Rat.le_floor_iff.mpr h).trans (floor_le_roundHalfEven q).1

end nearest

section exponents

theorem two_zpow_pos (e : ℤ) : (0 : ℚ) < 2 ^ e := zpow_pos (by norm_num) e

theorem two_zpow_add (a b : ℤ) : (2 : ℚ) ^ (a + b) = 2 ^ a * 2 ^ b := zpow_add₀ (by norm_num) a b

theorem two_zpow_lt_iff {a b : ℤ} : (2 : ℚ) ^ a < 2 ^ b ↔ a < b :=
  zpow_lt_zpow_iff_right₀ (by norm_num)

theorem two_zpow_le_iff {a b : ℤ} : (2 : ℚ) ^ a ≤ 2 ^ b ↔ a ≤ b :=
  zpow_le_zpow_iff_right₀ (by norm_num)

/-- A natural number lies between two powers of two. -/
theorem log2_bounds {n : ℕ} (hn : n ≠ 0) :
    (2 : ℚ) ^ (n.log2 : ℤ) ≤ n ∧ (n : ℚ) < 2 ^ ((n.log2 : ℤ) + 1) := by
  have hlow : 2 ^ n.log2 ≤ n := Nat.log2_self_le hn
  have hhigh : n < 2 ^ (n.log2 + 1) := Nat.lt_log2_self
  rw [← Nat.cast_succ, zpow_natCast, zpow_natCast]
  exact ⟨by exact_mod_cast hlow, by exact_mod_cast hhigh⟩

/-- The binade of a positive rational is the power of two below it. -/
theorem binade_spec {q : ℚ} (hq : 0 < q) :
    (2 : ℚ) ^ binade q ≤ q ∧ q < (2 : ℚ) ^ (binade q + 1) := by
  have hnum : 0 < q.num := Rat.num_pos.mpr hq
  have hcross : q * q.den = q.num.natAbs := by
    rw [Rat.mul_den_eq_num, ← Int.cast_natCast, Int.natAbs_of_nonneg hnum.le]
  have hden : (0 : ℚ) < q.den := by exact_mod_cast q.pos
  obtain ⟨hna, hna'⟩ := log2_bounds (Int.natAbs_ne_zero.mpr hnum.ne')
  obtain ⟨hdb, hdb'⟩ := log2_bounds q.den_nz
  set a := Nat.log2 q.num.natAbs with ha
  set b := Nat.log2 q.den with hb
  have hupper : q < 2 ^ ((a : ℤ) - b + 1) := by
    refine lt_of_mul_lt_mul_right ?_ hden.le
    calc q * q.den
      _ = q.num.natAbs := hcross
      _ < 2 ^ ((a : ℤ) + 1) := hna'
      _ = 2 ^ ((a : ℤ) - b + 1) * 2 ^ (b : ℤ) := by
        rw [← two_zpow_add]
        congr 1
        ring
      _ ≤ 2 ^ ((a : ℤ) - b + 1) * q.den := mul_le_mul_of_nonneg_left hdb (two_zpow_pos _).le
  have hlower : (2 : ℚ) ^ ((a : ℤ) - b - 1) < q := by
    refine lt_of_mul_lt_mul_right ?_ hden.le
    calc (2 : ℚ) ^ ((a : ℤ) - b - 1) * q.den
      _ < 2 ^ ((a : ℤ) - b - 1) * 2 ^ ((b : ℤ) + 1) :=
        mul_lt_mul_of_pos_left hdb' (two_zpow_pos _)
      _ = 2 ^ (a : ℤ) := by
        rw [← two_zpow_add]
        congr 1
        ring
      _ ≤ q.num.natAbs := hna
      _ = q * q.den := hcross.symm
  unfold binade
  dsimp only
  rw [← ha, ← hb]
  split_ifs with hguess
  · exact ⟨hguess, hupper⟩
  · refine ⟨hlower.le, ?_⟩
    rw [sub_add_cancel]
    exact not_le.mp hguess

end exponents

section values

/-- The spacing of the values around a rational. -/
def ulpExponent (q : ℚ) : ℤ := max (binade |q| - 23) (-149)

/-- Rounding a rational that is not zero. -/
theorem roundBinary32_eq {q : ℚ} (hq : q ≠ 0) : roundBinary32 q =
    if (2 : ℚ) ^ (128 : ℤ) ≤
        roundHalfEven (|q| / 2 ^ ulpExponent q) * 2 ^ ulpExponent q then .inf (q < 0)
    else .finite (if q < 0 then -(roundHalfEven (|q| / 2 ^ ulpExponent q) * 2 ^ ulpExponent q)
      else roundHalfEven (|q| / 2 ^ ulpExponent q) * 2 ^ ulpExponent q) := by
  rw [roundBinary32, if_neg hq]
  rfl

/-- A value of the format rounds to itself. -/
theorem IsValue.round {q : ℚ} (h : IsValue q) : roundBinary32 q = .finite q := by
  obtain ⟨m, e, rfl, hm, hlow, hhigh⟩ := h
  by_cases hq : (m : ℚ) * 2 ^ e = 0
  · rw [roundBinary32, if_pos hq, hq]
  · have hpos : 0 < |(m : ℚ) * 2 ^ e| := abs_pos.mpr hq
    have habs : |(m : ℚ) * 2 ^ e| = ((|m| : ℤ) : ℚ) * 2 ^ e := by
      rw [abs_mul, abs_of_pos (two_zpow_pos e), Int.cast_abs]
    have hlt : |(m : ℚ) * 2 ^ e| < 2 ^ (24 + e) := by
      rw [habs, two_zpow_add]
      refine mul_lt_mul_of_pos_right ?_ (two_zpow_pos e)
      exact_mod_cast hm
    have hbinade : binade |(m : ℚ) * 2 ^ e| < 24 + e :=
      two_zpow_lt_iff.mp ((binade_spec hpos).1.trans_lt hlt)
    obtain ⟨k, hk⟩ : ∃ k : ℕ, e = ulpExponent (m * 2 ^ e) + k := by
      refine ⟨(e - ulpExponent (m * 2 ^ e)).toNat, ?_⟩
      have : ulpExponent (m * 2 ^ e) ≤ e := max_le (by omega) hlow
      omega
    have hscaled : |(m : ℚ) * 2 ^ e| / 2 ^ ulpExponent (m * 2 ^ e) = ((|m| * 2 ^ k : ℤ) : ℚ) := by
      have he : (2 : ℚ) ^ e = 2 ^ k * 2 ^ ulpExponent (m * 2 ^ e) := by
        calc (2 : ℚ) ^ e
          _ = 2 ^ (ulpExponent (m * 2 ^ e) + k) := congrArg _ hk
          _ = 2 ^ k * 2 ^ ulpExponent (m * 2 ^ e) := by
            rw [two_zpow_add, zpow_natCast, mul_comm]
      rw [habs, div_eq_iff (two_zpow_pos _).ne', Int.cast_mul, mul_assoc]
      push_cast
      rw [← he]
    have hback : (roundHalfEven (|(m : ℚ) * 2 ^ e| / 2 ^ ulpExponent (m * 2 ^ e)) : ℚ) *
        2 ^ ulpExponent (m * 2 ^ e) = |(m : ℚ) * 2 ^ e| := by
      rw [hscaled, roundHalfEven_int, ← hscaled]
      exact div_mul_cancel₀ _ (two_zpow_pos _).ne'
    have hfits : ¬(2 : ℚ) ^ (128 : ℤ) ≤ |(m : ℚ) * 2 ^ e| := by
      rw [not_le]
      exact hlt.trans_le (two_zpow_le_iff.mpr (by omega))
    rw [roundBinary32_eq hq, hback, if_neg hfits]
    congr 1
    split_ifs with hneg
    · rw [abs_of_neg hneg, neg_neg]
    · exact abs_of_nonneg (not_lt.mp hneg)

theorem IsValue.neg {q : ℚ} (h : IsValue q) : IsValue (-q) := by
  obtain ⟨m, e, rfl, hm, hlow, hhigh⟩ := h
  exact ⟨-m, e, by push_cast; ring, by rwa [abs_neg], hlow, hhigh⟩

theorem isValue_int {n : ℤ} (hn : |n| < 2 ^ 24) : IsValue n :=
  ⟨n, 0, by rw [zpow_zero, mul_one], hn, by decide, by decide⟩

/-- The significand that rounding finds has 24 bits or is the next power of two. -/
theorem significand_bounds {q : ℚ} (hq : q ≠ 0) :
    0 ≤ roundHalfEven (|q| / 2 ^ ulpExponent q) ∧
      roundHalfEven (|q| / 2 ^ ulpExponent q) ≤ 2 ^ 24 ∧
      (-149 < ulpExponent q → 2 ^ 23 ≤ roundHalfEven (|q| / 2 ^ ulpExponent q)) := by
  obtain ⟨hlow, hhigh⟩ := binade_spec (abs_pos.mpr hq)
  have hulp := two_zpow_pos (ulpExponent q)
  have hge : binade |q| - 23 ≤ ulpExponent q := le_max_left _ _
  refine ⟨le_roundHalfEven ?_, roundHalfEven_le ?_, fun hs => le_roundHalfEven ?_⟩
  · rw [Int.cast_zero]
    exact div_nonneg (abs_nonneg q) hulp.le
  · rw [div_lt_iff₀ hulp]
    calc |q|
      _ < 2 ^ (binade |q| + 1) := hhigh
      _ ≤ 2 ^ (24 + ulpExponent q) := two_zpow_le_iff.mpr (by omega)
      _ = ((2 ^ 24 : ℤ) : ℚ) * 2 ^ ulpExponent q := by
        rw [two_zpow_add]
        norm_num
  · have hexp : ulpExponent q = binade |q| - 23 := by
      unfold ulpExponent at hs ⊢
      omega
    rw [le_div_iff₀ hulp]
    calc ((2 ^ 23 : ℤ) : ℚ) * 2 ^ ulpExponent q
      _ = 2 ^ (23 + ulpExponent q) := by
        rw [two_zpow_add]
        norm_num
      _ = 2 ^ binade |q| := by rw [hexp, add_sub_cancel]
      _ ≤ |q| := hlow

/-- A rounded magnitude below 2^128 is a value of the format. -/
theorem isValue_magnitude {q : ℚ} (hq : q ≠ 0)
    (hfits : (roundHalfEven (|q| / 2 ^ ulpExponent q) : ℚ) * 2 ^ ulpExponent q <
      2 ^ (128 : ℤ)) :
    IsValue (roundHalfEven (|q| / 2 ^ ulpExponent q) * 2 ^ ulpExponent q) := by
  obtain ⟨hnonneg, hle, hge⟩ := significand_bounds hq
  have hlow : -149 ≤ ulpExponent q := le_max_right _ _
  generalize roundHalfEven (|q| / 2 ^ ulpExponent q) = k at hfits hnonneg hle hge ⊢
  generalize ulpExponent q = s at hfits hge hlow ⊢
  obtain hlt | heq := lt_or_eq_of_le hle
  · refine ⟨k, s, rfl, by rwa [abs_of_nonneg hnonneg], hlow, ?_⟩
    by_contra hs
    have hk : (2 : ℚ) ^ (23 : ℤ) ≤ k := by
      have hint : (2 : ℤ) ^ 23 ≤ k := hge (by omega)
      exact_mod_cast hint
    have hbig : (2 : ℚ) ^ (23 + s) < 2 ^ (128 : ℤ) := by
      refine lt_of_le_of_lt ?_ hfits
      rw [two_zpow_add]
      exact mul_le_mul_of_nonneg_right hk (two_zpow_pos s).le
    have := two_zpow_lt_iff.mp hbig
    omega
  · have hpow : ((k : ℤ) : ℚ) * 2 ^ s = 2 ^ (24 + s) := by
      rw [heq, two_zpow_add]
      norm_num
    have hs := two_zpow_lt_iff.mp (hpow ▸ hfits)
    refine ⟨2 ^ 23, s + 1, ?_, by norm_num, by omega, by omega⟩
    have hsum : 24 + s = 23 + (s + 1) := by ring
    rw [hpow, hsum, two_zpow_add]
    norm_num

/-- What rounding returns is a value of the format. -/
theorem roundBinary32_wellFormed (q : ℚ) : (roundBinary32 q).WellFormed := by
  by_cases hq : q = 0
  · rw [roundBinary32, if_pos hq]
    exact isValue_int (n := 0) (by norm_num)
  · rw [roundBinary32_eq hq]
    split
    · trivial
    · next hfits =>
      have hvalue := isValue_magnitude hq (not_le.mp hfits)
      change IsValue (if q < 0 then _ else _)
      split
      · exact hvalue.neg
      · exact hvalue

end values

section arithmetic

variable {x y : Binary32}

/-- What the arithmetic returns is a value of the format, whatever it is given. -/
theorem wellFormed_divide (x y : Binary32) : (divide x y).WellFormed := by
  have hzero : (Binary32.finite 0).WellFormed := isValue_int (n := 0) (by norm_num)
  cases x <;> cases y <;> first | trivial | exact hzero | skip
  simp only [divide]
  split
  · split <;> trivial
  · exact roundBinary32_wellFormed _

theorem wellFormed_subtract (x y : Binary32) : (subtract x y).WellFormed := by
  cases x <;> cases y <;> simp only [subtract] <;> first | trivial | skip
  · split <;> trivial
  · exact roundBinary32_wellFormed _

theorem wellFormed_minimum (hx : x.WellFormed) (hy : y.WellFormed) : (minimum x y).WellFormed := by
  unfold minimum
  split
  · exact hy
  · exact hx

theorem wellFormed_maximum (hx : x.WellFormed) (hy : y.WellFormed) : (maximum x y).WellFormed := by
  unfold maximum
  split
  · exact hy
  · exact hx

end arithmetic

end Dlads.FloatFormat
