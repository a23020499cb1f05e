import Mathlib.Data.Rat.Defs
import Mathlib.Data.Int.Log
import Mathlib.Algebra.Order.Floor.Ring
import Mathlib.Data.Rat.Floor

/-!
# Binary32 values

Single-precision values as the rationals they denote, with the infinities and
one not-a-number. Arithmetic rounds to nearest, ties to even, with gradual
underflow; the sign of a zero is not kept, which no operation here observes.
-/

namespace Dlads.FloatFormat

/-- A single-precision value. -/
inductive Binary32
  /-- Not a number. -/
  | nan
  /-- An infinity, negative or positive. -/
  | inf (negative : Bool)
  /-- A finite value. -/
  | finite (value : ℚ)
  deriving DecidableEq

/-- Nearest integer to a nonnegative rational, ties to even. -/
def roundHalfEven (q : ℚ) : ℤ :=
  let low := q.floor
  let rest := q - low
  if rest < 1 / 2 then low
  else if 1 / 2 < rest then low + 1
  else if low % 2 = 0 then low else low + 1

/-- Largest power-of-two exponent not above a positive rational. -/
def binade (q : ℚ) : ℤ :=
  let guess : ℤ := (Nat.log2 q.num.natAbs : ℤ) - Nat.log2 q.den
  if (2 : ℚ) ^ guess ≤ q then guess else guess - 1

/-- Round a rational to single precision: 24 significant bits, exponents from
-149, infinity from the rounding of 2^128 on. -/
def roundBinary32 (q : ℚ) : Binary32 :=
  if q = 0 then .finite 0 else
    let ulp : ℚ := (2 : ℚ) ^ max (binade |q| - 23) (-149)
    let magnitude := (roundHalfEven (|q| / ulp) : ℚ) * ulp
    if (2 : ℚ) ^ (128 : ℤ) ≤ magnitude then .inf (q < 0)
    else .finite (if q < 0 then -magnitude else magnitude)

/-- `static_cast<float>` of an integer. -/
def ofInt (n : ℤ) : Binary32 := roundBinary32 n

/-- Division, with a zero divisor giving an infinity or not-a-number. -/
def divide : Binary32 → Binary32 → Binary32
  | .nan, _ => .nan
  | _, .nan => .nan
  | .inf _, .inf _ => .nan
  | .inf s, .finite y => .inf (xor s (y < 0))
  | .finite _, .inf _ => .finite 0
  | .finite x, .finite y =>
    if y = 0 then if x = 0 then .nan else .inf (x < 0) else roundBinary32 (x / y)

/-- Multiplication, with an infinity times zero giving not-a-number. -/
def multiply : Binary32 → Binary32 → Binary32
  | .nan, _ => .nan
  | _, .nan => .nan
  | .inf s, .inf t => .inf (xor s t)
  | .inf s, .finite y => if y = 0 then .nan else .inf (xor s (y < 0))
  | .finite x, .inf t => if x = 0 then .nan else .inf (xor (x < 0) t)
  | .finite x, .finite y => roundBinary32 (x * y)

/-- Subtraction, with the difference of equal infinities giving not-a-number. -/
def subtract : Binary32 → Binary32 → Binary32
  | .nan, _ => .nan
  | _, .nan => .nan
  | .inf s, .inf t => if s = t then .nan else .inf s
  | .inf s, .finite _ => .inf s
  | .finite _, .inf t => .inf !t
  | .finite x, .finite y => roundBinary32 (x - y)

/-- The order `<` of the format; every comparison with not-a-number fails. -/
def less : Binary32 → Binary32 → Bool
  | .nan, _ => false
  | _, .nan => false
  | .inf s, .inf t => s && !t
  | .inf s, .finite _ => s
  | .finite _, .inf t => !t
  | .finite x, .finite y => x < y

/-- `std::min(a, b)`: the second argument only when it is strictly smaller. -/
def minimum (a b : Binary32) : Binary32 := if less b a then b else a

/-- `std::max(a, b)`: the second argument only when it is strictly larger. -/
def maximum (a b : Binary32) : Binary32 := if less a b then b else a

example : divide (ofInt 1) (ofInt 10) = .finite (13421773 / 134217728) := by decide +kernel

end Dlads.FloatFormat
