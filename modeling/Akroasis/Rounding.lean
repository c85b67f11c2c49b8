import Mathlib.Algebra.Order.Round
import Mathlib.Data.Int.Log
import Mathlib.Data.Rat.Floor
import Mathlib.Tactic.Linarith
import Mathlib.Tactic.Positivity
import Mathlib.Tactic.Ring

/-!
# Akroasis.Rounding

Rounding to a number of binary digits, to the nearest value and to the even one of two that
are equally near.  Exponents are unbounded, so this is the arithmetic of a binary
floating-point format away from its overflow and its subnormal numbers.

`abs_roundTo_sub_le` bounds the relative error.  The module names nothing of the repository.
-/

namespace Akroasis

/-- The nearest integer, the even one if there are two. -/
def roundEven (x : ℚ) : ℤ :=
  if Int.fract x = 1 / 2 then (if ⌊x⌋ % 2 = 0 then ⌊x⌋ else ⌊x⌋ + 1) else round x

theorem abs_sub_roundEven_le (x : ℚ) : |x - roundEven x| ≤ 1 / 2 := by
  unfold roundEven
  split
  · next hhalf =>
    have hx : x = ⌊x⌋ + 1 / 2 := by rw [← hhalf, Int.floor_add_fract]
    split
    · rw [abs_le]
      constructor <;> linarith
    · push_cast
      rw [abs_le]
      constructor <;> linarith
  · exact abs_sub_round x

/-- The distance between neighbouring values of `p` binary digits around `x`. -/
def spacing (p : Nat) (x : ℚ) : ℚ := 2 ^ (Int.log 2 |x| + 1 - p)

/-- The nearest value of `p` binary digits. -/
def roundTo (p : Nat) (x : ℚ) : ℚ := roundEven (x / spacing p x) * spacing p x

theorem spacing_pos (p : Nat) (x : ℚ) : 0 < spacing p x :=
  zpow_pos two_pos _

/-- The spacing is small compared with the number. -/
theorem spacing_le (p : Nat) {x : ℚ} (hx : x ≠ 0) : spacing p x ≤ 2 * |x| / 2 ^ p := by
  have hlog : (2 : ℚ) ^ Int.log 2 |x| ≤ |x| := by
    exact_mod_cast Int.zpow_log_le_self (R := ℚ) one_lt_two (abs_pos.mpr hx)
  calc spacing p x = 2 ^ Int.log 2 |x| * 2 / 2 ^ p := by
        rw [spacing, zpow_sub₀ two_ne_zero, zpow_add₀ two_ne_zero, zpow_one, zpow_natCast]
    _ ≤ |x| * 2 / 2 ^ p := by gcongr
    _ = 2 * |x| / 2 ^ p := by ring

/-- **Relative error** of a rounding. -/
theorem abs_roundTo_sub_le (p : Nat) (x : ℚ) : |roundTo p x - x| ≤ |x| / 2 ^ p := by
  by_cases hx : x = 0
  · simp [hx, roundTo, roundEven]
  have hpos := spacing_pos p x
  have hsplit :
      roundTo p x - x = -(x / spacing p x - roundEven (x / spacing p x)) * spacing p x := by
    rw [roundTo]
    field_simp
    ring
  calc |roundTo p x - x|
      = |x / spacing p x - roundEven (x / spacing p x)| * spacing p x := by
        rw [hsplit, abs_mul, abs_neg, abs_of_pos hpos]
    _ ≤ 1 / 2 * (2 * |x| / 2 ^ p) := by
        gcongr
        · exact abs_sub_roundEven_le _
        · exact spacing_le p hx
    _ = |x| / 2 ^ p := by ring

/-- A rounding keeps most of the magnitude. -/
theorem abs_mul_le_abs_roundTo (p : Nat) (x : ℚ) : |x| * (1 - 1 / 2 ^ p) ≤ |roundTo p x| := by
  have herror := abs_roundTo_sub_le p x
  have htriangle := abs_sub_abs_le_abs_sub x (roundTo p x)
  rw [abs_sub_comm] at htriangle
  have hexpand : |x| * (1 - 1 / 2 ^ p) = |x| - |x| / 2 ^ p := by ring
  linarith

/-- A product with a rounded factor, rounded, keeps most of the magnitude. -/
theorem abs_mul_abs_le_abs_roundTo_mul (p : Nat) (x y : ℚ) :
    |x| * |y| * (1 - 1 / 2 ^ p) ^ 2 ≤ |roundTo p (x * roundTo p y)| := by
  have hfactor : (0 : ℚ) ≤ 1 - 1 / 2 ^ p := by
    rw [sub_nonneg, div_le_one (by positivity)]
    exact one_le_pow₀ one_le_two
  calc |x| * |y| * (1 - 1 / 2 ^ p) ^ 2 = |x| * (|y| * (1 - 1 / 2 ^ p)) * (1 - 1 / 2 ^ p) := by ring
    _ ≤ |x| * |roundTo p y| * (1 - 1 / 2 ^ p) := by
        gcongr
        exact abs_mul_le_abs_roundTo p y
    _ ≤ |roundTo p (x * roundTo p y)| := by
        rw [← abs_mul]
        exact abs_mul_le_abs_roundTo p _

end Akroasis
