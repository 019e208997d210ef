import Mathlib.Data.Rat.Floor
import Mathlib.Tactic.FieldSimp
import Mathlib.Tactic.Ring
import Mathlib.Tactic.NormNum

/-!
# Decimal Numbers

A decimal is an integer mantissa with a number of decimal places, the
representation of fixed-point decimal libraries.  Two decimals can have the same
value and different places (`0.5` and `0.50`), which shows in their text.

Arithmetic is exact: the 96-bit bound on the mantissa, and the rounding of
results that exceed it, are not modelled.

## Main Definitions

- `Decimal`, its value `Decimal.toRat`, addition, subtraction, normalization
- `roundHalfEven`, `roundDp`: rounding to a number of places, ties to even
- `toU64`: truncation to a 64-bit unsigned integer
-/

namespace Degenerate.Lib

/-- The number `mantissa / 10 ^ scale`, written with `scale` decimal places. -/
structure Decimal where
  mantissa : ℤ
  scale : ℕ
  deriving DecidableEq, Repr

namespace Decimal

/-- The value of a decimal. -/
def toRat (d : Decimal) : ℚ := d.mantissa / 10 ^ d.scale

/-- The decimal without places. -/
def ofInt (n : ℤ) : Decimal := ⟨n, 0⟩

/-- The same value with at least `s` places. -/
def rescale (d : Decimal) (s : ℕ) : Decimal :=
  ⟨d.mantissa * 10 ^ (s - d.scale), max s d.scale⟩

/-- Addition, with the larger number of places. -/
protected def add (a b : Decimal) : Decimal :=
  ⟨(a.rescale b.scale).mantissa + (b.rescale a.scale).mantissa, max a.scale b.scale⟩

/-- Subtraction, with the larger number of places. -/
protected def sub (a b : Decimal) : Decimal :=
  ⟨(a.rescale b.scale).mantissa - (b.rescale a.scale).mantissa, max a.scale b.scale⟩

instance : Add Decimal := ⟨Decimal.add⟩
instance : Sub Decimal := ⟨Decimal.sub⟩

/-- Drop the trailing zeros of the places. -/
def normalize : Decimal → Decimal
  | ⟨m, 0⟩ => ⟨m, 0⟩
  | ⟨m, s + 1⟩ => if m % 10 = 0 then normalize ⟨m / 10, s⟩ else ⟨m, s + 1⟩
termination_by d => d.scale

/-! ## Values of the operations -/

@[simp] theorem toRat_ofInt (n : ℤ) : (ofInt n).toRat = n := by
  simp [toRat, ofInt]

/-- Aligning the places of two decimals keeps the value of either. -/
theorem rescale_mantissa_div (d : Decimal) (s : ℕ) :
    ((d.rescale s).mantissa : ℚ) / 10 ^ max d.scale s = d.toRat := by
  have hpow : (10 : ℚ) ^ max d.scale s = 10 ^ d.scale * 10 ^ (s - d.scale) := by
    rw [← pow_add]
    congr 1
    omega
  have hne : (10 : ℚ) ^ (s - d.scale) ≠ 0 := by positivity
  rw [hpow, rescale, toRat]
  push_cast
  exact mul_div_mul_right _ _ hne

@[simp] theorem toRat_add (a b : Decimal) : (a + b).toRat = a.toRat + b.toRat := by
  have ha := rescale_mantissa_div a b.scale
  have hb := rescale_mantissa_div b a.scale
  rw [max_comm] at hb
  have hadd : (a + b).toRat =
      (((a.rescale b.scale).mantissa : ℚ) + (b.rescale a.scale).mantissa) /
        10 ^ max a.scale b.scale := by
    show toRat (Decimal.add a b) = _
    simp [toRat, Decimal.add]
  -- each summand is its own decimal, written with the common number of places
  rw [hadd, add_div, ha, hb]

@[simp] theorem toRat_sub (a b : Decimal) : (a - b).toRat = a.toRat - b.toRat := by
  have ha := rescale_mantissa_div a b.scale
  have hb := rescale_mantissa_div b a.scale
  rw [max_comm] at hb
  have hsub : (a - b).toRat =
      (((a.rescale b.scale).mantissa : ℚ) - (b.rescale a.scale).mantissa) /
        10 ^ max a.scale b.scale := by
    show toRat (Decimal.sub a b) = _
    simp [toRat, Decimal.sub]
  rw [hsub, sub_div, ha, hb]

/-- Dropping trailing zeros does not change the value. -/
@[simp] theorem toRat_normalize (d : Decimal) : d.normalize.toRat = d.toRat := by
  obtain ⟨m, s⟩ := d
  induction s generalizing m with
  | zero => simp [normalize]
  | succ s ih =>
    rw [normalize]
    split
    · rename_i hm
      -- the dropped zero is a factor of ten on both sides of the fraction
      have hmul : m = m / 10 * 10 := by omega
      rw [ih, toRat, toRat]
      conv_rhs => rw [hmul]
      push_cast
      rw [pow_succ]
      exact (mul_div_mul_right _ _ (by norm_num)).symm
    · rfl

end Decimal

/-! ## Rounding of values -/

/-- The nearest integer, ties to the even one. -/
def roundHalfEven (x : ℚ) : ℤ :=
  let f := ⌊x⌋
  let r := x - f
  if r < 1 / 2 then f
  else if 1 / 2 < r then f + 1
  else if f % 2 = 0 then f else f + 1

/-- Rounding to `dp` decimal places, ties to even. -/
def roundDp (x : ℚ) (dp : ℕ) : ℚ := roundHalfEven (x * 10 ^ dp) / 10 ^ dp

/-- Truncation to an unsigned 64-bit integer; negative or too large values are refused. -/
def toU64 (x : ℚ) : Option ℕ :=
  if x < 0 then none
  else if ⌊x⌋.toNat < 2 ^ 64 then some ⌊x⌋.toNat else none

end Degenerate.Lib
