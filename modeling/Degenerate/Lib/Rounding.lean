import Degenerate.Lib.Decimal
import Mathlib.Tactic.Linarith

/-!
# Rounding

How far the roundings of `Lib.Decimal` move a value, and when they leave it alone.

## Main Results

- `isGreatest_min_floor`: the largest whole number within a budget and a cap
- `abs_roundDp_sub_le`: rounding to places moves by at most half a unit
- `self_le_roundHalfEven_iff`: when a value is not rounded down
- `roundDp_eq_self_iff`: what is not moved is a multiple of the unit
- `toU64_eq_some_iff`
-/

namespace Degenerate.Lib

/-! ## §1 Whole numbers below a bound -/

/-- The largest whole number of units that a budget pays for and that a cap allows. -/
theorem isGreatest_min_floor {K : Type} [Field K] [LinearOrder K] [IsStrictOrderedRing K]
    [FloorRing K] {c : K} (hc : 0 < c) (budget cap : K) :
    IsGreatest {n : ℤ | (n : K) ≤ cap ∧ n * c ≤ budget} (min ⌊budget / c⌋ ⌊cap⌋) := by
  have hmem : ∀ n : ℤ, ((n : K) ≤ cap ∧ n * c ≤ budget) ↔ n ≤ min ⌊budget / c⌋ ⌊cap⌋ := by
    intro n
    rw [le_min_iff, Int.le_floor, Int.le_floor, le_div_iff₀ hc]
    exact and_comm
  constructor
  · exact (hmem _).mpr le_rfl
  · intro n hn
    exact (hmem n).mp hn

/-! ## §2 Half-even rounding -/

/-- The nearest integer is the floor or the one above it. -/
theorem roundHalfEven_mem (x : ℚ) :
    roundHalfEven x = ⌊x⌋ ∧ x - ⌊x⌋ ≤ 1 / 2 ∨ roundHalfEven x = ⌊x⌋ + 1 ∧ 1 / 2 ≤ x - ⌊x⌋ := by
  unfold roundHalfEven
  simp only
  split
  · rename_i hlow
    exact .inl ⟨rfl, hlow.le⟩
  · rename_i hlow
    have hhalf : 1 / 2 ≤ x - ⌊x⌋ := not_lt.mp hlow
    split
    · exact .inr ⟨rfl, hhalf⟩
    · rename_i hhigh
      split
      · exact .inl ⟨rfl, not_lt.mp hhigh⟩
      · exact .inr ⟨rfl, hhalf⟩

/-- Rounding to an integer moves a value by at most one half. -/
theorem abs_roundHalfEven_sub_le (x : ℚ) : |(roundHalfEven x : ℚ) - x| ≤ 1 / 2 := by
  have hfloor := Int.floor_le x
  have hceil := Int.lt_floor_add_one x
  rw [abs_le]
  rcases roundHalfEven_mem x with ⟨h, hx⟩ | ⟨h, hx⟩
  · rw [h]
    constructor <;> linarith
  · rw [h]
    push_cast
    constructor <;> linarith

@[simp] theorem roundHalfEven_intCast (n : ℤ) : roundHalfEven (n : ℚ) = n := by
  simp [roundHalfEven]

/-- A whole number that bounds a value from above bounds its rounding. -/
theorem roundHalfEven_le {x : ℚ} {n : ℤ} (h : x ≤ n) : roundHalfEven x ≤ n := by
  have hround := (abs_le.mp (abs_roundHalfEven_sub_le x)).2
  have hlt : (roundHalfEven x : ℚ) < n + 1 := by linarith
  exact Int.lt_add_one_iff.mp (by exact_mod_cast hlt)

/-- A whole number that bounds a value from below bounds its rounding. -/
theorem le_roundHalfEven {x : ℚ} {n : ℤ} (h : (n : ℚ) ≤ x) : n ≤ roundHalfEven x := by
  have hround := (abs_le.mp (abs_roundHalfEven_sub_le x)).1
  have hlt : (n : ℚ) < roundHalfEven x + 1 := by linarith
  exact Int.lt_add_one_iff.mp (by exact_mod_cast hlt)

/-- **Rounded away**: a value above zero is rounded to zero up to one half, zero being even. -/
theorem roundHalfEven_eq_zero_iff {x : ℚ} (h : 0 ≤ x) : roundHalfEven x = 0 ↔ x ≤ 1 / 2 := by
  constructor
  · intro hzero
    have hround := (abs_le.mp (abs_roundHalfEven_sub_le x)).1
    rw [hzero] at hround
    push_cast at hround
    linarith
  · intro hhalf
    have hfloor : ⌊x⌋ = 0 := Int.floor_eq_zero_iff.mpr ⟨h, by linarith⟩
    unfold roundHalfEven
    simp only [hfloor, Int.cast_zero, sub_zero]
    rcases hhalf.lt_or_eq with hlt | heq
    · exact if_pos hlt
    · -- the middle goes to the even neighbour, which is zero
      rw [if_neg (not_lt.mpr heq.ge), if_neg (not_lt.mpr heq.le)]
      rfl

/-- **Rounded up**: a value is not lowered exactly when there is nothing to round, or when it
    lies past the middle, or on the middle above an odd integer. -/
theorem self_le_roundHalfEven_iff (x : ℚ) :
    x ≤ roundHalfEven x ↔
      Int.fract x = 0 ∨ 1 / 2 < Int.fract x ∨ Int.fract x = 1 / 2 ∧ ⌊x⌋ % 2 ≠ 0 := by
  have hfloor := Int.floor_le x
  have hlt := Int.lt_floor_add_one x
  rw [← Int.self_sub_floor]
  -- rounding down is no loss only when there is nothing to round
  have hdown : x ≤ (⌊x⌋ : ℚ) ↔ x - ⌊x⌋ = 0 := by
    constructor
    · intro h
      linarith
    · intro h
      linarith
  have hup : x ≤ ((⌊x⌋ + 1 : ℤ) : ℚ) := by
    push_cast
    exact hlt.le
  unfold roundHalfEven
  simp only
  rcases lt_trichotomy (x - ⌊x⌋) (1 / 2) with h | h | h
  · rw [if_pos h, hdown]
    refine ⟨.inl, fun hor => hor.resolve_right ?_⟩
    rintro (hgt | ⟨heq, -⟩)
    · exact h.not_gt hgt
    · exact h.ne heq
  · -- the middle: the even neighbour is the floor or the one above it
    rw [if_neg (not_lt.mpr h.ge), if_neg (not_lt.mpr h.le)]
    by_cases heven : ⌊x⌋ % 2 = 0
    · rw [if_pos heven, hdown]
      refine ⟨.inl, fun hor => hor.resolve_right ?_⟩
      rintro (hgt | ⟨-, hodd⟩)
      · exact hgt.ne' h
      · exact hodd heven
    · rw [if_neg heven]
      exact iff_of_true hup (.inr (.inr ⟨h, heven⟩))
  · rw [if_neg h.not_gt, if_pos h]
    exact iff_of_true hup (.inr (.inl h))

/-! ## §3 Rounding to places -/

/-- Rounding to places moves a value by at most half a unit of the last place. -/
theorem abs_roundDp_sub_le (x : ℚ) (dp : ℕ) : |roundDp x dp - x| ≤ 1 / 2 / 10 ^ dp := by
  have hpos : (0 : ℚ) < 10 ^ dp := by positivity
  have hscaled : roundDp x dp - x = (roundHalfEven (x * 10 ^ dp) - x * 10 ^ dp) / 10 ^ dp := by
    rw [roundDp]
    field_simp
  rw [hscaled, abs_div, abs_of_pos hpos]
  exact div_le_div_of_nonneg_right (abs_roundHalfEven_sub_le _) hpos.le

@[simp] theorem roundDp_intCast (n : ℤ) (dp : ℕ) : roundDp n dp = n := by
  have hcast : (n : ℚ) * 10 ^ dp = ((n * 10 ^ dp : ℤ) : ℚ) := by push_cast; ring
  rw [roundDp, hcast, roundHalfEven_intCast]
  push_cast
  field_simp

/-- **Nothing to round**: a value is kept exactly when it is a multiple of the unit. -/
theorem roundDp_eq_self_iff {x : ℚ} {dp : ℕ} :
    roundDp x dp = x ↔ ∃ n : ℤ, x * 10 ^ dp = n := by
  have hne : (10 : ℚ) ^ dp ≠ 0 := by positivity
  constructor
  · intro h
    have hscaled : x * 10 ^ dp = roundHalfEven (x * 10 ^ dp) := by
      conv_lhs => rw [← h, roundDp]
      exact div_mul_cancel₀ _ hne
    exact ⟨_, hscaled⟩
  · rintro ⟨n, hn⟩
    rw [roundDp, hn, roundHalfEven_intCast, ← hn]
    exact mul_div_cancel_right₀ x hne

/-- A value above zero is rounded away exactly up to half a unit of the last place. -/
theorem roundDp_eq_zero_iff {x : ℚ} {dp : ℕ} (h : 0 ≤ x) :
    roundDp x dp = 0 ↔ x * 10 ^ dp ≤ 1 / 2 := by
  have hne : (10 : ℚ) ^ dp ≠ 0 := by positivity
  have hscaled : 0 ≤ x * 10 ^ dp := by positivity
  rw [← roundHalfEven_eq_zero_iff hscaled, roundDp, div_eq_zero_iff, or_iff_left hne]
  exact Int.cast_eq_zero

/-- A value is not lowered to places exactly when its multiple of the unit is not lowered. -/
theorem self_le_roundDp_iff {x : ℚ} {dp : ℕ} :
    x ≤ roundDp x dp ↔ x * 10 ^ dp ≤ roundHalfEven (x * 10 ^ dp) :=
  le_div_iff₀ (by positivity)

/-- A multiple of the unit that bounds a value from above bounds its rounding. -/
theorem roundDp_le {x : ℚ} {dp : ℕ} {n : ℤ} (h : x ≤ n / 10 ^ dp) :
    roundDp x dp ≤ n / 10 ^ dp := by
  have hpos : (0 : ℚ) < 10 ^ dp := by positivity
  have hscaled : x * 10 ^ dp ≤ n := (le_div_iff₀ hpos).mp h
  apply div_le_div_of_nonneg_right _ hpos.le
  exact_mod_cast roundHalfEven_le hscaled

/-- A multiple of the unit that bounds a value from below bounds its rounding. -/
theorem le_roundDp {x : ℚ} {dp : ℕ} {n : ℤ} (h : (n : ℚ) / 10 ^ dp ≤ x) :
    (n : ℚ) / 10 ^ dp ≤ roundDp x dp := by
  have hpos : (0 : ℚ) < 10 ^ dp := by positivity
  have hscaled : (n : ℚ) ≤ x * 10 ^ dp := (div_le_iff₀ hpos).mp h
  apply div_le_div_of_nonneg_right _ hpos.le
  exact_mod_cast le_roundHalfEven hscaled

/-! ## §4 Truncation -/

/-- What truncation accepts, and what it yields. -/
theorem toU64_eq_some_iff {x : ℚ} {n : ℕ} :
    toU64 x = some n ↔ 0 ≤ x ∧ ⌊x⌋ = n ∧ n < 2 ^ 64 := by
  unfold toU64
  constructor
  · intro h
    split at h
    · cases h
    · rename_i hx
      split at h
      · rename_i hbound
        have hnonneg : 0 ≤ ⌊x⌋ := Int.floor_nonneg.mpr (not_lt.mp hx)
        cases h
        exact ⟨not_lt.mp hx, (Int.toNat_of_nonneg hnonneg).symm, hbound⟩
      · cases h
  · rintro ⟨hx, hfloor, hbound⟩
    rw [if_neg (not_lt.mpr hx), hfloor, Int.toNat_natCast, if_pos hbound]

/-- Truncation of a whole number is that number. -/
theorem toU64_intCast {z : ℤ} {n : ℕ} (h : toU64 z = some n) : (n : ℚ) = z := by
  obtain ⟨-, hfloor, -⟩ := toU64_eq_some_iff.mp h
  rw [Int.floor_intCast] at hfloor
  exact_mod_cast hfloor.symm

end Degenerate.Lib
