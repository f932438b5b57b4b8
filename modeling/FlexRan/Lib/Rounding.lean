import Mathlib

/-!
# Rounding to a number of significant bits

A binary floating point number has a sign, a significand of a fixed number of bits and an exponent.
Away from the ends of the range of the exponent, the number that stands for a value is the nearest
one with that many bits, and of two nearest ones the one with the even significand.  Rounding keeps
the order, so a comparison with a constant after some rounded operations is a comparison with a
threshold before them.

## Main definitions

* `roundEven`: the nearest integer, the even one of two.
* `roundTo p`: the nearest number with a significand of `p` bits.
* `roundTo_le_roundTo`: rounding keeps the order.
-/
namespace FlexRan.Lib

section Integers

variable {K : Type*} [Field K] [LinearOrder K] [FloorRing K]

def roundEven (x : K) : ℤ :=
  if Int.fract x < 1 / 2 then ⌊x⌋
  else if 1 / 2 < Int.fract x then ⌊x⌋ + 1
  else if ⌊x⌋ % 2 = 0 then ⌊x⌋ else ⌊x⌋ + 1

theorem floor_le_roundEven (x : K) : ⌊x⌋ ≤ roundEven x := by
  rw [roundEven]
  split_ifs <;> omega

theorem roundEven_le_floor_add_one (x : K) : roundEven x ≤ ⌊x⌋ + 1 := by
  rw [roundEven]
  split_ifs <;> omega

theorem roundEven_of_lt {x : K} (h : Int.fract x < 1 / 2) : roundEven x = ⌊x⌋ := if_pos h

theorem roundEven_of_gt {x : K} (h : 1 / 2 < Int.fract x) : roundEven x = ⌊x⌋ + 1 := by
  rw [roundEven, if_neg h.not_gt, if_pos h]

variable [IsStrictOrderedRing K]

@[simp]
theorem roundEven_intCast (n : ℤ) : roundEven (n : K) = n := by
  rw [roundEven_of_lt (by norm_num), Int.floor_intCast]

theorem roundEven_le_roundEven {x y : K} (h : x ≤ y) : roundEven x ≤ roundEven y := by
  rcases (Int.floor_le_floor h).lt_or_eq with hlt | heq
  · have hx := roundEven_le_floor_add_one x
    have hy := floor_le_roundEven y
    omega
  · -- between two integers the fractional parts are compared
    have hfract : Int.fract x ≤ Int.fract y := by
      rw [Int.fract, Int.fract, heq]
      exact sub_le_sub_right h _
    rcases lt_trichotomy (Int.fract x) (1 / 2) with hx | hx | hx
    · rw [roundEven_of_lt hx, heq]
      exact floor_le_roundEven y
    · rcases hfract.eq_or_lt with hxy | hxy
      · rw [roundEven, roundEven, hxy, heq]
      · rw [roundEven_of_gt (hx.symm.trans_lt hxy), ← heq]
        exact roundEven_le_floor_add_one x
    · rw [roundEven_of_gt hx, roundEven_of_gt (hx.trans_le hfract), heq]

end Integers

section SignificantBits

variable {K : Type*} [Field K] [LinearOrder K] [IsStrictOrderedRing K] [FloorRing K]

/-- The difference of two neighbours among the numbers with `p` bits around `x`. -/
def ulp (p : ℕ) (x : K) : K := 2 ^ (Int.log 2 |x| + 1 - p)

def roundTo (p : ℕ) (x : K) : K := roundEven (x / ulp p x) * ulp p x

theorem ulp_pos (p : ℕ) (x : K) : 0 < ulp p x := zpow_pos two_pos _

theorem roundTo_nonpos (p : ℕ) {x : K} (hx : x ≤ 0) : roundTo p x ≤ 0 := by
  have hquot : x / ulp p x ≤ ((0 : ℤ) : K) := by
    rw [Int.cast_zero]
    exact div_nonpos_of_nonpos_of_nonneg hx (ulp_pos p x).le
  have hround := roundEven_le_roundEven hquot
  rw [roundEven_intCast] at hround
  exact mul_nonpos_of_nonpos_of_nonneg (Int.cast_nonpos.mpr hround) (ulp_pos p x).le

/-- A number is not rounded past the power of two above it. -/
theorem roundTo_le_zpow (p : ℕ) {x : K} (hx : 0 < x) :
    roundTo p x ≤ 2 ^ (Int.log 2 x + 1) := by
  have hbound : x / ulp p x ≤ ((2 ^ p : ℤ) : K) := by
    rw [div_le_iff₀ (ulp_pos p x), ulp, abs_of_pos hx, Int.cast_pow, Int.cast_ofNat, ← zpow_natCast,
      ← zpow_add₀ two_ne_zero, add_sub_cancel]
    exact (Int.lt_zpow_succ_log_self one_lt_two x).le
  have hround := roundEven_le_roundEven hbound
  rw [roundEven_intCast] at hround
  calc roundTo p x ≤ ((2 ^ p : ℤ) : K) * ulp p x :=
        mul_le_mul_of_nonneg_right (Int.cast_le.mpr hround) (ulp_pos p x).le
    _ = 2 ^ (Int.log 2 x + 1) := by
        rw [ulp, abs_of_pos hx, Int.cast_pow, Int.cast_ofNat, ← zpow_natCast,
          ← zpow_add₀ two_ne_zero, add_sub_cancel]

/-- A number is not rounded below the power of two under it. -/
theorem zpow_le_roundTo {p : ℕ} (hp : p ≠ 0) {x : K} (hx : 0 < x) :
    2 ^ Int.log 2 x ≤ roundTo p x := by
  obtain ⟨q, rfl⟩ := Nat.exists_eq_succ_of_ne_zero hp
  have hpow : ((2 ^ q : ℤ) : K) * ulp (q + 1) x = 2 ^ Int.log 2 x := by
    rw [ulp, abs_of_pos hx, Int.cast_pow, Int.cast_ofNat, ← zpow_natCast, ← zpow_add₀ two_ne_zero]
    congr 1
    push_cast
    ring
  have hbound : ((2 ^ q : ℤ) : K) ≤ x / ulp (q + 1) x := by
    rw [le_div_iff₀ (ulp_pos _ x), hpow]
    exact Int.zpow_log_le_self one_lt_two hx
  have hround := roundEven_le_roundEven hbound
  rw [roundEven_intCast] at hround
  rw [← hpow]
  exact mul_le_mul_of_nonneg_right (Int.cast_le.mpr hround) (ulp_pos _ x).le

theorem roundTo_pos {p : ℕ} (hp : p ≠ 0) {x : K} (hx : 0 < x) : 0 < roundTo p x :=
  (zpow_pos two_pos _).trans_le (zpow_le_roundTo hp hx)

theorem roundTo_le_roundTo {p : ℕ} (hp : p ≠ 0) {x y : K} (hx : 0 < x) (h : x ≤ y) :
    roundTo p x ≤ roundTo p y := by
  have hy : 0 < y := hx.trans_le h
  rcases (Int.log_mono_right (b := 2) hx h).lt_or_eq with hlt | heq
  · calc roundTo p x ≤ 2 ^ (Int.log 2 x + 1) := roundTo_le_zpow p hx
      _ ≤ 2 ^ Int.log 2 y := zpow_le_zpow_right₀ one_le_two hlt
      _ ≤ roundTo p y := zpow_le_roundTo hp hy
  · have hulp : ulp p x = ulp p y := by rw [ulp, ulp, abs_of_pos hx, abs_of_pos hy, heq]
    have hround := roundEven_le_roundEven (div_le_div_of_nonneg_right h (ulp_pos p y).le)
    rw [roundTo, roundTo, hulp]
    exact mul_le_mul_of_nonneg_right (Int.cast_le.mpr hround) (ulp_pos p y).le

end SignificantBits

end FlexRan.Lib
