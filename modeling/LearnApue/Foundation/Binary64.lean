import Mathlib.Data.Int.Log
import LearnApue.Foundation.FixedPoint

set_option autoImplicit false

/-!
# Rounded arithmetic and `double`

A computation on `double` rounds every conversion, sum, product and quotient.  A model of
it takes the `Rounding` as a parameter: `exact` is arithmetic on the rationals and
`binary64` the nearest `double`, ties to even.

The exponent of `binary64` is not bounded: what is computed with it here is zero or
between `2 ^ -1022` and `2 ^ 1024`, where the exponent of a `double` is not at its limits
either.
-/

namespace LearnApue.Foundation

/-- How the results of arithmetic operations are rounded. -/
structure Rounding where
  round : ℚ → ℚ
  /-- only zero is rounded to zero -/
  eq_zero : ∀ value, round value = 0 → value = 0

namespace Rounding

instance : CoeFun Rounding fun _ => ℚ → ℚ := ⟨Rounding.round⟩

variable (rounding : Rounding)

theorem ne_zero {value : ℚ} (h : value ≠ 0) : rounding value ≠ 0 :=
  fun hzero => h (rounding.eq_zero value hzero)

/-- A running sum. -/
def sum (values : List ℚ) : ℚ := values.foldl (fun total value => rounding (total + value)) 0

theorem sum_concat (values : List ℚ) (value : ℚ) :
    rounding.sum (values ++ [value]) = rounding (rounding.sum values + value) := by
  rw [sum, List.foldl_append, List.foldl_cons, List.foldl_nil, ← sum]

theorem id_eq_zero (value : ℚ) (h : id value = 0) : value = 0 := h

/-- No rounding. -/
def exact : Rounding := ⟨id, id_eq_zero⟩

@[simp] theorem exact_apply (value : ℚ) : exact value = value := rfl

@[simp] theorem exact_sum (values : List ℚ) : exact.sum values = values.sum :=
  List.sum_eq_foldl.symm

end Rounding

/-! ## The nearest `double` -/

/-- The distance between the `double` values that are next to a value. -/
def binary64Unit (value : ℚ) : ℚ := 2 ^ (Int.log 2 |value| - 52)

/-- The nearest `double`, ties to even. -/
def binary64Round (value : ℚ) : ℚ :=
  roundSigned (value / binary64Unit value) * binary64Unit value

theorem binary64Unit_pos (value : ℚ) : 0 < binary64Unit value := zpow_pos (by decide) _

/-- A value other than zero is at least `2 ^ 52` of its units. -/
theorem le_abs_div_unit {value : ℚ} (h : value ≠ 0) : 2 ^ 52 ≤ |value / binary64Unit value| := by
  have hpos := binary64Unit_pos value
  have hlog : (2 : ℚ) ^ Int.log 2 |value| ≤ |value| :=
    Int.zpow_log_le_self (by decide) (abs_pos.mpr h)
  have hunit : (2 : ℚ) ^ 52 * binary64Unit value = 2 ^ Int.log 2 |value| := by
    rw [binary64Unit, ← zpow_natCast, ← zpow_add₀ (by decide)]
    congr 1
    push_cast
    ring
  rw [abs_div, abs_of_pos hpos, le_div_iff₀ hpos, hunit]
  exact hlog

theorem binary64Round_eq_zero (value : ℚ) (h : binary64Round value = 0) : value = 0 := by
  by_contra hne
  have hround : roundSigned (value / binary64Unit value) = 0 := by
    rcases mul_eq_zero.mp h with hround | hunit
    · exact_mod_cast hround
    · exact absurd hunit (binary64Unit_pos value).ne'
  obtain ⟨hlow, hhigh⟩ := roundSigned_near (value / binary64Unit value)
  have hfar := le_abs_div_unit hne
  rw [hround] at hlow hhigh
  push_cast at hlow hhigh
  have hnear : |value / binary64Unit value| ≤ 1 / 2 := abs_le.mpr ⟨by linarith, by linarith⟩
  linarith

/-- `double`. -/
def Rounding.binary64 : Rounding := ⟨binary64Round, binary64Round_eq_zero⟩

-- 201 hundredths of a second in 40 s: the nearest `double` is above the tie
example : hundredths (201 * 100000 / (100 * 40000)) = 502 ∧
    hundredths (Rounding.binary64 (201 * 100000 / (100 * 40000))) = 503 := by decide +kernel

end LearnApue.Foundation
