import LearnApue.Foundation.Decimal

set_option autoImplicit false

/-!
# `%.3f` and `%.2f`

The text of a finite `double`: its exact value is rounded to thousandths or hundredths, ties
to even, and written with as many digits after the point.
-/

namespace LearnApue.Foundation

/-- The scale of the thousandths. -/
instance atLeastTwo_thousand : Nat.AtLeastTwo 1000 := ⟨by decide⟩

/-- The nearest integer, and the even one of two. -/
def roundHalfEven (value : NNRat) : Nat :=
  let whole := value.num / value.den
  let rest := value.num % value.den
  if 2 * rest < value.den then whole
  else if value.den < 2 * rest then whole + 1
  else whole + whole % 2

/-- The last three digits of a number. -/
def threeDigits (n : Nat) : Bytes :=
  [UInt8.ofNat (48 + n / 100 % 10), UInt8.ofNat (48 + n / 10 % 10), UInt8.ofNat (48 + n % 10)]

/-- `%.3f`. -/
def decimalThousandths (negative : Bool) (magnitude : NNRat) : Bytes :=
  let thousandths := roundHalfEven (magnitude * 1000)
  (if negative then [byte '-'] else []) ++ decimalNat (thousandths / 1000) ++
    byte '.' :: threeDigits thousandths

/-- `DBL_MAX`. -/
def dblMax : Nat := (2 ^ 53 - 1) * 2 ^ 971

theorem roundHalfEven_le {value : NNRat} {bound : Nat} (h : value ≤ bound) :
    roundHalfEven value ≤ bound := by
  have hden : 0 < value.den := value.den_pos
  have hnum : value.num ≤ bound * value.den := by
    have hmul : value * value.den ≤ bound * value.den := mul_le_mul_of_nonneg_right h zero_le
    rw [NNRat.mul_den_eq_num] at hmul
    exact_mod_cast hmul
  have hdiv := Nat.div_add_mod value.num value.den
  have hrest := Nat.mod_lt value.num hden
  have hwhole : value.num / value.den ≤ bound := Nat.div_le_of_le_mul (by rwa [Nat.mul_comm])
  have hlast : value.num / value.den = bound → value.num % value.den = 0 := by
    intro heq
    rw [heq, Nat.mul_comm] at hdiv
    omega
  unfold roundHalfEven
  dsimp only
  split
  · exact hwhole
  · have hne : value.num / value.den ≠ bound := by
      intro heq
      have := hlast heq
      omega
    split
    · omega
    · omega

/-- The rounded value is at most half away. -/
theorem roundHalfEven_near (value : NNRat) :
    (value : ℚ) ≤ roundHalfEven value + 1 / 2 ∧ (roundHalfEven value : ℚ) ≤ value + 1 / 2 := by
  have hden : (0 : ℚ) < value.den := by exact_mod_cast value.den_pos
  have hvalue : (value : ℚ) = (value.num / value.den : Nat) + (value.num % value.den : Nat) /
      (value.den : ℚ) := by
    have hdiv : ((value.den * (value.num / value.den) + value.num % value.den : Nat) : ℚ) =
        value.num := by rw [Nat.div_add_mod]
    have hnum : (value : ℚ) * value.den = value.num := by exact_mod_cast NNRat.mul_den_eq_num value
    push_cast at hdiv ⊢
    field_simp
    linarith
  have hrest : 2 * ((value.num % value.den : Nat) : ℚ) / value.den < 2 := by
    rw [div_lt_iff₀ hden]
    exact_mod_cast Nat.mul_lt_mul_of_pos_left (Nat.mod_lt value.num value.den_pos) (by decide)
  have hpos : (0 : ℚ) ≤ ((value.num % value.den : Nat) : ℚ) / value.den := by positivity
  rw [mul_div_assoc] at hrest
  unfold roundHalfEven
  dsimp only
  generalize hfraction : ((value.num % value.den : Nat) : ℚ) / value.den = fraction at *
  split
  · rename_i hlow
    have hlow' : 2 * fraction < 1 := by
      rw [← hfraction, ← mul_div_assoc, div_lt_one hden]
      exact_mod_cast hlow
    constructor <;> linarith
  · split
    · rename_i hhigh
      have hhigh' : 1 < 2 * fraction := by
        rw [← hfraction, ← mul_div_assoc, one_lt_div hden]
        exact_mod_cast hhigh
      push_cast
      constructor <;> linarith
    · have htie : 2 * fraction = 1 := by
        rw [← hfraction, ← mul_div_assoc, div_eq_one_iff_eq hden.ne']
        exact_mod_cast (show 2 * (value.num % value.den) = value.den by omega)
      rcases Nat.mod_two_eq_zero_or_one (value.num / value.den) with heven | hodd
      · rw [heven]
        constructor <;> push_cast <;> linarith
      · rw [hodd]
        constructor <;> push_cast <;> linarith

/-- The nearest integer of a value with a sign. -/
def roundSigned (value : ℚ) : Int :=
  if value < 0 then -(roundHalfEven (-value).toNNRat : Int) else roundHalfEven value.toNNRat

/-- The hundredths that `%.2f` prints. -/
def hundredths (value : ℚ) : Int := roundSigned (value * 100)

theorem roundSigned_near (value : ℚ) :
    value ≤ roundSigned value + 1 / 2 ∧ (roundSigned value : ℚ) ≤ value + 1 / 2 := by
  unfold roundSigned
  split
  · rename_i hneg
    obtain ⟨hlow, hhigh⟩ := roundHalfEven_near (-value).toNNRat
    rw [Rat.coe_toNNRat _ (by linarith)] at hlow hhigh
    push_cast
    constructor <;> linarith
  · rename_i hnonneg
    obtain ⟨hlow, hhigh⟩ := roundHalfEven_near value.toNNRat
    rw [Rat.coe_toNNRat _ (not_lt.mp hnonneg)] at hlow hhigh
    push_cast
    constructor <;> linarith

/-- A greater value is not rounded to less. -/
theorem roundSigned_mono {low high : ℚ} (h : low ≤ high) : roundSigned low ≤ roundSigned high := by
  by_contra hless
  have hgap : (roundSigned high : ℚ) + 1 ≤ roundSigned low := by exact_mod_cast not_le.mp hless
  have hlow := (roundSigned_near low).2
  have hhigh := (roundSigned_near high).1
  have heq : low = high := by linarith
  rw [heq] at hgap
  linarith

theorem roundSigned_intCast (value : Int) : roundSigned value = value := by
  obtain ⟨hlow, hhigh⟩ := roundSigned_near value
  have hlow' : (value : ℚ) < (roundSigned value + 1 : Int) := by push_cast; linarith
  have hhigh' : (roundSigned (value : ℚ) : ℚ) < (value + 1 : Int) := by push_cast; linarith
  have hlt : value < roundSigned value + 1 := by exact_mod_cast hlow'
  have hgt : roundSigned value < value + 1 := by exact_mod_cast hhigh'
  omega

theorem hundredths_mono {low high : ℚ} (h : low ≤ high) : hundredths low ≤ hundredths high :=
  roundSigned_mono (by linarith)

theorem hundredths_intCast (value : Int) : hundredths value = value * 100 := by
  have hcast : (value : ℚ) * 100 = (value * 100 : Int) := by push_cast; rfl
  rw [hundredths, hcast, roundSigned_intCast]

theorem threeDigits_digits (n : Nat) : ∀ b ∈ threeDigits n, isDigit b = true := by
  have hdigit : ∀ d, d < 10 → isDigit (UInt8.ofNat (48 + d)) = true := by decide
  simp only [threeDigits, List.mem_cons, List.not_mem_nil, or_false]
  rintro b (rfl | rfl | rfl)
  · exact hdigit _ (Nat.mod_lt _ (by decide))
  · exact hdigit _ (Nat.mod_lt _ (by decide))
  · exact hdigit _ (Nat.mod_lt _ (by decide))

theorem digitsValue_threeDigits (n : Nat) : digitsValue 0 (threeDigits n) = n % 1000 := by
  have hdigit : ∀ m, (UInt8.ofNat (48 + m % 10)).toNat = 48 + m % 10 := fun m =>
    toNat_digitByte (Nat.mod_lt m (by decide))
  simp only [threeDigits, digitsValue, List.foldl_cons, List.foldl_nil, hdigit]
  omega

/-- The text of a finite `double`. -/
theorem decimalThousandths_length {negative : Bool} {magnitude : NNRat} (h : magnitude ≤ dblMax) :
    (decimalThousandths negative magnitude).length ≤ 314 := by
  have hscaled : magnitude * 1000 ≤ ((dblMax * 1000 : Nat) : NNRat) := by
    push_cast
    exact mul_le_mul_of_nonneg_right h zero_le
  have hround := roundHalfEven_le hscaled
  have hwhole : roundHalfEven (magnitude * 1000) / 1000 ≤ dblMax := Nat.div_le_of_le_mul (by rwa [Nat.mul_comm])
  have hdigits : (decimalNat (roundHalfEven (magnitude * 1000) / 1000)).length ≤ 309 :=
    decimalNat_length_le (by decide) (lt_of_le_of_lt hwhole (by decide +kernel))
  have hsign : (if negative then [byte '-'] else []).length ≤ 1 := by
    cases negative <;> decide
  simp only [decimalThousandths, threeDigits, List.length_append, List.length_cons,
    List.length_nil]
  omega

end LearnApue.Foundation
