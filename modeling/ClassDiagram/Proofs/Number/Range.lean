import ClassDiagram.Proofs.Number.ReadBack
import Mathlib.Algebra.Order.Field.Power
import Mathlib.Data.Rat.Floor
import Mathlib.Tactic.Linarith
import Mathlib.Tactic.NormNum
import Mathlib.Tactic.Positivity

set_option autoImplicit false

/-!
A number is rounded to infinity from half a unit above the largest finite double on, and to zero up
to half of the smallest positive one; a half goes to the even neighbour, which is the infinite one
above and zero below.
-/
namespace ClassDiagram

namespace Double

/-- An even limit is reached from half a unit below it on. -/
theorem divideToEven_lt_iff {numerator denominator limit : Nat} (positive : 0 < denominator)
    (even : limit % 2 = 0) :
    divideToEven numerator denominator < limit ↔
      2 * numerator < (2 * limit - 1) * denominator := by
  have ⟨low, high⟩ := divideToEven_bounds numerator denominator
  have parts := Nat.div_add_mod numerator denominator
  have remains := Nat.mod_lt numerator positive
  rcases Nat.lt_trichotomy (numerator / denominator + 1) limit with below | last | above
  · -- rounding up stays below the limit
    have whole : 2 * numerator < 2 * (numerator / denominator + 1) * denominator := by
      rw [Nat.mul_assoc, Nat.add_mul, Nat.one_mul, Nat.mul_comm (numerator / denominator)]
      omega
    have room : 2 * (numerator / denominator + 1) * denominator ≤ (2 * limit - 1) * denominator :=
      Nat.mul_le_mul_right _ (by omega)
    exact iff_of_true (Nat.lt_of_le_of_lt high below) (Nat.lt_of_lt_of_le whole room)
  · -- the odd number below the limit is kept by less than a half only
    have odd : numerator / denominator % 2 = 1 := by omega
    have span : (2 * limit - 1) * denominator =
        2 * (denominator * (numerator / denominator)) + denominator := by
      rw [← last, show 2 * (numerator / denominator + 1) - 1 =
          2 * (numerator / denominator) + 1 by omega,
        Nat.add_mul, Nat.one_mul, Nat.mul_assoc, Nat.mul_comm (numerator / denominator)]
    rw [span, ← last]
    simp only [divideToEven, odd]
    split
    · omega
    · split <;> omega
  · -- rounding down does not come below the limit
    have whole : 2 * (numerator / denominator) * denominator ≤ 2 * numerator := by
      rw [Nat.mul_assoc, Nat.mul_comm (numerator / denominator)]
      omega
    have room : (2 * limit - 1) * denominator ≤ 2 * (numerator / denominator) * denominator :=
      Nat.mul_le_mul_right _ (by omega)
    exact iff_of_false (by omega) (Nat.not_lt.2 (Nat.le_trans room whole))

/-- A number is rounded to zero up to one half. -/
theorem divideToEven_eq_zero_iff {numerator denominator : Nat} (positive : 0 < denominator) :
    divideToEven numerator denominator = 0 ↔ 2 * numerator ≤ denominator := by
  have parts := Nat.div_add_mod numerator denominator
  have remains := Nat.mod_lt numerator positive
  cases quotient : numerator / denominator with
  | zero =>
      rw [quotient, Nat.mul_zero] at parts
      simp only [divideToEven, quotient]
      split
      · omega
      · split <;> omega
  | succ more =>
      have low := (divideToEven_bounds numerator denominator).1
      have whole : denominator ≤ numerator := by
        rw [quotient, Nat.mul_succ] at parts
        omega
      exact iff_of_false (by omega) (by omega)

/-- Which numbers a power of two is large enough for. -/
theorem powerFor_le_iff (whole power : Nat) :
    powerFor whole ≤ power ↔ whole < significandLimit * Nat.pow 2 power := by
  show _ ↔ whole < 2 ^ 53 * 2 ^ power
  have limit : significandLimit = 2 ^ 53 := rfl
  rw [← Nat.pow_add, powerFor]
  split
  · next small =>
      have more : 2 ^ 53 ≤ 2 ^ (53 + power) := Nat.pow_le_pow_right (by decide) (by omega)
      exact iff_of_true (Nat.zero_le _) (Nat.lt_of_lt_of_le small more)
  · next large =>
      have nonzero : whole ≠ 0 := by omega
      rw [← Nat.log2_lt nonzero]
      omega

theorem carry_isFinite_iff (negative : Bool) (significand power : Nat) :
    (carry negative significand power).isFinite = true ↔
      power < maxPower ∨ power = maxPower ∧ significand < significandLimit := by
  unfold carry
  split
  · split
    · simp only [isFinite, true_iff]
      omega
    · simp only [isFinite, Bool.false_eq_true, false_iff]
      omega
  · split
    · simp only [isFinite, true_iff]
      omega
    · simp only [isFinite, Bool.false_eq_true, false_iff]
      omega

theorem carry_isZero_iff (negative : Bool) (significand power : Nat) :
    (carry negative significand power).isZero = true ↔ significand = 0 ∧ power ≤ maxPower := by
  unfold carry
  split
  · split
    · next room => simp [isZero, room]
    · next beyond => simp [isZero, beyond]
  · next large =>
      have nonzero : significand ≠ 0 := fun zero => large (zero ▸ by decide)
      have half : significandLimit / 2 ≠ 0 := by decide
      split
      · simp [isZero, nonzero, half]
      · simp [isZero, nonzero]

variable {numerator denominator : Nat}

/-- How large the numbers are that so large a power of two is chosen for. -/
theorem powerFor_div_le_iff (numerator : Nat) (positive : 0 < denominator) (power : Nat) :
    powerFor (numerator / denominator) ≤ power ↔
      numerator < significandLimit * (denominator * Nat.pow 2 power) := by
  rw [powerFor_le_iff, Nat.div_lt_iff_lt_mul positive, Nat.mul_assoc,
    Nat.mul_comm (Nat.pow 2 power)]

/-- The rounded significand stays below its limit, at a given power of two or a smaller one, up to
half a unit below the limit. -/
theorem rounded_below_iff (positive : 0 < denominator) (power : Nat) :
    (powerFor (numerator / denominator) < power ∨
        powerFor (numerator / denominator) = power ∧
          divideToEven numerator
            (denominator * Nat.pow 2 (powerFor (numerator / denominator))) < significandLimit) ↔
      2 * numerator < (2 * significandLimit - 1) * (denominator * Nat.pow 2 power) := by
  have limit : 1 < significandLimit := by decide
  have even : significandLimit % 2 = 0 := by decide
  have reach := powerFor_div_le_iff numerator positive power
  have twice : significandLimit * (denominator * Nat.pow 2 power) ≤
      (2 * significandLimit - 1) * (denominator * Nat.pow 2 power) :=
    Nat.mul_le_mul_right _ (by omega)
  rcases Nat.lt_trichotomy (powerFor (numerator / denominator)) power with below | last | above
  · cases power with
    | zero => exact absurd below (Nat.not_lt_zero _)
    | succ power =>
        have half : Nat.pow 2 (power + 1) = Nat.pow 2 power * 2 := rfl
        have reach := (powerFor_div_le_iff numerator positive power).1 (Nat.le_of_lt_succ below)
        refine iff_of_true (.inl below) (Nat.lt_of_lt_of_le ?_ twice)
        rw [half, ← Nat.mul_assoc denominator, ← Nat.mul_assoc significandLimit]
        omega
  · have scaled : 0 < denominator * Nat.pow 2 power :=
      Nat.mul_pos positive (Nat.two_pow_pos power)
    rw [last, ← divideToEven_lt_iff scaled even]
    simp
  · have beyond := mt reach.2 (Nat.not_le.2 above)
    have more : (2 * significandLimit - 1) * (denominator * Nat.pow 2 power) ≤
        2 * (significandLimit * (denominator * Nat.pow 2 power)) := by
      rw [← Nat.mul_assoc 2]
      exact Nat.mul_le_mul_right _ (Nat.sub_le _ _)
    exact iff_of_false (by omega) (by omega)

/-- A number is rounded to a finite double up to half a unit below the limit at the largest
power of two. -/
theorem round_isFinite_iff (negative : Bool) (positive : 0 < denominator) :
    (round negative numerator denominator).isFinite = true ↔
      2 * numerator < (2 * significandLimit - 1) * (denominator * Nat.pow 2 maxPower) := by
  rw [round, carry_isFinite_iff, rounded_below_iff positive]

/-- A number is rounded to zero up to half a unit. -/
theorem round_isZero_iff (negative : Bool) (positive : 0 < denominator) :
    (round negative numerator denominator).isZero = true ↔ 2 * numerator ≤ denominator := by
  have room : 0 < Nat.pow 2 (powerFor (numerator / denominator)) := Nat.two_pow_pos _
  rw [round, carry_isZero_iff, divideToEven_eq_zero_iff (Nat.mul_pos positive room)]
  cases power : powerFor (numerator / denominator) with
  | zero =>
      have one : denominator * Nat.pow 2 0 = denominator := Nat.mul_one _
      rw [one]
      simp
  | succ lower =>
      -- a number with a larger power of two is no smaller than the limit
      have large := mt (powerFor_div_le_iff numerator positive lower).2 (by omega)
      have two : 2 * (denominator * Nat.pow 2 lower) ≤
          significandLimit * (denominator * Nat.pow 2 lower) :=
        Nat.mul_le_mul_right _ (by decide)
      have double : denominator * Nat.pow 2 (lower + 1) =
          2 * (denominator * Nat.pow 2 lower) := by
        have half : Nat.pow 2 (lower + 1) = Nat.pow 2 lower * 2 := rfl
        rw [half, ← Nat.mul_assoc, Nat.mul_comm]
      have some : denominator ≤ denominator * Nat.pow 2 lower :=
        Nat.le_mul_of_pos_right _ (Nat.two_pow_pos lower)
      exact iff_of_false (by omega) (by omega)

end Double

namespace Decimal

open Double (unitsInOne significandLimit maxPower)

def size (decimal : Decimal) : ℚ := decimal.digits * (10 : ℚ) ^ decimal.exponent

/-- From here on a number is nearest to infinity. The largest finite double is
`2 ^ 1024 - 2 ^ 971`. -/
def overflow : ℚ := 2 ^ 1024 - 2 ^ 970

/-- Up to here a number is nearest to zero. The smallest positive double is `1 / 2 ^ 1074`. -/
def underflow : ℚ := 1 / 2 ^ 1075

theorem size_eq_ratio (decimal : Decimal) :
    decimal.size = ((decimal.digits * 10 ^ decimal.exponent.toNat : Nat) : ℚ) /
      ((10 ^ (-decimal.exponent).toNat : Nat) : ℚ) := by
  have power : (10 : ℚ) ^ decimal.exponent =
      10 ^ decimal.exponent.toNat / 10 ^ (-decimal.exponent).toNat := by
    rw [← zpow_natCast, ← zpow_natCast, ← zpow_sub₀ (by norm_num)]
    congr 1
    omega
  rw [size, power, mul_div_assoc']
  push_cast
  rfl

theorem lt_pow_digitCount (digits : Nat) : digits < 10 ^ digitCount digits :=
  (digitCount_le_iff Nat.length_toDigits_pos).1 (Nat.le_refl _)

theorem pow_digitCount_le {digits : Nat} (nonzero : digits ≠ 0) :
    10 ^ (digitCount digits - 1) ≤ digits := by
  have positive : 0 < digitCount digits := Nat.length_toDigits_pos
  refine Nat.le_of_not_lt fun short => ?_
  rcases Nat.eq_zero_or_pos (digitCount digits - 1) with one | more
  · rw [one] at short
    omega
  · have few := (digitCount_le_iff more).2 short
    omega

/-- The size lies below the power of ten behind its first digit. -/
theorem size_lt_pow (decimal : Decimal) :
    decimal.size < (10 : ℚ) ^ (digitCount decimal.digits + decimal.exponent : Int) := by
  rw [zpow_add₀ (by norm_num), size, zpow_natCast]
  apply mul_lt_mul_of_pos_right _ (by positivity)
  exact_mod_cast lt_pow_digitCount decimal.digits

/-- The size is at least the power of ten of its first digit. -/
theorem pow_le_size {decimal : Decimal} (nonzero : decimal.digits ≠ 0) :
    (10 : ℚ) ^ (digitCount decimal.digits + decimal.exponent - 1 : Int) ≤ decimal.size := by
  have positive : 0 < digitCount decimal.digits := Nat.length_toDigits_pos
  have split : (digitCount decimal.digits + decimal.exponent - 1 : Int) =
      (digitCount decimal.digits - 1 : Nat) + decimal.exponent := by omega
  rw [split, zpow_add₀ (by norm_num), size, zpow_natCast]
  apply mul_le_mul_of_nonneg_right _ (by positivity)
  exact_mod_cast pow_digitCount_le nonzero

variable {numerator denominator : Nat}

theorem below_limit_iff :
    2 * (numerator * unitsInOne) <
        (2 * significandLimit - 1) * (denominator * Nat.pow 2 maxPower) ↔
      numerator < (2 ^ 1024 - 2 ^ 970) * denominator := by
  have positive : 0 < 2 * unitsInOne := by
    unfold unitsInOne
    decide +kernel
  have scale : (2 * significandLimit - 1) * Nat.pow 2 maxPower =
      (2 ^ 1024 - 2 ^ 970) * (2 * unitsInOne) := by
    unfold unitsInOne
    decide +kernel
  have right : (2 * significandLimit - 1) * (denominator * Nat.pow 2 maxPower) =
      (2 ^ 1024 - 2 ^ 970) * denominator * (2 * unitsInOne) := by
    rw [Nat.mul_comm denominator, ← Nat.mul_assoc, scale, Nat.mul_right_comm]
  rw [right, Nat.mul_left_comm, Nat.mul_lt_mul_right positive]

theorem lt_overflow_iff (positive : 0 < denominator) :
    (numerator : ℚ) / denominator < overflow ↔
      numerator < (2 ^ 1024 - 2 ^ 970) * denominator := by
  have whole : overflow = ((2 ^ 1024 - 2 ^ 970 : Nat) : ℚ) := by
    rw [Nat.cast_sub (by decide +kernel), Nat.cast_pow, Nat.cast_pow, Nat.cast_two, overflow]
  rw [whole, div_lt_iff₀ (by exact_mod_cast positive)]
  exact_mod_cast Iff.rfl

theorem le_underflow_iff (positive : 0 < denominator) :
    (numerator : ℚ) / denominator ≤ underflow ↔ 2 * (numerator * unitsInOne) ≤ denominator := by
  have units : 2 * unitsInOne = 2 ^ 1075 := by
    unfold unitsInOne
    decide +kernel
  rw [underflow, div_le_div_iff₀ (by exact_mod_cast positive) (by positivity), one_mul,
    Nat.mul_left_comm, units]
  exact_mod_cast Iff.rfl

theorem underflow_lt_overflow : underflow < overflow := by
  have small : underflow ≤ 1 := by
    rw [underflow, div_le_one (by positivity)]
    exact one_le_pow₀ (by norm_num)
  have large : (1 : ℚ) < overflow := by
    have bound : ((1 : Nat) : ℚ) / (1 : Nat) < overflow :=
      (lt_overflow_iff Nat.one_pos).2 (by decide +kernel)
    simpa using bound
  exact lt_of_le_of_lt small large

/-- The lower cut-off of `toDouble` is not above the bound. -/
theorem size_le_underflow {decimal : Decimal}
    (small : decimal.digits = 0 ∨
      (digitCount decimal.digits + decimal.exponent : Int) < tooSmall) :
    decimal.size ≤ underflow := by
  rcases small with none | small
  · rw [size, none, Nat.cast_zero, zero_mul, underflow]
    positivity
  · have power : (digitCount decimal.digits + decimal.exponent : Int) ≤ -(330 : Nat) := by
      rw [tooSmall] at small
      omega
    have enough : (2 : ℚ) ^ 1075 ≤ 10 ^ 330 := by
      exact_mod_cast (by decide +kernel : 2 ^ 1075 ≤ 10 ^ 330)
    calc decimal.size
        ≤ (10 : ℚ) ^ (digitCount decimal.digits + decimal.exponent : Int) :=
          le_of_lt decimal.size_lt_pow
      _ ≤ (10 : ℚ) ^ (-(330 : Nat) : Int) := zpow_le_zpow_right₀ (by norm_num) power
      _ = 1 / 10 ^ 330 := by rw [zpow_neg, zpow_natCast, one_div]
      _ ≤ underflow := one_div_le_one_div_of_le (by positivity) enough

/-- The upper cut-off of `toDouble` is not below the bound. -/
theorem overflow_le_size {decimal : Decimal} (nonzero : decimal.digits ≠ 0)
    (large : tooLarge < (digitCount decimal.digits + decimal.exponent : Int)) :
    overflow ≤ decimal.size := by
  have power : ((310 : Nat) : Int) ≤ digitCount decimal.digits + decimal.exponent - 1 := by
    rw [tooLarge] at large
    omega
  have enough : (2 : ℚ) ^ 1024 ≤ 10 ^ 310 := by
    exact_mod_cast (by decide +kernel : 2 ^ 1024 ≤ 10 ^ 310)
  calc overflow
      ≤ 2 ^ 1024 := sub_le_self _ (by positivity)
    _ ≤ (10 : ℚ) ^ ((310 : Nat) : Int) := by rwa [zpow_natCast]
    _ ≤ (10 : ℚ) ^ (digitCount decimal.digits + decimal.exponent - 1 : Int) :=
        zpow_le_zpow_right₀ (by norm_num) power
    _ ≤ decimal.size := pow_le_size nonzero

/-- The cut-offs of `toDouble` only leave out what is rounded to zero or to infinity. -/
theorem toDouble_cases (decimal : Decimal) :
    decimal.toDouble = .zero decimal.negative ∧ decimal.size ≤ underflow ∨
      decimal.toDouble = .infinite decimal.negative ∧ overflow ≤ decimal.size ∨
      decimal.toDouble =
        .round decimal.negative (decimal.digits * 10 ^ decimal.exponent.toNat * unitsInOne)
          (10 ^ (-decimal.exponent).toNat) := by
  rw [toDouble]
  split
  · next small => exact .inl ⟨rfl, size_le_underflow small⟩
  · next some =>
      rw [not_or] at some
      split
      · next large => exact .inr (.inl ⟨rfl, overflow_le_size some.1 large⟩)
      · exact .inr (.inr rfl)

/-- The number is rounded to a finite double just below the bound. -/
theorem toDouble_isFinite_iff (decimal : Decimal) :
    decimal.toDouble.isFinite = true ↔ decimal.size < overflow := by
  have positive : 0 < 10 ^ (-decimal.exponent).toNat := Nat.pow_pos (by decide)
  rcases decimal.toDouble_cases with ⟨zero, small⟩ | ⟨infinite, large⟩ | rounded
  · rw [zero]
    exact iff_of_true rfl (lt_of_le_of_lt small underflow_lt_overflow)
  · rw [infinite]
    exact iff_of_false Bool.false_ne_true (not_lt.2 large)
  · rw [rounded, Double.round_isFinite_iff _ positive, below_limit_iff, size_eq_ratio,
      lt_overflow_iff positive]

/-- The number is rounded to zero just up to the bound. -/
theorem toDouble_isZero_iff (decimal : Decimal) :
    decimal.toDouble.isZero = true ↔ decimal.size ≤ underflow := by
  have positive : 0 < 10 ^ (-decimal.exponent).toNat := Nat.pow_pos (by decide)
  rcases decimal.toDouble_cases with ⟨zero, small⟩ | ⟨infinite, large⟩ | rounded
  · rw [zero]
    exact iff_of_true rfl small
  · rw [infinite]
    exact iff_of_false Bool.false_ne_true (not_le.2 (lt_of_lt_of_le underflow_lt_overflow large))
  · rw [rounded, Double.round_isZero_iff _ positive, size_eq_ratio, le_underflow_iff positive]

end Decimal

namespace Double

/-- Whether the text is, behind an optional sign and in any case of letters, one of the words for
what is no finite number. -/
def IsWord (text : List Char) : Prop :=
  String.ofList ((Decimal.cutSign text).2.map Char.toLower) ∈ ["inf", "infinity", "nan"]

/-- No word is read as a finite number. -/
theorem ofText?_of_isWord {text : List Char} (word : IsWord text) :
    ∃ number, ofText? text = some number ∧ number.isFinite = false := by
  unfold IsWord at word
  unfold ofText?
  dsimp only
  split
  · exact ⟨_, rfl, rfl⟩
  · next noInfinity =>
      have nan : String.ofList ((Decimal.cutSign text).2.map Char.toLower) = "nan" := by
        simpa [not_or.1 noInfinity] using word
      rw [if_pos nan]
      exact ⟨_, rfl, rfl⟩

end Double
end ClassDiagram
