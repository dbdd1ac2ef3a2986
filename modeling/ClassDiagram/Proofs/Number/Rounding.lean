import ClassDiagram.Number.Decimal

set_option autoImplicit false

namespace ClassDiagram

namespace Double

def IsNormal : Double → Prop
  | .finite _ significand power => Normal significand power
  | _ => False

instance (significand power : Nat) : Decidable (Normal significand power) :=
  inferInstanceAs (Decidable (_ ∧ _ ∧ _))

instance : DecidablePred IsNormal
  | .finite _ significand power => inferInstanceAs (Decidable (Normal significand power))
  | .infinite _ => isFalse id
  | .nan => isFalse id

theorem isNormal_zero (negative : Bool) : (zero negative).IsNormal :=
  ⟨by decide, by decide, .inl rfl⟩

theorem divideToEven_scale (numerator denominator : Nat) {factor : Nat} (positive : 0 < factor) :
    divideToEven (numerator * factor) (denominator * factor) =
      divideToEven numerator denominator := by
  have less (a b : Nat) : a * factor < b * factor ↔ a < b := Nat.mul_lt_mul_right positive
  simp only [divideToEven, Nat.mul_div_mul_right _ _ positive, Nat.mul_mod_mul_right,
    ← Nat.mul_assoc, less]

theorem round_scale (negative : Bool) (numerator denominator : Nat) {factor : Nat}
    (positive : 0 < factor) :
    round negative (numerator * factor) (denominator * factor) =
      round negative numerator denominator := by
  have shifted (power : Nat) : denominator * factor * Nat.pow 2 power =
      denominator * Nat.pow 2 power * factor := by
    rw [Nat.mul_right_comm]
  rw [round, round, Nat.mul_div_mul_right _ _ positive, shifted, divideToEven_scale _ _ positive]

/-- Equal ratios are rounded to the same double. -/
theorem round_eq_of_ratio (negative : Bool) {numerator denominator other below : Nat}
    (ratio : numerator * below = other * denominator) (positive : 0 < denominator)
    (positive' : 0 < below) :
    round negative numerator denominator = round negative other below := by
  calc round negative numerator denominator
      = round negative (numerator * below) (denominator * below) :=
        (round_scale negative _ _ positive').symm
    _ = round negative (other * denominator) (below * denominator) := by
        rw [ratio, Nat.mul_comm denominator]
    _ = round negative other below := round_scale negative _ _ positive

theorem powerFor_normal {significand power : Nat} (normal : Normal significand power) :
    powerFor (significand * Nat.pow 2 power) = power := by
  obtain ⟨bound, -, full⟩ := normal
  rcases full with rfl | full
  · simp [powerFor, bound]
  · have limit : significandLimit = 2 ^ 53 := rfl
    have room : 0 < 2 ^ power := Nat.two_pow_pos power
    have low : 2 ^ 52 * 2 ^ power ≤ significand * 2 ^ power :=
      Nat.mul_le_mul_right _ (by omega)
    have high : significand * 2 ^ power < 2 ^ 53 * 2 ^ power :=
      (Nat.mul_lt_mul_right room).2 bound
    have log : Nat.log2 (significand * 2 ^ power) = 52 + power := by
      refine (Nat.log2_eq_iff (by omega)).2 ⟨by rw [Nat.pow_add]; exact low, ?_⟩
      rw [show 52 + power + 1 = 53 + power by omega, Nat.pow_add]
      exact high
    show powerFor (significand * 2 ^ power) = power
    rw [powerFor, log]
    split
    · -- with all its bits a significand below the limit has no power to lose
      next small =>
        rcases Nat.eq_zero_or_pos power with rfl | more
        · rfl
        · have double : 2 ≤ 2 ^ power := Nat.le_pow more
          have twice : 2 ^ 52 * 2 ≤ 2 ^ 52 * 2 ^ power := Nat.mul_le_mul_left _ double
          omega
    · omega

/-- A whole number of units that is a normal double is rounded to itself. -/
theorem round_exact (negative : Bool) {significand power : Nat} (normal : Normal significand power)
    {denominator : Nat} (positive : 0 < denominator) :
    round negative (significand * Nat.pow 2 power * denominator) denominator =
      .finite negative significand power := by
  have whole : significand * Nat.pow 2 power * denominator / denominator =
      significand * Nat.pow 2 power := Nat.mul_div_cancel _ positive
  have exact : divideToEven (significand * Nat.pow 2 power * denominator)
      (denominator * Nat.pow 2 power) = significand := by
    have unit : divideToEven (significand * 1) (1 * 1) = significand := by
      simp [divideToEven, Nat.mod_one]
    have room : 0 < Nat.pow 2 power * denominator :=
      Nat.mul_pos (Nat.two_pow_pos power) positive
    have scaled := divideToEven_scale significand 1 room
    rw [Nat.mul_assoc, Nat.mul_comm denominator, ← Nat.one_mul (Nat.pow 2 power * denominator),
      ← Nat.mul_assoc, Nat.mul_one, scaled]
    simpa using unit
  rw [round, whole, powerFor_normal normal, exact, carry, if_pos normal.1, if_pos normal.2.1]

/-- The sign has no part in rounding. -/
theorem round_finite {negative sign : Bool} {numerator denominator significand power : Nat}
    (rounded : round negative numerator denominator = .finite sign significand power)
    (other : Bool) : round other numerator denominator = .finite other significand power := by
  unfold round carry at rounded ⊢
  split at rounded
  · next below =>
      rw [if_pos below]
      split at rounded
      · next room =>
          simp only [finite.injEq] at rounded
          rw [if_pos room, rounded.2.1, rounded.2.2]
      · cases rounded
  · next above =>
      rw [if_neg above]
      split at rounded
      · next room =>
          simp only [finite.injEq] at rounded
          rw [if_pos room, rounded.2.1, rounded.2.2]
      · cases rounded

end Double

namespace Decimal

open Double (Normal unitsInOne round)

theorem digitCount_mul_ten {digits : Nat} (nonzero : digits ≠ 0) :
    digitCount (digits * 10) = digitCount digits + 1 := by
  have large : 10 ≤ digits * 10 := by omega
  rw [digitCount, Nat.toDigits_of_base_le (by decide) large, Nat.mul_div_cancel _ (by decide),
    List.length_append, List.length_singleton, ← digitCount]

theorem digitCount_mul_pow {digits : Nat} (nonzero : digits ≠ 0) (k : Nat) :
    digitCount (digits * Nat.pow 10 k) = digitCount digits + k := by
  induction k with
  | zero =>
      show digitCount (digits * 1) = _
      rw [Nat.mul_one, Nat.add_zero]
  | succ k ih =>
      have more : digits * Nat.pow 10 k ≠ 0 :=
        Nat.mul_ne_zero nonzero (Nat.ne_of_gt (Nat.pow_pos (by decide)))
      show digitCount (digits * (Nat.pow 10 k * 10)) = _
      rw [← Nat.mul_assoc, digitCount_mul_ten more, ih, Nat.add_assoc]

/-- Zeros that make up for a smaller power of ten leave the nearest double as it is. -/
theorem toDouble_mul_pow (negative : Bool) (digits k : Nat) (exponent : Int) :
    toDouble ⟨negative, digits * Nat.pow 10 k, exponent - k⟩ =
      toDouble ⟨negative, digits, exponent⟩ := by
  by_cases nonzero : digits = 0
  · simp [toDouble, nonzero]
  · have more : digits * Nat.pow 10 k ≠ 0 :=
      Nat.mul_ne_zero nonzero (Nat.ne_of_gt (Nat.pow_pos (by decide)))
    have magnitude : (digitCount (digits * Nat.pow 10 k) : Int) + (exponent - k) =
        digitCount digits + exponent := by
      rw [digitCount_mul_pow nonzero]
      omega
    have add (m n : Nat) : Nat.pow 10 (m + n) = Nat.pow 10 m * Nat.pow 10 n := Nat.pow_add 10 m n
    have powers : k + (exponent - k).toNat + (-exponent).toNat =
        exponent.toNat + (-(exponent - k)).toNat := by omega
    have ratio : digits * Nat.pow 10 k * Nat.pow 10 (exponent - k).toNat * unitsInOne *
          Nat.pow 10 (-exponent).toNat =
        digits * Nat.pow 10 exponent.toNat * unitsInOne *
          Nat.pow 10 (-(exponent - k)).toNat := by
      calc digits * Nat.pow 10 k * Nat.pow 10 (exponent - k).toNat * unitsInOne *
            Nat.pow 10 (-exponent).toNat
          = digits * Nat.pow 10 (k + (exponent - k).toNat + (-exponent).toNat) *
              unitsInOne := by
            rw [add, add, Nat.mul_right_comm _ unitsInOne, Nat.mul_assoc digits,
              Nat.mul_assoc digits]
        _ = digits * Nat.pow 10 exponent.toNat * unitsInOne *
              Nat.pow 10 (-(exponent - k)).toNat := by
            rw [powers, add, Nat.mul_right_comm _ unitsInOne, ← Nat.mul_assoc digits]
    have same := Double.round_eq_of_ratio negative ratio (Nat.pow_pos (by decide))
      (Nat.pow_pos (by decide))
    simp only [toDouble, nonzero, more, magnitude, false_or]
    split
    · rfl
    · split
      · rfl
      · exact same

/-- Halving so often gives so many places behind the point. -/
theorem units_mul_pow (units places : Nat) :
    units * Nat.pow 5 places * Nat.pow 10 0 * Nat.pow 2 places = units * Nat.pow 10 places := by
  have ten : Nat.pow 10 places = Nat.pow 5 places * Nat.pow 2 places := Nat.mul_pow 5 2 places
  rw [ten, Nat.mul_assoc units, Nat.mul_assoc units, Nat.mul_right_comm]
  simp

theorem digitCount_le_iff {number count : Nat} (positive : 0 < count) :
    digitCount number ≤ count ↔ number < Nat.pow 10 count :=
  Nat.length_toDigits_le_iff (by decide) positive

theorem lt_digitCount_of_le {number less count : Nat} (positive : 0 < count)
    (low : less ≤ number) (reached : Nat.pow 10 count ≤ less) : count < digitCount number := by
  apply Nat.lt_of_not_le
  intro few
  have small := (digitCount_le_iff positive).1 few
  omega

theorem digitCount_le_of_le {number more count : Nat} (positive : 0 < count)
    (high : number ≤ more) (short : more < Nat.pow 10 count) : digitCount number ≤ count :=
  (digitCount_le_iff positive).2 (Nat.lt_of_le_of_lt high short)

theorem exact_digits (significand power : Nat) :
    (exact significand power).digits = significand * Nat.pow 2 power * Nat.pow 5 1074 := rfl

/-- The digits of a finite double are so many that no cut-off of `toDouble` is near. -/
theorem exact_magnitude {significand power : Nat} (normal : Normal significand power)
    (nonzero : significand ≠ 0) :
    743 < digitCount (exact significand power).digits ∧
      digitCount (exact significand power).digits ≤ 1384 := by
  obtain ⟨bound, room, -⟩ := normal
  constructor
  · have units : 1 ≤ significand * Nat.pow 2 power :=
      Nat.mul_pos (Nat.pos_of_ne_zero nonzero) (Nat.two_pow_pos power)
    rw [exact_digits]
    apply lt_digitCount_of_le (by decide) (Nat.le_mul_of_pos_left (Nat.pow 5 1074) units)
    decide +kernel
  · have grows : ∀ {less more : Nat}, less ≤ more → Nat.pow 2 less ≤ Nat.pow 2 more :=
      Nat.pow_le_pow_right (by decide)
    have units : significand * Nat.pow 2 power ≤
        Double.significandLimit * Nat.pow 2 Double.maxPower :=
      Nat.mul_le_mul (Nat.le_of_lt bound) (grows room)
    rw [exact_digits]
    apply digitCount_le_of_le (by decide) (Nat.mul_le_mul_right (Nat.pow 5 1074) units)
    decide +kernel

/-- A finite double is nearest to the decimal number that writes out all its digits. -/
theorem exact_toDouble {significand power : Nat} (normal : Normal significand power)
    (nonzero : significand ≠ 0) :
    (exact significand power).toDouble = .finite false significand power := by
  obtain ⟨low, high⟩ := exact_magnitude normal nonzero
  have digits : (exact significand power).digits ≠ 0 := by
    intro zero
    rw [zero] at low
    exact absurd low (by decide)
  have exponent : (exact significand power).exponent = -1074 := rfl
  have inRange : ¬((exact significand power).digits = 0 ∨
      (digitCount (exact significand power).digits : Int) + (exact significand power).exponent <
        tooSmall) := by
    rw [exponent, tooSmall]
    omega
  have belowLimit : ¬tooLarge <
      (digitCount (exact significand power).digits : Int) +
        (exact significand power).exponent := by
    rw [exponent, tooLarge]
    omega
  have numerator : (exact significand power).digits *
        Nat.pow 10 (exact significand power).exponent.toNat * unitsInOne =
      significand * Nat.pow 2 power * Nat.pow 10 1074 := by
    have whole : (exact significand power).exponent.toNat = 0 := rfl
    rw [exact_digits, whole]
    unfold unitsInOne
    generalize 1074 = places
    exact units_mul_pow (significand * Nat.pow 2 power) places
  have places : (-(exact significand power).exponent).toNat = 1074 := rfl
  rw [toDouble]
  simp only [if_neg inRange, if_neg belowLimit]
  rw [numerator, places]
  generalize 1074 = places
  exact Double.round_exact false normal (Nat.pow_pos (by decide))

end Decimal
end ClassDiagram
