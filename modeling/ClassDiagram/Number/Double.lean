set_option autoImplicit false

/-!
Double-precision numbers, exactly. Powers are written with `Nat.pow`, which means the same whatever
instances are at hand.
-/
namespace ClassDiagram

/-- A double-precision number. The finite ones have the value
`± significand * 2 ^ power / 2 ^ 1074`. -/
inductive Double where
  | finite (negative : Bool) (significand power : Nat)
  | infinite (negative : Bool)
  | nan
deriving DecidableEq, Repr

namespace Double

/-- The number of a finite double's units in one. -/
@[irreducible] def unitsInOne : Nat := Nat.pow 2 1074

/-- One more than the largest significand. -/
def significandLimit : Nat := Nat.pow 2 53

def maxPower : Nat := 2045

def zero (negative : Bool) : Double := .finite negative 0 0

def isFinite : Double → Bool
  | .finite .. => true
  | _ => false

def isZero : Double → Bool
  | .finite _ significand _ => significand == 0
  | _ => false

/-- The form in which every finite double is written: a significand with all its bits unless the
power is the least one. -/
def Normal (significand power : Nat) : Prop :=
  significand < significandLimit ∧ power ≤ maxPower ∧
    (power = 0 ∨ significandLimit ≤ 2 * significand)

/-- The whole number nearest to `numerator / denominator`; a half goes to the even neighbour. -/
def divideToEven (numerator denominator : Nat) : Nat :=
  let quotient := numerator / denominator
  let twice := 2 * (numerator % denominator)
  if twice < denominator then quotient
  else if denominator < twice then quotient + 1
  else quotient + quotient % 2

/-- The power of two of a number with so many whole units. -/
def powerFor (whole : Nat) : Nat :=
  if whole < significandLimit then 0 else Nat.log2 whole - 52

/-- A significand that rounding may have lifted to the limit, in normal form. -/
def carry (negative : Bool) (significand power : Nat) : Double :=
  if significand < significandLimit then
    if power ≤ maxPower then .finite negative significand power else .infinite negative
  else if power + 1 ≤ maxPower then .finite negative (significandLimit / 2) (power + 1)
  else .infinite negative

/-- The double nearest to `numerator / denominator` units. -/
def round (negative : Bool) (numerator denominator : Nat) : Double :=
  carry negative
    (divideToEven numerator (denominator * Nat.pow 2 (powerFor (numerator / denominator))))
    (powerFor (numerator / denominator))

theorem divideToEven_bounds (numerator denominator : Nat) :
    numerator / denominator ≤ divideToEven numerator denominator ∧
      divideToEven numerator denominator ≤ numerator / denominator + 1 := by
  simp only [divideToEven]
  split
  · omega
  · split <;> omega

private theorem significandLimit_le_double {whole : Nat} (h : powerFor whole ≠ 0) :
    significandLimit ≤ 2 * (whole / Nat.pow 2 (powerFor whole)) := by
  unfold powerFor at *
  split at h
  · exact absurd rfl h
  · next hw =>
      rw [if_neg hw]
      have hpos : whole ≠ 0 := by
        rintro rfl
        exact hw (by decide)
      have hlog : 52 + (Nat.log2 whole - 52) = Nat.log2 whole := by omega
      have hdiv : Nat.pow 2 52 ≤ whole / Nat.pow 2 (Nat.log2 whole - 52) := by
        refine (Nat.le_div_iff_mul_le (Nat.two_pow_pos _)).2 ?_
        calc Nat.pow 2 52 * Nat.pow 2 (Nat.log2 whole - 52)
            = Nat.pow 2 (52 + (Nat.log2 whole - 52)) := (Nat.pow_add 2 52 _).symm
          _ = Nat.pow 2 (Nat.log2 whole) := by rw [hlog]
          _ ≤ whole := Nat.log2_self_le hpos
      calc significandLimit = 2 * Nat.pow 2 52 := rfl
        _ ≤ 2 * (whole / Nat.pow 2 (Nat.log2 whole - 52)) := Nat.mul_le_mul_left 2 hdiv

/-- Rounding returns numbers in normal form. -/
theorem round_normal {negative sign : Bool} {numerator denominator significand power : Nat}
    (h : round negative numerator denominator = .finite sign significand power) :
    Normal significand power := by
  unfold round carry at h
  split at h
  · next hlt =>
      split at h
      · next hp =>
          simp only [finite.injEq] at h
          obtain ⟨-, rfl, rfl⟩ := h
          refine ⟨hlt, hp, ?_⟩
          by_cases hz : powerFor (numerator / denominator) = 0
          · exact .inl hz
          · have := (divideToEven_bounds numerator
              (denominator * Nat.pow 2 (powerFor (numerator / denominator)))).1
            rw [← Nat.div_div_eq_div_mul] at this
            exact .inr (Nat.le_trans (significandLimit_le_double hz) (Nat.mul_le_mul_left 2 this))
      · simp at h
  · split at h
    · next hp =>
        simp only [finite.injEq] at h
        obtain ⟨-, rfl, rfl⟩ := h
        exact ⟨by decide, hp, .inr (by decide)⟩
    · simp at h

end Double
end ClassDiagram
