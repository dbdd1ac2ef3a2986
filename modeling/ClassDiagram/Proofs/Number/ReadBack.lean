import ClassDiagram.Proofs.Number.Rounding
import ClassDiagram.Proofs.Text.Trim

set_option autoImplicit false

namespace ClassDiagram

namespace Decimal

/-! ### Rows of digits -/

theorem ofDigits_append (front back : List Char) :
    ofDigits (front ++ back) = ofDigits front * Nat.pow 10 back.length + ofDigits back := by
  show Nat.ofDigitChars 10 (front ++ back) 0 = _
  rw [Nat.ofDigitChars_append, Nat.ofDigitChars_eq_ofDigitChars_zero, Nat.mul_comm]
  rfl

theorem ofDigits_zeros (count : Nat) : ofDigits (List.replicate count '0') = 0 := by
  show Nat.ofDigitChars 10 (List.replicate count '0') 0 = 0
  rw [Nat.ofDigitChars_replicate_zero, Nat.mul_zero]

@[simp] theorem ofDigits_toDigits (n : Nat) : ofDigits (Nat.toDigits 10 n) = n :=
  Nat.ofDigitChars_ten_toDigits

theorem isDigit_of_mem_toDigits {n : Nat} {c : Char} (mem : c ∈ Nat.toDigits 10 n) :
    c.isDigit = true :=
  Nat.isDigit_of_mem_toDigits (by decide) (by decide) mem

theorem isDigit_of_mem_zeros {count : Nat} {c : Char} (mem : c ∈ List.replicate count '0') :
    c.isDigit = true := by
  rw [List.eq_of_mem_replicate mem]
  rfl

/-- Only zero is written with a zero in front. -/
theorem head?_toDigits {n : Nat} (nonzero : n ≠ 0) : (Nat.toDigits 10 n).head? ≠ some '0' := by
  induction n using Nat.strongRecOn with
  | ind n ih =>
      rcases Nat.lt_or_ge n 10 with small | large
      · have digit : ∀ d < 10, d ≠ 0 → Nat.digitChar d ≠ '0' := by decide
        rw [Nat.toDigits_of_lt_base small]
        simpa using digit n small nonzero
      · obtain ⟨first, row, shape⟩ := List.exists_cons_of_ne_nil
          (Nat.toDigits_ne_nil (n := n / 10) (b := 10))
        have front := ih (n / 10) (by omega) (by omega)
        rw [Nat.toDigits_of_base_le (by decide) large, shape]
        rwa [shape] at front

theorem front_toDigits (n : Nat) :
    Nat.toDigits 10 n = ['0'] ∨ (Nat.toDigits 10 n).head? ≠ some '0' := by
  by_cases zero : n = 0
  · rw [zero]
    exact .inl rfl
  · exact .inr (head?_toDigits zero)

/-! ### Numerals -/

structure Numeral where
  /-- The digits before the point. -/
  whole : List Char
  /-- The digits behind the point; without any there is no point. -/
  fraction : List Char
  /-- The power of ten, if one is given. -/
  power : Option Int

namespace Numeral

def powerText : Option Int → List Char
  | none => []
  | some power => 'e' :: (if power < 0 then '-' else '+') :: Nat.toDigits 10 power.natAbs

def fractionText (fraction : List Char) : List Char :=
  if fraction = [] then [] else '.' :: fraction

def text (numeral : Numeral) : List Char :=
  numeral.whole ++ (fractionText numeral.fraction ++ powerText numeral.power)

def decimal (negative : Bool) (numeral : Numeral) : Decimal :=
  ⟨negative, ofDigits (numeral.whole ++ numeral.fraction),
    numeral.power.getD 0 - numeral.fraction.length⟩

/-- Only digits, none of them a needless zero in front, and more than a row of digits. -/
structure Sound (numeral : Numeral) : Prop where
  digits : ∀ c ∈ numeral.whole, c.isDigit = true
  fraction : ∀ c ∈ numeral.fraction, c.isDigit = true
  nonempty : numeral.whole ≠ []
  front : numeral.whole = ['0'] ∨ numeral.whole.head? ≠ some '0'
  broken : numeral.fraction ≠ [] ∨ numeral.power.isSome = true

theorem head?_powerText (power : Option Int) :
    ∀ c ∈ (powerText power).head?, c.isDigit = false := by
  cases power with
  | none => nofun
  | some power =>
      intro c first
      cases first
      rfl

theorem head?_tail (fraction : List Char) (power : Option Int) :
    ∀ c ∈ (fractionText fraction ++ powerText power).head?, c.isDigit = false := by
  cases fraction with
  | nil => exact head?_powerText power
  | cons digit more =>
      intro c first
      cases first
      rfl

theorem exponent?_powerText (power : Option Int) :
    exponent? (powerText power) = some (power.getD 0) := by
  cases power with
  | none => rfl
  | some power =>
      have all : (Nat.toDigits 10 power.natAbs).all Char.isDigit = true :=
        List.all_eq_true.2 fun c mem => isDigit_of_mem_toDigits mem
      have nonempty : (Nat.toDigits 10 power.natAbs).isEmpty = false :=
        List.isEmpty_eq_false_iff.2 Nat.toDigits_ne_nil
      rcases Int.lt_or_le power 0 with negative | positive
      · simp only [powerText, exponent?, cutSign, negative, all, nonempty, ofDigits_toDigits,
          Bool.not_true, Bool.or_false, Bool.false_eq_true, true_or, ↓reduceIte, Option.getD_some,
          Option.some.injEq]
        omega
      · have sign : ¬power < 0 := by omega
        simp only [powerText, exponent?, cutSign, sign, all, nonempty, ofDigits_toDigits,
          Bool.not_true, Bool.or_false, Bool.false_eq_true, true_or, ↓reduceIte, Option.getD_some,
          Option.some.injEq]
        omega

theorem cutFraction_tail {fraction : List Char} (digits : ∀ c ∈ fraction, c.isDigit = true)
    (power : Option Int) :
    cutFraction (fractionText fraction ++ powerText power) = (fraction, powerText power) := by
  cases fraction with
  | nil => cases power <;> rfl
  | cons digit more =>
      show ((digit :: more ++ powerText power).takeWhile Char.isDigit,
        (digit :: more ++ powerText power).dropWhile Char.isDigit) = _
      rw [Text.takeWhile_run digits (head?_powerText power),
        Text.dropWhile_run digits (head?_powerText power)]

variable {numeral : Numeral}

theorem Sound.takeWhile_text (sound : numeral.Sound) :
    numeral.text.takeWhile Char.isDigit = numeral.whole :=
  Text.takeWhile_run sound.digits (head?_tail _ _)

theorem Sound.dropWhile_text (sound : numeral.Sound) :
    numeral.text.dropWhile Char.isDigit =
      fractionText numeral.fraction ++ powerText numeral.power :=
  Text.dropWhile_run sound.digits (head?_tail _ _)

theorem Sound.exists_digit (sound : numeral.Sound) :
    ∃ first rest, numeral.text = first :: rest ∧ first.isDigit = true := by
  obtain ⟨first, rest, whole⟩ := List.exists_cons_of_ne_nil sound.nonempty
  have digit : first.isDigit = true := sound.digits first (by simp [whole])
  exact ⟨first, _, by rw [text, whole, List.cons_append], digit⟩

/-- A numeral is read as the number that it stands for. -/
theorem Sound.ofUnsigned?_text (sound : numeral.Sound) (negative : Bool) :
    ofUnsigned? negative numeral.text = some (numeral.decimal negative) := by
  have digits : numeral.whole.isEmpty = false := List.isEmpty_eq_false_iff.2 sound.nonempty
  rw [ofUnsigned?, sound.takeWhile_text, sound.dropWhile_text, cutFraction_tail sound.fraction]
  simp [digits, exponent?_powerText, decimal]

end Numeral

/-! ### The text of a decimal -/

/-- Digits with no zero in front. -/
structure IsRow (row : List Char) : Prop where
  digits : ∀ c ∈ row, c.isDigit = true
  nonempty : row ≠ []
  front : row.head? ≠ some '0'

theorem IsRow.take {row : List Char} (isRow : IsRow row) {count : Nat} (positive : 0 < count) :
    IsRow (row.take count) := by
  obtain ⟨digits, nonempty, front⟩ := isRow
  obtain ⟨first, rest, rfl⟩ := List.exists_cons_of_ne_nil nonempty
  obtain ⟨more, rfl⟩ := Nat.exists_eq_succ_of_ne_zero (Nat.pos_iff_ne_zero.1 positive)
  exact ⟨fun c mem => digits c (List.mem_of_mem_take mem), by simp, front⟩

/-- The number of zeros that are taken off is known, and nothing else is. -/
theorem stripZeros_append (row : List Char) :
    (stripZeros row).1 ++ List.replicate (stripZeros row).2 '0' = row := by
  have parts := congrArg List.reverse
    (List.takeWhile_append_dropWhile (p := fun c => c == '0') (l := row.reverse))
  rw [List.reverse_append, List.reverse_reverse] at parts
  have zeros : ∀ c ∈ (row.reverse.takeWhile fun c => c == '0').reverse, c = '0' := by
    intro c mem
    have all := List.all_eq_true.1 (List.all_takeWhile (p := fun c => c == '0')
      (l := row.reverse)) c (List.mem_reverse.1 mem)
    simpa using all
  have count : (stripZeros row).2 =
      (row.reverse.takeWhile fun c => c == '0').reverse.length := by
    have lengths := congrArg List.length parts
    rw [List.length_append] at lengths
    simp only [stripZeros]
    omega
  rw [count, ← List.eq_replicate_of_mem zeros]
  exact parts

/-- The digits of a positive number without the zeros at the end are a row. -/
theorem isRow_stripZeros {digits : Nat} (nonzero : digits ≠ 0) :
    IsRow (stripZeros (Nat.toDigits 10 digits)).1 := by
  have parts := stripZeros_append (Nat.toDigits 10 digits)
  have front := head?_toDigits nonzero
  refine ⟨fun c mem => ?_, fun empty => ?_, fun zero => ?_⟩
  · exact isDigit_of_mem_toDigits (parts ▸ List.mem_append_left _ mem)
  · -- a row of zeros would have a zero in front
    rw [empty, List.nil_append] at parts
    rw [← parts] at front
    cases zeros : (stripZeros (Nat.toDigits 10 digits)).2 with
    | zero =>
        rw [zeros] at parts
        exact Nat.toDigits_ne_nil parts.symm
    | succ more =>
        rw [zeros] at front
        exact front rfl
  · rw [← parts, List.head?_append, zero] at front
    exact front rfl

/-- The text is a numeral, and with either sign it is read as the double that is nearest to
`digits * 10 ^ exponent`. -/
def Spells (text : List Char) (digits : Nat) (exponent : Int) : Prop :=
  ∃ numeral : Numeral, numeral.Sound ∧ numeral.text = text ∧
    ∀ negative, (numeral.decimal negative).toDouble = toDouble ⟨negative, digits, exponent⟩

variable {row : List Char}

theorem spells_below_one (isRow : IsRow row) (gap : Nat) :
    Spells ('0' :: '.' :: List.replicate gap '0' ++ row) (ofDigits row)
      (-(gap + row.length : Nat)) := by
  have some : List.replicate gap '0' ++ row ≠ [] :=
    fun empty => isRow.nonempty (List.append_eq_nil_iff.1 empty).2
  have value : ofDigits (['0'] ++ (List.replicate gap '0' ++ row)) = ofDigits row := by
    rw [ofDigits_append, ofDigits_append, ofDigits_zeros]
    simp [ofDigits]
  refine ⟨⟨['0'], List.replicate gap '0' ++ row, none⟩, ?_, ?_, fun negative => ?_⟩
  · refine ⟨fun c mem => ?_, fun c mem => ?_, by simp, .inl rfl, .inl some⟩
    · rw [List.mem_singleton.1 mem]
      rfl
    · rcases List.mem_append.1 mem with zero | mem
      · exact isDigit_of_mem_zeros zero
      · exact isRow.digits c mem
  · rw [Numeral.text, Numeral.fractionText, if_neg some, Numeral.powerText, List.append_nil]
    rfl
  · rw [Numeral.decimal, value, Option.getD_none, List.length_append, List.length_replicate,
      Int.zero_sub]

theorem spells_whole (isRow : IsRow row) (gap : Nat) :
    Spells (row ++ List.replicate gap '0' ++ ['.', '0']) (ofDigits row) gap := by
  have value : ofDigits (row ++ List.replicate gap '0' ++ ['0']) =
      ofDigits row * Nat.pow 10 (gap + 1) := by
    have more : Nat.pow 10 (gap + 1) = Nat.pow 10 gap * 10 := rfl
    rw [ofDigits_append, ofDigits_append, ofDigits_zeros, List.length_replicate, more,
      ← Nat.mul_assoc]
    rfl
  refine ⟨⟨row ++ List.replicate gap '0', ['0'], none⟩, ?_, ?_, fun negative => ?_⟩
  · obtain ⟨digits, nonempty, front⟩ := isRow
    obtain ⟨first, rest, rfl⟩ := List.exists_cons_of_ne_nil nonempty
    refine ⟨fun c mem => ?_, fun c mem => ?_, by simp, .inr front, .inl (by simp)⟩
    · rcases List.mem_append.1 mem with mem | zero
      · exact digits c mem
      · exact isDigit_of_mem_zeros zero
    · rw [List.mem_singleton.1 mem]
      rfl
  · simp [Numeral.text, Numeral.fractionText, Numeral.powerText]
  · have power : (0 : Int) - ['0'].length = gap - (gap + 1 : Nat) := by
      rw [List.length_singleton]
      omega
    rw [Numeral.decimal, value, Option.getD_none, power, toDouble_mul_pow]

theorem spells_inside (isRow : IsRow row) {count : Nat} (positive : 0 < count)
    (short : count < row.length) :
    Spells (row.take count ++ '.' :: row.drop count) (ofDigits row)
      (-(row.length - count : Nat)) := by
  have some : row.drop count ≠ [] := by
    intro empty
    have length := congrArg List.length empty
    rw [List.length_drop, List.length_nil] at length
    omega
  obtain ⟨digits, nonempty, front⟩ := isRow.take positive
  refine ⟨⟨row.take count, row.drop count, none⟩, ?_, ?_, fun negative => ?_⟩
  · exact ⟨digits, fun c mem => isRow.digits c (List.mem_of_mem_drop mem), nonempty, .inr front,
      .inl some⟩
  · rw [Numeral.text, Numeral.fractionText, if_neg some, Numeral.powerText, List.append_nil]
  · rw [Numeral.decimal, List.take_append_drop, Option.getD_none, List.length_drop, Int.zero_sub]

theorem spells_scientific (isRow : IsRow row) (exponent : Int) :
    Spells (scientific row exponent) (ofDigits row) (exponent + 1 - row.length) := by
  obtain ⟨digits, nonempty, front⟩ := isRow.take Nat.one_pos
  have length : 0 < row.length := List.length_pos_iff.2 isRow.nonempty
  refine ⟨⟨row.take 1, row.drop 1, some exponent⟩, ?_, ?_, fun negative => ?_⟩
  · exact ⟨digits, fun c mem => isRow.digits c (List.mem_of_mem_drop mem), nonempty, .inr front,
      .inr rfl⟩
  · have point : (row.drop 1 = []) = (row.length ≤ 1) := propext List.drop_eq_nil_iff
    simp only [scientific, Numeral.text, Numeral.fractionText, Numeral.powerText, point,
      List.append_assoc]
  · have power : exponent - (row.drop 1).length = exponent + 1 - row.length := by
      rw [List.length_drop]
      omega
    rw [Numeral.decimal, List.take_append_drop, Option.getD_some, power]

theorem spells_positional (isRow : IsRow row) (exponent : Int) :
    Spells (positional row exponent) (ofDigits row) (exponent + 1 - row.length) := by
  rw [positional]
  split
  · next small =>
      have power : exponent + 1 - row.length =
          -(((-exponent - 1).toNat + row.length : Nat) : Int) := by omega
      rw [power]
      exact spells_below_one isRow _
  · next large =>
      simp only
      split
      · next short =>
          have power : exponent + 1 - row.length =
              ((exponent.toNat + 1 - row.length : Nat) : Int) := by omega
          rw [power]
          exact spells_whole isRow _
      · next long =>
          have power : exponent + 1 - row.length =
              -((row.length - (exponent.toNat + 1) : Nat) : Int) := by omega
          rw [power]
          exact spells_inside isRow (Nat.succ_pos _) (Nat.lt_of_not_le long)

/-- Every decimal other than zero is read back from its text, in every layout. -/
theorem spells_write (layout : Layout) {digits : Nat} (nonzero : digits ≠ 0) (exponent : Int) :
    Spells (write layout digits exponent) digits exponent := by
  have isRow := isRow_stripZeros nonzero
  have parts := stripZeros_append (Nat.toDigits 10 digits)
  generalize zeros : (stripZeros (Nat.toDigits 10 digits)).2 = count at parts
  generalize kept : (stripZeros (Nat.toDigits 10 digits)).1 = row at isRow parts
  have length : (Nat.toDigits 10 digits).length = row.length + count := by
    rw [← parts, List.length_append, List.length_replicate]
  have value : digits = ofDigits row * Nat.pow 10 count := by
    calc digits = ofDigits (Nat.toDigits 10 digits) := (ofDigits_toDigits digits).symm
      _ = ofDigits (row ++ List.replicate count '0') := by rw [parts]
      _ = ofDigits row * Nat.pow 10 count := by
          rw [ofDigits_append, ofDigits_zeros, List.length_replicate, Nat.add_zero]
  have written : Spells (write layout digits exponent) (ofDigits row) (exponent + count) := by
    have power : exponent + ((row.length + count : Nat) : Int) - 1 + 1 - row.length =
        exponent + count := by omega
    simp only [write, length, kept]
    rw [← power]
    split
    · exact spells_positional isRow _
    · exact spells_scientific isRow _
  obtain ⟨numeral, sound, text, same⟩ := written
  refine ⟨numeral, sound, text, fun negative => ?_⟩
  calc (numeral.decimal negative).toDouble
      = toDouble ⟨negative, ofDigits row, exponent + count⟩ := same negative
    _ = toDouble ⟨negative, ofDigits row * Nat.pow 10 count, exponent + count - count⟩ :=
        (toDouble_mul_pow _ _ _ _).symm
    _ = toDouble ⟨negative, digits, exponent⟩ := by rw [← value, Int.add_sub_cancel]

def ofText? (text : List Char) : Option Decimal :=
  ofUnsigned? (cutSign text).1 (cutSign text).2

end Decimal

namespace Double

open Decimal (Numeral)

/-- The sign of a number as it stands in front of the digits. -/
def signText (negative : Bool) : List Char := if negative then ['-'] else []

theorem toLower_of_isDigit {c : Char} (digit : c.isDigit = true) : c.toLower = c := by
  simp only [Char.isDigit, Bool.and_eq_true, decide_eq_true_eq] at digit
  exact dif_neg fun upper => absurd (UInt32.le_trans upper.1 digit.2) (by decide)

theorem cutSign_signText (negative : Bool) {first : Char} (digit : first.isDigit = true)
    (rest : List Char) :
    Decimal.cutSign (signText negative ++ first :: rest) = (negative, first :: rest) := by
  cases negative with
  | true => rfl
  | false =>
      show Decimal.cutSign (first :: rest) = (false, first :: rest)
      unfold Decimal.cutSign
      split
      · next equal =>
          cases equal
          cases digit
      · next equal =>
          cases equal
          cases digit
      · rfl

/-- A number begins with a digit or a point, whatever its sign. -/
theorem exists_front {negative : Bool} {rest : List Char} {decimal : Decimal}
    (read : Decimal.ofUnsigned? negative rest = some decimal) :
    ∃ first more, rest = first :: more ∧ (first.isDigit = true ∨ first = '.') := by
  cases rest with
  | nil => cases read
  | cons first more =>
      refine ⟨first, more, rfl, ?_⟩
      by_cases digit : first.isDigit = true
      · exact .inl digit
      · refine .inr (Decidable.byContradiction fun point => ?_)
        have fraction : Decimal.cutFraction (first :: more) = ([], first :: more) := by
          unfold Decimal.cutFraction
          split
          · next equal => exact absurd (List.cons.inj equal).1 point
          · rfl
        rw [Decimal.ofUnsigned?, List.takeWhile_cons_of_neg digit,
          List.dropWhile_cons_of_neg digit, fraction] at read
        cases read

theorem toLower_of_front {first : Char} (front : first.isDigit = true ∨ first = '.') :
    first.toLower = first := by
  rcases front with digit | rfl
  · exact toLower_of_isDigit digit
  · rfl

/-- No word begins as a number does, in whatever case its letters are. -/
theorem ofList_toLower_ne {first : Char} (front : first.isDigit = true ∨ first = '.')
    (rest : List Char) {word : String} {letter : Char} (more : List Char)
    (shape : word.toList = letter :: more)
    (noFront : ¬(letter.isDigit = true ∨ letter = '.')) :
    String.ofList ((first :: rest).map Char.toLower) ≠ word := by
  intro equal
  have letters := congrArg String.toList equal
  rw [String.toList_ofList, shape, List.map_cons, toLower_of_front front] at letters
  rw [(List.cons.inj letters).1] at front
  exact noFront front

/-- A decimal number with an optional sign is not read as a word. -/
theorem ofText?_of_decimal {text : List Char} {decimal : Decimal}
    (read : Decimal.ofText? text = some decimal) : ofText? text = some decimal.toDouble := by
  unfold Decimal.ofText? at read
  obtain ⟨first, rest, shape, front⟩ := exists_front read
  have inf : String.ofList ((first :: rest).map Char.toLower) ≠ "inf" :=
    ofList_toLower_ne front rest ['n', 'f'] rfl (by decide)
  have infinity : String.ofList ((first :: rest).map Char.toLower) ≠ "infinity" :=
    ofList_toLower_ne front rest ['n', 'f', 'i', 'n', 'i', 't', 'y'] rfl (by decide)
  have nan : String.ofList ((first :: rest).map Char.toLower) ≠ "nan" :=
    ofList_toLower_ne front rest ['a', 'n'] rfl (by decide)
  rw [shape] at read
  simp only [ofText?, shape, inf, infinity, nan, or_self, ↓reduceIte, read, Option.map_some]

/-- A sign and a numeral are read as the number that the numeral stands for. -/
theorem ofText?_numeral {numeral : Numeral} (sound : numeral.Sound) (negative : Bool) :
    ofText? (signText negative ++ numeral.text) =
      some (numeral.decimal negative).toDouble := by
  obtain ⟨first, rest, shape, digit⟩ := sound.exists_digit
  apply ofText?_of_decimal
  rw [Decimal.ofText?, shape, cutSign_signText negative digit, ← shape]
  exact sound.ofUnsigned?_text negative

/-- With either sign the same decimal number is rounded to the same magnitude. -/
theorem toDouble_of_sign {sign : Bool} {digits significand power : Nat} {exponent : Int}
    {other : Bool} (nearest : (⟨sign, digits, exponent⟩ : Decimal).toDouble =
      .finite other significand power) (negative : Bool) :
    (⟨negative, digits, exponent⟩ : Decimal).toDouble = .finite negative significand power := by
  unfold Decimal.toDouble at nearest ⊢
  dsimp only at nearest ⊢
  split at nearest
  · next small =>
      rw [if_pos small]
      cases nearest
      rfl
  · next notSmall =>
      rw [if_neg notSmall]
      split at nearest
      · cases nearest
      · next notLarge =>
          rw [if_neg notLarge]
          exact round_finite nearest negative

/-- A finite double is written as a numeral with a sign, and the numeral stands for it. -/
theorem exists_numeral (layout : Decimal.Layout) (negative : Bool) {significand power : Nat}
    (normal : Normal significand power) :
    ∃ numeral : Numeral, numeral.Sound ∧
      (finite negative significand power).write layout = signText negative ++ numeral.text ∧
      (numeral.decimal negative).toDouble = .finite negative significand power := by
  by_cases zero : significand = 0
  · have least : power = 0 := by
      obtain ⟨-, -, least | full⟩ := normal
      · exact least
      · rw [zero] at full
        exact absurd full (by decide)
    subst zero least
    refine ⟨⟨['0'], ['0'], none⟩, ⟨List.all_eq_true.1 rfl, List.all_eq_true.1 rfl, nofun, .inl rfl,
      .inl nofun⟩, rfl, ?_⟩
    cases negative <;> rfl
  · have found : ((Decimal.shortest? significand power).getD (.exact significand power)).toDouble =
        .finite false significand power := by
      cases short : Decimal.shortest? significand power with
      | none => exact Decimal.exact_toDouble normal zero
      | some decimal => exact Decimal.toDouble_of_shortest? short
    generalize chosen : (Decimal.shortest? significand power).getD (.exact significand power) =
      decimal at found
    obtain ⟨sign, digits, exponent⟩ := decimal
    have nonzero : digits ≠ 0 := by
      intro none
      rw [none, Decimal.toDouble, if_pos (.inl rfl)] at found
      exact zero (finite.inj found).2.1.symm
    obtain ⟨numeral, sound, text, same⟩ := Decimal.spells_write layout nonzero exponent
    refine ⟨numeral, sound, ?_, ?_⟩
    · rw [write, if_neg zero, chosen, text]
      rfl
    · rw [same negative]
      exact toDouble_of_sign found negative

/-- Every finite double is read back from its text, in every layout. -/
theorem ofText?_write (layout : Decimal.Layout) {number : Double} (normal : number.IsNormal) :
    ofText? (number.write layout) = some number := by
  cases number with
  | finite negative significand power =>
      obtain ⟨numeral, sound, text, same⟩ := exists_numeral layout negative normal
      rw [text, ofText?_numeral sound, same]
  | infinite negative => exact normal.elim
  | nan => exact normal.elim

end Double
end ClassDiagram
