import ClassDiagram.Number.Double
set_option autoImplicit false

namespace ClassDiagram

/-- The number `± digits * 10 ^ exponent`. -/
structure Decimal where
  negative : Bool
  digits : Nat
  exponent : Int
deriving DecidableEq, Repr

namespace Decimal

def ofDigits (row : List Char) : Nat :=
  row.foldl (fun n c => 10 * n + (c.toNat - '0'.toNat)) 0

/-- The sign at the start of `s`, if any, and what follows it. -/
def cutSign : List Char → Bool × List Char
  | '-' :: r => (true, r)
  | '+' :: r => (false, r)
  | r => (false, r)

/-- The digits after the point, if a point stands at the start of `s`, and what follows them. -/
def cutFraction : List Char → List Char × List Char
  | '.' :: r => (r.takeWhile Char.isDigit, r.dropWhile Char.isDigit)
  | r => ([], r)

/-- The power of ten that `s` as a whole gives: none if `s` is empty, else `e` or `E`, an optional
sign and at least one digit. -/
def exponent? : List Char → Option Int
  | [] => some 0
  | c :: r =>
      if c = 'e' ∨ c = 'E' then
        let (negative, row) := cutSign r
        if row.isEmpty || !row.all Char.isDigit then none
        else some (if negative then -(ofDigits row : Int) else ofDigits row)
      else none

/-- Reads digits with an optional point among them and an optional power of ten behind. -/
def ofUnsigned? (negative : Bool) (s : List Char) : Option Decimal :=
  let whole := s.takeWhile Char.isDigit
  let (fraction, rest) := cutFraction (s.dropWhile Char.isDigit)
  if whole.isEmpty && fraction.isEmpty then none
  else (exponent? rest).map fun exponent =>
    ⟨negative, ofDigits (whole ++ fraction), exponent - fraction.length⟩

def digitCount (n : Nat) : Nat := (Nat.toDigits 10 n).length

/-- Beyond this power of ten every number is too large for a finite double. -/
def tooLarge : Int := 310

/-- Below this power of ten every number is nearest to zero. -/
def tooSmall : Int := -330

/-- The double nearest to the decimal number; infinite if it is out of range. -/
def toDouble (decimal : Decimal) : Double :=
  let magnitude : Int := digitCount decimal.digits + decimal.exponent
  if decimal.digits = 0 ∨ magnitude < tooSmall then .zero decimal.negative
  else if tooLarge < magnitude then .infinite decimal.negative
  else
    .round decimal.negative
      (decimal.digits * Nat.pow 10 decimal.exponent.toNat * Double.unitsInOne)
      (Nat.pow 10 (-decimal.exponent).toNat)

/-- Far enough to make every positive double a whole number with at least one digit. -/
def shift : Nat := 400

/-- The power of ten of the first digit of `units / 2 ^ 1074`. -/
def leadingExponent (units : Nat) : Int :=
  (digitCount (units * Nat.pow 10 shift / Double.unitsInOne) : Int) - 1 - shift

/-- The multiples of `10 ^ exponent` next to `units / 2 ^ 1074`, the nearer one first; of two
equally near ones the even one. -/
def neighbours (units : Nat) (exponent : Int) : List Nat :=
  let numerator := units * Nat.pow 10 (-exponent).toNat
  let denominator := Double.unitsInOne * Nat.pow 10 exponent.toNat
  let below := numerator / denominator
  if Double.divideToEven numerator denominator = below then [below, below + 1]
  else [below + 1, below]

/-- The decimal with so many digits that reads back as the given double, if there is one. -/
def ofLength? (significand power count : Nat) : Option Decimal :=
  let units := significand * Nat.pow 2 power
  let exponent := leadingExponent units - (count : Int) + 1
  ((neighbours units exponent).map fun digits => ⟨false, digits, exponent⟩).find?
    fun decimal => decimal.toDouble = .finite false significand power

/-- So many digits tell all doubles apart. -/
def enoughDigits : Nat := 17

/-- The decimal with fewest digits that reads back as the given double. -/
def shortest? (significand power : Nat) : Option Decimal :=
  ((List.range enoughDigits).map (· + 1)).findSome? (ofLength? significand power)

/-- All the digits of `significand * 2 ^ power / 2 ^ 1074`. -/
def exact (significand power : Nat) : Decimal :=
  ⟨false, significand * Nat.pow 2 power * Nat.pow 5 1074, -1074⟩

theorem toDouble_of_ofLength? {significand power count : Nat} {decimal : Decimal}
    (h : ofLength? significand power count = some decimal) :
    decimal.toDouble = .finite false significand power := by
  simpa using List.find?_some h

/-- The shortest decimal reads back as the double it was chosen for. -/
theorem toDouble_of_shortest? {significand power : Nat} {decimal : Decimal}
    (h : shortest? significand power = some decimal) :
    decimal.toDouble = .finite false significand power := by
  obtain ⟨count, _, hc⟩ := List.exists_of_findSome?_eq_some h
  exact toDouble_of_ofLength? hc

/-- Which powers of ten of the first digit are written with a point in place. -/
structure Layout where
  lowest : Int
  highest : Int
deriving DecidableEq, Repr

/-- Takes off zeros at the end, counting them. -/
def stripZeros (row : List Char) : List Char × Nat :=
  let kept := (row.reverse.dropWhile fun c => c == '0').reverse
  (kept, row.length - kept.length)

/-- A row of digits, its first at `10 ^ exponent`, with the point in place and a digit on both
sides of it. -/
def positional (row : List Char) (exponent : Int) : List Char :=
  if exponent < 0 then
    '0' :: '.' :: List.replicate (-exponent - 1).toNat '0' ++ row
  else
    let whole := exponent.toNat + 1
    if row.length ≤ whole then row ++ List.replicate (whole - row.length) '0' ++ ['.', '0']
    else row.take whole ++ '.' :: row.drop whole

/-- A row of digits, its first at `10 ^ exponent`, with one digit before the point and the power
of ten behind. -/
def scientific (row : List Char) (exponent : Int) : List Char :=
  let fraction := if row.length ≤ 1 then [] else '.' :: row.drop 1
  let sign := if exponent < 0 then '-' else '+'
  row.take 1 ++ fraction ++ 'e' :: sign :: Nat.toDigits 10 exponent.natAbs

def write (layout : Layout) (digits : Nat) (exponent : Int) : List Char :=
  let all := Nat.toDigits 10 digits
  let leading := exponent + (all.length : Int) - 1
  let row := (stripZeros all).1
  if layout.lowest ≤ leading ∧ leading ≤ layout.highest then positional row leading
  else scientific row leading

end Decimal

namespace Double

/-- Reads a number: an optional sign, then a decimal number or, in any case of letters, `inf`,
`infinity` or `nan`. -/
def ofText? (s : List Char) : Option Double :=
  let (negative, rest) := Decimal.cutSign s
  let word := String.ofList (rest.map Char.toLower)
  if word = "inf" ∨ word = "infinity" then some (.infinite negative)
  else if word = "nan" then some .nan
  else (Decimal.ofUnsigned? negative rest).map Decimal.toDouble

/-- The shortest text that reads back as the number, in the given layout. -/
def write (layout : Decimal.Layout) : Double → List Char
  | .finite negative significand power =>
      let sign := if negative then ['-'] else []
      if significand = 0 then sign ++ ['0', '.', '0']
      else
        let decimal := (Decimal.shortest? significand power).getD (.exact significand power)
        sign ++ Decimal.write layout decimal.digits decimal.exponent
  | .infinite _ => "null".toList
  | .nan => "null".toList

end Double
end ClassDiagram
