import ClassDiagram.Number.Decimal
import ClassDiagram.Text.Blank
import ClassDiagram.Text.Pieces
import ClassDiagram.Toml.Value
set_option autoImplicit false

/-!
A number is told by its form, and the form is all that a document must keep to: digits of another
base, or too many of them, make a number without a value, and that is a mistake only where the value
is looked at.
-/
namespace ClassDiagram.Toml

open Text (isSpace)

def isHexDigit (c : Char) : Bool :=
  c.isDigit || ('a' ≤ c && c ≤ 'f') || ('A' ≤ c && c ≤ 'F')

def digitValue (c : Char) : Nat :=
  if c.isDigit then c.toNat - '0'.toNat else c.toLower.toNat - 'a'.toNat + 10

/-- Whether underscores stand only between digits. -/
def underscoresFit (isDigit : Char → Bool) (row : List Char) : Bool :=
  let pieces := Text.pieces '_' row
  pieces.dropLast.all (fun piece => piece.getLast?.any isDigit) &&
    pieces.tail.all (fun piece => piece.head?.any isDigit)

/-- The number that a row stands for in a base, unless it has no digits or something else among
them. Underscores do not count. -/
def number? (isDigit : Char → Bool) (base : Nat) (row : List Char) : Option Nat :=
  match row.filter fun c => c != '_' with
  | [] => none
  | digits =>
      if digits.all isDigit then some (digits.foldl (fun n c => base * n + digitValue c) 0)
      else none

/-- Whole numbers have at most 128 bits. -/
def integerInRange (n : Int) : Bool := -(Nat.pow 2 127 : Int) ≤ n && n < (Nat.pow 2 128 : Int)

/-- The base that the letter behind a zero stands for, and its digits. -/
def baseOf? : Char → Option (Nat × (Char → Bool))
  | 'x' => some (16, isHexDigit)
  | 'o' => some (8, fun c => '0' ≤ c && c ≤ '7')
  | 'b' => some (2, fun c => c == '0' || c == '1')
  | _ => none

/-- A whole number in another base, without the zero and the letter in front; the row of digits may
be empty. -/
def basedInteger? (base : Nat) (isDigit : Char → Bool) (row : List Char) : Option Value :=
  if row.all (fun c => isDigit c || c == '_') && underscoresFit isDigit row then
    some (.integer (((number? isDigit base row).map Int.ofNat).filter integerInRange))
  else none

/-- A whole number in decimal, without its sign. Behind the digit that follows an underscore anything
may stand, even a tab and another word, but only digits have a value. -/
def decimalInteger? (negative : Bool) (row : List Char) : Option Value :=
  if row.isEmpty || (row.head? == some '0' && 1 < row.length) || !underscoresFit isHexDigit row then
    none
  else
    let value : Option Int :=
      (number? Char.isDigit 10 row).map fun n => if negative then -(n : Int) else n
    some (.integer (value.filter integerInRange))

/-- The digits at the start of `s`, underscores left out, and what follows; at least one digit. -/
def cutDigits? (s : List Char) : Option (List Char × List Char) :=
  let isPart (c : Char) : Bool := c.isDigit || c == '_'
  match (s.takeWhile isPart).filter Char.isDigit with
  | [] => none
  | digits => some (digits, s.dropWhile isPart)

/-- The digits after the point, if a point stands at the start of `s`, and what follows. -/
def cutFraction? : List Char → Option (List Char × List Char)
  | '.' :: r => cutDigits? r
  | r => some ([], r)

def powerOfTen? : List Char → Option Int
  | [] => some 0
  | c :: r =>
      if c = 'e' ∨ c = 'E' then
        let (below, r) := Decimal.cutSign r
        match cutDigits? r with
        | some (digits, []) =>
            let size : Int := Decimal.ofDigits digits
            some (if below then -size else size)
        | _ => none
      else none

/-- A number with a point or a power of ten, without its sign. It has a value unless it is out of
range. -/
def float? (negative : Bool) (row : List Char) : Option Value :=
  match cutDigits? row with
  | none => none
  | some (whole, rest) =>
      if (row.head? == some '0' && 1 < whole.length) || !underscoresFit Char.isDigit row then none
      else
        match cutFraction? rest with
        | none => none
        | some (fraction, rest) =>
            (powerOfTen? rest).map fun power =>
              let decimal : Decimal :=
                ⟨negative, Decimal.ofDigits (whole ++ fraction), power - fraction.length⟩
              .float ((some decimal.toDouble).filter Double.isFinite)

def twoDigits? : List Char → Option Nat
  | [a, b] => if a.isDigit && b.isDigit then some (Decimal.ofDigits [a, b]) else none
  | _ => none

def daysIn (year month : Nat) : Nat :=
  if month = 2 then
    if year % 4 = 0 ∧ (year % 100 ≠ 0 ∨ year % 400 = 0) then 29 else 28
  else if month = 4 ∨ month = 6 ∨ month = 9 ∨ month = 11 then 30
  else 31

def isDate (s : List Char) : Bool :=
  match s with
  | [a, b, c, d, '-', e, f, '-', g, h] =>
      [a, b, c, d].all Char.isDigit &&
        match twoDigits? [e, f], twoDigits? [g, h] with
        | some month, some day =>
            1 ≤ month && month ≤ 12 && 1 ≤ day && day ≤ daysIn (Decimal.ofDigits [a, b, c, d]) month
        | _, _ => false
  | _ => false

/-- Whether `s` is empty or a point and at least one digit. -/
def isFractionOfSecond : List Char → Bool
  | [] => true
  | '.' :: digits => !digits.isEmpty && digits.all Char.isDigit
  | _ => false

/-- Whether `s` is a time of day; the seconds may be left out. -/
def isTime (s : List Char) : Bool :=
  match s with
  | a :: b :: ':' :: c :: d :: rest =>
      match twoDigits? [a, b], twoDigits? [c, d] with
      | some hour, some minute =>
          hour ≤ 23 && minute ≤ 59 &&
            match rest with
            | [] => true
            | ':' :: e :: f :: fraction =>
                (match twoDigits? [e, f] with
                  | some second => second ≤ 60
                  | none => false) && isFractionOfSecond fraction
            | _ => false
      | _, _ => false
  | _ => false

/-- Whether `s` is a distance in hours and minutes. -/
def isShift : List Char → Bool
  | [a, b, ':', c, d] =>
      match twoDigits? [a, b], twoDigits? [c, d] with
      | some hour, some minute => hour ≤ 23 && minute ≤ 59
      | _, _ => false
  | _ => false

/-- Whether `s` is a time of day with, possibly, its distance from universal time. -/
def isZonedTime (s : List Char) : Bool :=
  let isMark (c : Char) : Bool := c == 'Z' || c == 'z' || c == '+' || c == '-'
  match s.dropWhile fun c => !isMark c with
  | [] => isTime s
  | mark :: zone =>
      isTime (s.takeWhile fun c => !isMark c) &&
        (if mark = 'Z' ∨ mark = 'z' then zone.isEmpty else isShift zone)

/-- A date, a time of day, or both with a `T` or a space between them. -/
def moment? (s : List Char) : Option Value :=
  let date := s.take 10
  let isMoment :=
    match s.drop 10 with
    | [] => isDate date || isTime s
    | 'T' :: time | 't' :: time | ' ' :: time => isDate date && isZonedTime time
    | _ => isTime s
  if isMoment then some (.moment (String.ofList s)) else none

/-- A number, a date or a time. What follows the first digits tells them apart. -/
def numberOrMoment? (s : List Char) : Option Value :=
  let (negative, row) := Decimal.cutSign s
  match row with
  | ['i', 'n', 'f'] => some (.float (some (.infinite negative)))
  | ['n', 'a', 'n'] => some (.float (some .nan))
  | row =>
      match row.dropWhile Char.isDigit with
      | [] => decimalInteger? negative row
      | mark :: rest =>
          match baseOf? mark with
          | some (base, isDigit) =>
              if s.take 2 = ['0', mark] then basedInteger? base isDigit rest else none
          | none =>
              if mark = '-' ∨ mark = ':' then moment? s
              else if (mark :: rest).any fun c => c == '.' || c == 'e' || c == 'E' then
                float? negative row
              else if mark = '_' && !rest.contains ' ' then decimalInteger? negative row
              else none

def scalar? (s : List Char) : Option Value :=
  if s = ['t', 'r', 'u', 'e'] then some (.bool true)
  else if s = ['f', 'a', 'l', 's', 'e'] then some (.bool false)
  else numberOrMoment? s

def isScalarChar (c : Char) : Bool :=
  !(c == '=' || c == ',' || c == '[' || c == ']' || c == '{' || c == '}' || c == '#' || c == ' ' ||
    c == '\t' || c == '\r' || c == '\n')

/-- A value without quotation marks or brackets at the start of `s`, and what follows it. One more
word behind blanks belongs to it, as the time of day belongs to a date. -/
def cutScalar (s : List Char) : List Char × List Char :=
  let word := s.takeWhile isScalarChar
  let rest := s.dropWhile isScalarChar
  let next := rest.dropWhile isSpace
  if next.head?.any fun c => isScalarChar c && c != '"' && c != '\'' then
    (word ++ rest.takeWhile isSpace ++ next.takeWhile isScalarChar, next.dropWhile isScalarChar)
  else (word, rest)

end ClassDiagram.Toml
