import ClassDiagram.Text.Blank
set_option autoImplicit false

namespace ClassDiagram.Text

/-- A character that a backslash turns into text. -/
def isDelimiter (c : Char) : Bool := c == '[' || c == ']' || c == '|'

/-- A semicolon or a line feed: what stands between two slots. -/
def isSeparator (c : Char) : Bool := c == ';' || c == '\n'

/-- A character at which a run of text ends. -/
def endsRun (c : Char) : Bool := isDelimiter c || isSeparator c

/-- The longest run of text at the start of `s`, with its backslashes, and what follows it. -/
def cutRun : List Char → List Char × List Char
  | [] => ([], [])
  | [c] => if endsRun c then ([], [c]) else ([c], [])
  | c :: d :: r =>
      if c = '\\' ∧ isDelimiter d = true then
        let (run, rest) := cutRun r
        (c :: d :: run, rest)
      else if endsRun c then ([], c :: d :: r)
      else
        let (run, rest) := cutRun (d :: r)
        (c :: run, rest)

def run (s : List Char) : List Char := (cutRun s).1

def afterRun (s : List Char) : List Char := (cutRun s).2

/-- Replaces every `\` followed by `mark` by `mark` alone. -/
def dropEscape (mark : Char) : List Char → List Char
  | [] => []
  | [c] => [c]
  | c :: d :: r =>
      if c = '\\' ∧ d = mark then d :: dropEscape mark r else c :: dropEscape mark (d :: r)

/-- Takes the backslashes off escaped brackets and bars, one kind of mark after the other. -/
def unescape (s : List Char) : List Char :=
  dropEscape '|' (dropEscape ']' (dropEscape '[' s))

/-- A run and what follows it make up the text. -/
theorem run_append_afterRun (s : List Char) : run s ++ afterRun s = s := by
  simp only [run, afterRun]
  fun_induction cutRun s <;> simp_all

theorem afterRun_suffix (s : List Char) : afterRun s <:+ s :=
  ⟨run s, run_append_afterRun s⟩

theorem afterRun_length_le (s : List Char) : (afterRun s).length ≤ s.length :=
  (afterRun_suffix s).length_le

/-- What follows a run is empty or starts with a character that ends runs. -/
theorem endsRun_of_afterRun {s r : List Char} {c : Char} (h : afterRun s = c :: r) :
    endsRun c = true := by
  simp only [afterRun] at h
  fun_induction cutRun s <;> simp_all

/-- Only a character that ends runs keeps a run from moving on. -/
theorem afterRun_length_lt {c : Char} {r : List Char} (h : endsRun c = false) :
    (afterRun (c :: r)).length < (c :: r).length := by
  cases r with
  | nil => simp [afterRun, cutRun, h]
  | cons d r =>
      by_cases he : c = '\\' ∧ isDelimiter d = true
      · have := afterRun_length_le r
        simp only [afterRun, cutRun, if_pos he, List.length_cons] at *
        omega
      · have := afterRun_length_le (d :: r)
        simp only [afterRun, cutRun, if_neg he, h, Bool.false_eq_true, if_false,
          List.length_cons] at *
        omega

end ClassDiagram.Text
