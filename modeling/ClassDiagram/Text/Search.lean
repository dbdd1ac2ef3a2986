set_option autoImplicit false

namespace ClassDiagram.Text

/-- What follows `word` at the start of `s`, if `s` starts with it. -/
def after? : List Char → List Char → Option (List Char)
  | [], s => some s
  | _ :: _, [] => none
  | w :: word, c :: s => if w = c then after? word s else none

def occurs (word : List Char) : List Char → Bool
  | [] => (after? word []).isSome
  | c :: r => (after? word (c :: r)).isSome || occurs word r

/-- What follows the last occurrence of `word` in `s`. -/
def afterLast? (word : List Char) : List Char → Option (List Char)
  | [] => after? word []
  | c :: r => (afterLast? word r).or (after? word (c :: r))

theorem after?_eq_some_iff {word s rest : List Char} :
    after? word s = some rest ↔ s = word ++ rest := by
  induction word generalizing s with
  | nil => simp [after?, eq_comm]
  | cons w word ih =>
      cases s with
      | nil => simp [after?]
      | cons c s => by_cases h : w = c <;> simp_all [after?, eq_comm]

/-- A word occurs exactly when the text can be written with it in the middle. -/
theorem occurs_iff {word s : List Char} :
    occurs word s = true ↔ ∃ before rest, s = before ++ word ++ rest := by
  induction s with
  | nil =>
      rw [occurs, Option.isSome_iff_exists]
      constructor
      · rintro ⟨rest, h⟩
        exact ⟨[], rest, by simpa using after?_eq_some_iff.1 h⟩
      · rintro ⟨before, rest, h⟩
        refine ⟨rest, after?_eq_some_iff.2 ?_⟩
        simp_all
  | cons c r ih =>
      rw [occurs, Bool.or_eq_true, ih, Option.isSome_iff_exists]
      constructor
      · rintro (⟨rest, h⟩ | ⟨before, rest, h⟩)
        · exact ⟨[], rest, by simpa using after?_eq_some_iff.1 h⟩
        · exact ⟨c :: before, rest, by simp [h]⟩
      · rintro ⟨before, rest, h⟩
        cases before with
        | nil => exact .inl ⟨rest, after?_eq_some_iff.2 (by simpa using h)⟩
        | cons b before =>
            simp only [List.cons_append, List.cons.injEq] at h
            exact .inr ⟨before, rest, h.2⟩

/-- A text has a last occurrence of a word exactly when the word occurs. -/
theorem afterLast?_isSome (word s : List Char) : (afterLast? word s).isSome = occurs word s := by
  induction s with
  | nil => rfl
  | cons c r ih => simp [afterLast?, occurs, ← ih, Bool.or_comm]

end ClassDiagram.Text
