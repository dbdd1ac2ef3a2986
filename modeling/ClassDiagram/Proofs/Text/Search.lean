import ClassDiagram.Text.Search

set_option autoImplicit false

namespace ClassDiagram.Text

theorem occurs_iff_isInfix {word s : List Char} : occurs word s = true ↔ word <:+: s := by
  rw [occurs_iff]
  constructor
  · rintro ⟨before, rest, rfl⟩
    exact ⟨before, rest, rfl⟩
  · rintro ⟨before, rest, rfl⟩
    exact ⟨before, rest, rfl⟩

variable {word : List Char} {mark : Char}

theorem after?_append_mark (clean : mark ∉ word) (s t : List Char) :
    after? word (s ++ mark :: t) = (after? word s).map fun rest => rest ++ mark :: t := by
  induction word generalizing s with
  | nil => rfl
  | cons w word ih =>
      rw [List.mem_cons, not_or] at clean
      cases s with
      | nil => simp [after?, Ne.symm clean.1]
      | cons c s =>
          rw [List.cons_append, after?, after?]
          split
          · exact ih clean.2 s
          · rfl

theorem afterLast?_append_mark (clean : mark ∉ word) (s t : List Char) :
    afterLast? word (s ++ mark :: t) =
      (afterLast? word t).or ((afterLast? word s).map fun rest => rest ++ mark :: t) := by
  induction s with
  | nil =>
      rw [List.nil_append, afterLast?, afterLast?]
      exact congrArg (afterLast? word t).or (after?_append_mark clean [] t)
  | cons c r ih =>
      have here := after?_append_mark clean (c :: r) t
      rw [List.cons_append] at here ⊢
      rw [afterLast?, ih, here, afterLast?, Option.or_assoc, Option.map_or]

theorem occurs_append_mark (clean : mark ∉ word) (s t : List Char) :
    occurs word (s ++ mark :: t) = (occurs word s || occurs word t) := by
  rw [← afterLast?_isSome, ← afterLast?_isSome, ← afterLast?_isSome,
    afterLast?_append_mark clean, Option.isSome_or, Option.isSome_map, Bool.or_comm]

/-- A run that ends at the mark does not see what is behind it. -/
theorem takeWhile_append_mark {p : Char → Bool} (stop : p mark = false) (s t : List Char) :
    (s ++ mark :: t).takeWhile p = s.takeWhile p := by
  induction s with
  | nil => rw [List.nil_append, List.takeWhile_cons, stop, if_neg Bool.false_ne_true,
      List.takeWhile_nil]
  | cons c r ih => rw [List.cons_append, List.takeWhile_cons, List.takeWhile_cons, ih]

/-- A word that stands behind `before` in two texts put together at a mark stands in one of the
texts. -/
def OnOneSide (s t : List Char) (mark : Char) (before word rest : List Char) : Prop :=
  (∃ tail, s = before ++ word ++ tail ∧ rest = tail ++ mark :: t) ∨
    ∃ front, before = s ++ mark :: front ∧ t = front ++ word ++ rest

theorem onOneSide_of_append_mark (clean : mark ∉ word) {s t before rest : List Char}
    (cut : s ++ mark :: t = before ++ word ++ rest) : OnOneSide s t mark before word rest := by
  rcases List.append_eq_append_iff.1 cut.symm with ⟨tail, first, behind⟩ | ⟨excess, front, second⟩
  · exact .inl ⟨tail, first, behind⟩
  · cases excess with
    | nil =>
        rw [List.append_nil] at front
        exact .inl ⟨[], by rw [List.append_nil, front], second.symm⟩
    | cons c excess =>
        -- the word ends behind the mark, so it has to begin behind it as well
        obtain ⟨rfl, rfl⟩ := List.cons.inj second
        rcases List.append_eq_append_iff.1 front with ⟨head, -, split⟩ | ⟨head, back, split⟩
        · rw [split] at clean
          exact absurd (List.mem_append_right head List.mem_cons_self) clean
        · cases head with
          | nil =>
              rw [List.nil_append] at split
              rw [← split] at clean
              exact absurd List.mem_cons_self clean
          | cons c head =>
              obtain ⟨rfl, rfl⟩ := List.cons.inj split
              exact .inr ⟨head, back, rfl⟩

end ClassDiagram.Text
