set_option autoImplicit false

namespace ClassDiagram.Text

/-- The pieces of `s` between the occurrences of `mark`; always at least one. -/
def pieces (mark : Char) : List Char → List (List Char)
  | [] => [[]]
  | c :: r =>
      if c = mark then [] :: pieces mark r
      else
        match pieces mark r with
        | [] => [[c]]
        | first :: rest => (c :: first) :: rest

/-- The pieces one after the other with `mark` between neighbours. -/
def join (mark : Char) : List (List Char) → List Char
  | [] => []
  | [piece] => piece
  | piece :: next :: rest => piece ++ mark :: join mark (next :: rest)

@[simp] theorem pieces_mark (mark : Char) (r : List Char) :
    pieces mark (mark :: r) = [] :: pieces mark r := by
  simp [pieces]

theorem pieces_ne_nil (mark : Char) (s : List Char) : pieces mark s ≠ [] := by
  cases s with
  | nil => simp [pieces]
  | cons c r => simp only [pieces]; split <;> (try split) <;> simp

theorem pieces_cons_of_ne {mark c : Char} (h : c ≠ mark) (r : List Char) :
    ∃ first rest, pieces mark r = first :: rest ∧ pieces mark (c :: r) = (c :: first) :: rest := by
  cases hp : pieces mark r with
  | nil => exact absurd hp (pieces_ne_nil mark r)
  | cons first rest => exact ⟨first, rest, rfl, by simp [pieces, h, hp]⟩

theorem join_cons_of_ne_nil (mark : Char) (piece : List Char) {rest : List (List Char)}
    (h : rest ≠ []) : join mark (piece :: rest) = piece ++ mark :: join mark rest := by
  cases rest with
  | nil => exact absurd rfl h
  | cons next rest => rfl

theorem join_cons_cons (mark c : Char) (first : List Char) (rest : List (List Char)) :
    join mark ((c :: first) :: rest) = c :: join mark (first :: rest) := by
  cases rest <;> rfl

/-- Joining undoes cutting. -/
theorem join_pieces (mark : Char) (s : List Char) : join mark (pieces mark s) = s := by
  induction s with
  | nil => rfl
  | cons c r ih =>
      by_cases h : c = mark
      · subst h
        rw [pieces_mark, join_cons_of_ne_nil _ _ (pieces_ne_nil c r), ih]
        rfl
      · obtain ⟨first, rest, hr, hc⟩ := pieces_cons_of_ne h r
        rw [hc, join_cons_cons, ← hr, ih]

theorem not_mem_of_mem_pieces {mark : Char} {s piece : List Char} (h : piece ∈ pieces mark s) :
    mark ∉ piece := by
  induction s generalizing piece with
  | nil =>
      obtain rfl : piece = [] := List.mem_singleton.1 h
      exact List.not_mem_nil
  | cons c r ih =>
      by_cases hc : c = mark
      · subst hc
        rw [pieces_mark, List.mem_cons] at h
        rcases h with rfl | h
        · simp
        · exact ih h
      · obtain ⟨first, rest, hr, hp⟩ := pieces_cons_of_ne hc r
        rw [hr] at ih
        rw [hp, List.mem_cons] at h
        rcases h with rfl | h
        · simp only [List.mem_cons, not_or]
          exact ⟨fun e => hc e.symm, ih List.mem_cons_self⟩
        · exact ih (List.mem_cons_of_mem _ h)

/-- There is one more piece than there are marks. -/
theorem pieces_length (mark : Char) (s : List Char) :
    (pieces mark s).length = s.count mark + 1 := by
  induction s with
  | nil => rfl
  | cons c r ih =>
      by_cases hc : c = mark
      · subst hc
        simp [ih]
      · obtain ⟨first, rest, hr, hp⟩ := pieces_cons_of_ne hc r
        rw [hr] at ih
        rw [hp, List.count_cons_of_ne hc]
        simpa using ih

/-- Cutting undoes joining when no piece holds the mark. -/
theorem pieces_join {mark : Char} {parts : List (List Char)} (hne : parts ≠ [])
    (h : ∀ piece ∈ parts, mark ∉ piece) : pieces mark (join mark parts) = parts := by
  induction parts with
  | nil => exact absurd rfl hne
  | cons piece rest ih =>
      induction piece with
      | nil =>
          cases rest with
          | nil => rfl
          | cons next rest =>
              rw [join_cons_of_ne_nil _ _ (by simp), List.nil_append, pieces_mark,
                ih (by simp) fun p hp => h p (List.mem_cons_of_mem _ hp)]
      | cons c first ihc =>
          have hmem := h _ List.mem_cons_self
          simp only [List.mem_cons, not_or] at hmem
          have hrest : ∀ p ∈ first :: rest, mark ∉ p := by
            intro p hp
            rcases List.mem_cons.1 hp with rfl | hp
            · exact hmem.2
            · exact h p (List.mem_cons_of_mem _ hp)
          rw [join_cons_cons]
          obtain ⟨a, b, hr, hp⟩ :=
            pieces_cons_of_ne (fun e => hmem.1 e.symm) (join mark (first :: rest))
          rw [hp]
          rw [ihc (by simp) hrest] at hr
          simp_all

end ClassDiagram.Text
