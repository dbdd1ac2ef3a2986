import ClassDiagram.Text.Pieces

set_option autoImplicit false

namespace ClassDiagram.Text

theorem pieces_of_not_mem {mark : Char} {s : List Char} (clean : mark ∉ s) :
    pieces mark s = [s] :=
  pieces_join (List.cons_ne_nil s []) (by simpa using clean)

theorem pieces_append_mark {mark : Char} {first : List Char} (clean : mark ∉ first)
    (rest : List Char) : pieces mark (first ++ mark :: rest) = first :: pieces mark rest := by
  induction first with
  | nil => exact pieces_mark mark rest
  | cons c first ih =>
      simp only [List.mem_cons, not_or] at clean
      obtain ⟨a, b, hr, hc⟩ := pieces_cons_of_ne (Ne.symm clean.1) (first ++ mark :: rest)
      rw [List.cons_append, hc]
      rw [ih clean.2] at hr
      obtain ⟨rfl, rfl⟩ := List.cons.inj hr
      rfl

/-- The first piece reaches up to the first mark. -/
theorem pieces_eq_takeWhile_cons (mark : Char) (s : List Char) :
    ∃ more, pieces mark s = s.takeWhile (fun c => c != mark) :: more := by
  induction s with
  | nil => exact ⟨[], rfl⟩
  | cons c r ih =>
      by_cases hc : c = mark
      · subst hc
        exact ⟨pieces c r, by simp⟩
      · obtain ⟨a, b, hr, hp⟩ := pieces_cons_of_ne hc r
        obtain ⟨more, ih⟩ := ih
        rw [hr] at ih
        obtain ⟨rfl, rfl⟩ := List.cons.inj ih
        exact ⟨b, by simp [hp, hc]⟩

theorem mem_of_mem_first_piece {mark c : Char} {s first : List Char} {more : List (List Char)}
    (cut : pieces mark s = first :: more) (mem : c ∈ first) : c ∈ s := by
  obtain ⟨_, shape⟩ := pieces_eq_takeWhile_cons mark s
  rw [cut] at shape
  rw [(List.cons.inj shape).1] at mem
  exact (List.takeWhile_sublist _).subset mem

theorem join_append (mark : Char) {front back : List (List Char)} (nonempty : front ≠ [])
    (more : back ≠ []) :
    join mark (front ++ back) = join mark front ++ mark :: join mark back := by
  induction front with
  | nil => exact absurd rfl nonempty
  | cons piece rest ih =>
      cases rest with
      | nil => exact join_cons_of_ne_nil mark piece more
      | cons next rest =>
          rw [List.cons_append, join_cons_of_ne_nil mark piece (by simp), ih (by simp),
            join_cons_of_ne_nil mark piece (by simp)]
          simp

theorem join_eq_intercalate (mark : Char) (parts : List (List Char)) :
    join mark parts = [mark].intercalate parts := by
  induction parts with
  | nil => rfl
  | cons piece rest ih =>
      cases rest with
      | nil => rw [List.intercalate_singleton, join]
      | cons next rest =>
          rw [join_cons_of_ne_nil mark piece (by simp), ih, List.intercalate_cons_cons,
            List.append_assoc, List.singleton_append]

/-- The marks in front of a character count the pieces in front of its own. -/
theorem pieces_getElem?_count {mark c : Char} (other : c ≠ mark) (before after : List Char) :
    ∃ piece, (pieces mark (before ++ c :: after))[before.count mark]? = some piece ∧ c ∈ piece := by
  induction before with
  | nil =>
      obtain ⟨first, rest, -, shape⟩ := pieces_cons_of_ne other after
      exact ⟨c :: first, by simp [shape], List.mem_cons_self⟩
  | cons b before ih =>
      obtain ⟨piece, found, mem⟩ := ih
      by_cases hb : b = mark
      · subst hb
        exact ⟨piece, by simpa using found, mem⟩
      · obtain ⟨first, rest, inner, shape⟩ := pieces_cons_of_ne hb (before ++ c :: after)
        rw [inner] at found
        rw [List.cons_append, shape, List.count_cons_of_ne hb]
        cases index : before.count mark with
        | zero =>
            rw [index, List.getElem?_cons_zero] at found
            cases found
            exact ⟨_, rfl, List.mem_cons_of_mem b mem⟩
        | succ n =>
            rw [index] at found
            exact ⟨piece, found, mem⟩

/-- The pieces in front of a place, each with the mark behind it. -/
def closedBy (mark : Char) (front : List (List Char)) : List Char :=
  front.flatMap fun piece => piece ++ [mark]

theorem join_eq_closedBy_append (mark : Char) (front : List (List Char)) {back : List (List Char)}
    (more : back ≠ []) : join mark (front ++ back) = closedBy mark front ++ join mark back := by
  induction front with
  | nil => rfl
  | cons piece rest ih =>
      rw [List.cons_append, join_cons_of_ne_nil mark piece (by simp [more]), ih]
      simp [closedBy]

theorem closedBy_count {mark : Char} {front : List (List Char)}
    (clean : ∀ piece ∈ front, mark ∉ piece) : (closedBy mark front).count mark = front.length := by
  induction front with
  | nil => rfl
  | cons piece rest ih =>
      have inner := ih fun other mem => clean other (List.mem_cons_of_mem _ mem)
      have none := List.count_eq_zero_of_not_mem (clean piece List.mem_cons_self)
      rw [closedBy, List.flatMap_cons, List.count_append, ← closedBy, inner, List.count_append,
        none, List.count_singleton_self, List.length_cons]
      omega

theorem pieces_closedBy_append {mark : Char} {front : List (List Char)}
    (clean : ∀ piece ∈ front, mark ∉ piece) (s : List Char) :
    pieces mark (closedBy mark front ++ s) = front ++ pieces mark s := by
  induction front with
  | nil => rfl
  | cons piece rest ih =>
      have inner := ih fun other mem => clean other (List.mem_cons_of_mem _ mem)
      have shape : closedBy mark (piece :: rest) ++ s =
          piece ++ mark :: (closedBy mark rest ++ s) := by
        simp [closedBy]
      rw [shape, pieces_append_mark (clean piece List.mem_cons_self), inner, List.cons_append]

theorem closedBy_replicate_nil (mark : Char) (n : Nat) :
    closedBy mark (List.replicate n []) = List.replicate n mark := by
  induction n with
  | zero => rfl
  | succ n ih =>
      rw [List.replicate_succ, List.replicate_succ, closedBy, List.flatMap_cons, ← closedBy, ih]
      rfl

end ClassDiagram.Text
