import ClassDiagram.Text.Blank

set_option autoImplicit false

namespace ClassDiagram.Text

section Runs

variable {p : Char → Bool} {run rest : List Char}

/-- A run of characters is taken whole if another character follows. -/
theorem takeWhile_run (all : ∀ c ∈ run, p c = true) (stop : ∀ c ∈ rest.head?, p c = false) :
    (run ++ rest).takeWhile p = run := by
  rw [List.takeWhile_append_of_pos all]
  cases rest with
  | nil => simp
  | cons c r => simp [stop c rfl]

theorem dropWhile_run (all : ∀ c ∈ run, p c = true) (stop : ∀ c ∈ rest.head?, p c = false) :
    (run ++ rest).dropWhile p = rest := by
  rw [List.dropWhile_append_of_pos all]
  cases rest with
  | nil => rfl
  | cons c r => simp [stop c rfl]

end Runs

/-- No white character stands at either end of `s`. -/
structure IsTrimmed (s : List Char) : Prop where
  head : ∀ c ∈ s.head?, isWhite c = false
  last : ∀ c ∈ s.getLast?, isWhite c = false

theorem isTrimmed_iff (s : List Char) :
    IsTrimmed s ↔ (s.head?.any isWhite || s.getLast?.any isWhite) = false := by
  have dark (edge : Option Char) : edge.any isWhite = false ↔ ∀ c ∈ edge, isWhite c = false := by
    cases edge <;> simp
  rw [Bool.or_eq_false_iff, dark, dark]
  exact ⟨fun trimmed => ⟨trimmed.head, trimmed.last⟩, fun ends => ⟨ends.1, ends.2⟩⟩

instance (s : List Char) : Decidable (IsTrimmed s) := decidable_of_iff _ (isTrimmed_iff s).symm

theorem trimStart_eq_self {s : List Char} (head : ∀ c ∈ s.head?, isWhite c = false) :
    trimStart s = s := by
  cases s with
  | nil => rfl
  | cons c r =>
      have dark : isWhite c = false := head c rfl
      simp only [trimStart, List.dropWhile_cons, dark, Bool.false_eq_true, ↓reduceIte]

theorem trimStart_blank_append {w : List Char} (blank : isBlank w = true) (s : List Char) :
    trimStart (w ++ s) = trimStart s := by
  have white : ∀ c ∈ w, isWhite c = true := List.all_eq_true.1 blank
  exact List.dropWhile_append_of_pos white

theorem trimEnd_eq_self {s : List Char} (last : ∀ c ∈ s.getLast?, isWhite c = false) :
    trimEnd s = s := by
  induction s with
  | nil => rfl
  | cons c r ih =>
      cases r with
      | nil =>
          have dark : isWhite c = false := last c rfl
          simp [trimEnd, dark]
      | cons d r =>
          have kept : trimEnd (d :: r) = d :: r := by
            apply ih
            intro e he
            apply last
            simpa only [List.getLast?_cons_cons] using he
          rw [trimEnd, kept]
          simp

theorem trimEnd_append_blank (s : List Char) {w : List Char} (blank : isBlank w = true) :
    trimEnd (s ++ w) = trimEnd s := by
  induction s with
  | nil => simpa only [List.nil_append, trimEnd_nil] using (trimEnd_eq_nil_iff w).2 blank
  | cons c r ih => simp only [List.cons_append, trimEnd, ih]

theorem trim_append_blank (s : List Char) {w : List Char} (blank : isBlank w = true) :
    trim (s ++ w) = trim s := by
  induction s with
  | nil => rw [List.nil_append, (trim_eq_nil_iff w).2 blank, (trim_eq_nil_iff []).2 rfl]
  | cons c r ih =>
      cases white : isWhite c with
      | true =>
          rw [List.cons_append, trim, trim, trimStart, trimStart, List.dropWhile_cons_of_pos white,
            List.dropWhile_cons_of_pos white]
          exact ih
      | false =>
          have started : ∀ t, trimStart (c :: t) = c :: t := fun t =>
            trimStart_eq_self fun d first => Option.some.inj first ▸ white
          rw [List.cons_append, trim, trim, started, started, ← List.cons_append,
            trimEnd_append_blank _ blank]

theorem takeWhile_append_blank (p : Char → Bool) (s : List Char) {w : List Char}
    (blank : isBlank w = true) :
    ∃ more, isBlank more = true ∧ (s ++ w).takeWhile p = s.takeWhile p ++ more := by
  induction s with
  | nil =>
      refine ⟨w.takeWhile p, List.all_eq_true.2 fun c mem => ?_, rfl⟩
      exact List.all_eq_true.1 blank c ((List.takeWhile_sublist p).subset mem)
  | cons c r ih =>
      cases inside : p c with
      | true =>
          obtain ⟨more, white, same⟩ := ih
          exact ⟨more, white, by simp [inside, same]⟩
      | false => exact ⟨[], rfl, by simp [inside]⟩

theorem trim_takeWhile_append_blank (p : Char → Bool) (s : List Char) {w : List Char}
    (blank : isBlank w = true) :
    trim ((s ++ w).takeWhile p) = trim (s.takeWhile p) := by
  obtain ⟨more, white, same⟩ := takeWhile_append_blank p s blank
  rw [same, trim_append_blank _ white]

theorem trimEnd_last (s : List Char) : ∀ c ∈ (trimEnd s).getLast?, isWhite c = false := by
  induction s with
  | nil =>
      intro c last
      cases last
  | cons d r ih =>
      rw [trimEnd]
      split
      · intro c last
        cases last
      · next kept =>
          cases inner : trimEnd r with
          | nil =>
              rintro c ⟨⟩
              simpa [inner] using kept
          | cons e t =>
              rw [inner] at ih
              simpa only [List.getLast?_cons_cons] using ih

/-- `t` is what is left of `s` when the white characters at its ends are taken off. -/
structure Trims (s t : List Char) : Prop where
  trimmed : IsTrimmed t
  blanks : ∃ before after, isBlank before = true ∧ isBlank after = true ∧
    s = before ++ (t ++ after)

theorem trims_trim (s : List Char) : Trims s (trim s) := by
  obtain ⟨after, blankAfter, behind⟩ := trimEnd_append (trimStart s)
  have whole : s = s.takeWhile isWhite ++ (trim s ++ after) := by
    rw [trim, behind, trimStart, List.takeWhile_append_dropWhile]
  have blankBefore : isBlank (s.takeWhile isWhite) = true := List.all_takeWhile
  refine ⟨⟨fun c first => ?_, trimEnd_last (trimStart s)⟩, _, after, blankBefore, blankAfter, whole⟩
  -- what is taken off at the end does not change the first character
  have started := List.head?_dropWhile_not isWhite s
  rw [show s.dropWhile isWhite = trim s ++ after from behind.symm, List.head?_append, first] at started
  simpa using started

theorem mem_of_mem_trim {s : List Char} {c : Char} (mem : c ∈ trim s) : c ∈ s := by
  obtain ⟨before, after, -, -, whole⟩ := (trims_trim s).blanks
  rw [whole]
  exact List.mem_append_right _ (List.mem_append_left _ mem)

/-- Blanks on both sides of a trimmed text are taken off, and no more than these. -/
theorem IsTrimmed.trim_append {s : List Char} (trimmed : IsTrimmed s) (before after : List Char)
    (blankBefore : isBlank before = true) (blankAfter : isBlank after = true) :
    trim (before ++ (s ++ after)) = s := by
  rw [trim, trimStart_blank_append blankBefore]
  cases s with
  | nil =>
      rw [trimEnd_eq_nil_iff, List.nil_append, isBlank, List.all_eq_true]
      intro c hc
      have inside := (List.dropWhile_suffix (p := isWhite) (l := after)).subset hc
      exact List.all_eq_true.1 blankAfter c inside
  | cons c r =>
      have started : trimStart (c :: r ++ after) = c :: r ++ after :=
        trimStart_eq_self fun d hd => trimmed.head d hd
      rw [started, trimEnd_append_blank _ blankAfter, trimEnd_eq_self trimmed.last]

end ClassDiagram.Text
