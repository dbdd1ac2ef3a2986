import ClassDiagram.Proofs.Text.Escape

set_option autoImplicit false

namespace ClassDiagram.Text

/-- The marks of a text, each with what follows it; `slash` tells whether a backslash stands in
front of the text. -/
def marksBehind (slash : Bool) : List Char → List (Char × List Char)
  | [] => []
  | c :: r =>
      if isDelimiter c && !slash then (c, r) :: marksBehind false r else marksBehind (c == '\\') r

/-- The brackets and bars that are not escaped, each with what follows it. -/
def marks (s : List Char) : List (Char × List Char) := marksBehind false s

/-- The brackets and bars that are not escaped, one after the other. -/
def bare (s : List Char) : List Char := (marks s).map Prod.fst

theorem delimiter_ne_slash {c : Char} (mark : isDelimiter c = true) : c ≠ '\\' := by
  rintro rfl
  cases mark

theorem marks_cons_mark {c : Char} (mark : isDelimiter c = true) (r : List Char) :
    marks (c :: r) = (c, r) :: marks r := by
  simp [marks, marksBehind, mark]

theorem marks_cons_plain {c : Char} (plain : isDelimiter c = false) (slashless : c ≠ '\\')
    (r : List Char) : marks (c :: r) = marks r := by
  have bare : (c == '\\') = false := beq_eq_false_iff_ne.2 slashless
  simp only [marks, marksBehind, plain, bare, Bool.false_and, Bool.false_eq_true, ↓reduceIte]

theorem marks_white {c : Char} (white : isWhite c = true) (r : List Char) :
    marks (c :: r) = marks r := by
  apply marks_cons_plain
  · cases mark : isDelimiter c with
    | false => rfl
    | true =>
        simp only [isDelimiter, Bool.or_eq_true, beq_iff_eq] at mark
        rcases mark with (rfl | rfl) | rfl <;> cases white
  · rintro rfl
    cases white

theorem marks_blank_append {front : List Char} (blank : isBlank front = true) (s : List Char) :
    marks (front ++ s) = marks s := by
  induction front with
  | nil => rfl
  | cons c front ih =>
      rw [isBlank, List.all_cons, Bool.and_eq_true] at blank
      rw [List.cons_append, marks_white blank.1, ih blank.2]

/-- What a backslash makes text is no mark. -/
theorem marks_escaped {d : Char} (mark : isDelimiter d = true) (r : List Char) :
    marks ('\\' :: d :: r) = marks r := by
  have bare : (d == '\\') = false := beq_eq_false_iff_ne.2 (delimiter_ne_slash mark)
  simp [marks, marksBehind, bare, show isDelimiter '\\' = false from rfl]

/-- A backslash in front of anything else changes nothing. -/
theorem marks_slash {r : List Char} (loose : ∀ d ∈ r.head?, isDelimiter d = false) :
    marks ('\\' :: r) = marks r := by
  cases r with
  | nil => rfl
  | cons d r =>
      have plain : isDelimiter d = false := loose d rfl
      simp [marks, marksBehind, plain, show isDelimiter '\\' = false from rfl]

/-- Between its marks a text may be cut anywhere but behind a backslash. -/
theorem marks_cons {c : Char} {r : List Char} (goes : endsRun c = false)
    (loose : c = '\\' → ∀ d ∈ r.head?, isDelimiter d = false) : marks (c :: r) = marks r := by
  by_cases slash : c = '\\'
  · subst slash
    exact marks_slash (loose rfl)
  · have plain : isDelimiter c = false := (Bool.or_eq_false_iff.1 goes).1
    exact marks_cons_plain plain slash r

/-- No mark stands in a run. -/
theorem marks_afterRun (s : List Char) : marks (afterRun s) = marks s := by
  rw [afterRun]
  fun_induction cutRun s with
  | case1 => rfl
  | case2 c ends => rfl
  | case3 c goes =>
      have goes : endsRun c = false := by simpa using goes
      rw [marks_cons goes]
      rintro - d ⟨⟩
  | case4 c d r escape run rest cut ih =>
      obtain ⟨rfl, mark⟩ := escape
      rw [marks_escaped mark, ← ih, cut]
  | case5 c d r bare ends => rfl
  | case6 c d r bare goes run rest cut ih =>
      have goes : endsRun c = false := by simpa using goes
      have loose : c = '\\' → ∀ e ∈ (d :: r).head?, isDelimiter e = false := by
        rintro slash e ⟨⟩
        simpa [slash] using bare
      rw [marks_cons goes loose, ← ih, cut]

/-- No mark is skipped. -/
theorem marks_dropWhile {p : Char → Bool}
    (plain : ∀ c, p c = true → isDelimiter c = false ∧ c ≠ '\\') (s : List Char) :
    marks (s.dropWhile p) = marks s := by
  induction s with
  | nil => rfl
  | cons c r ih =>
      cases skipped : p c with
      | false => rw [List.dropWhile_cons_of_neg (by simp [skipped])]
      | true =>
          obtain ⟨markless, slashless⟩ := plain c skipped
          rw [List.dropWhile_cons_of_pos skipped, ih, marks_cons_plain markless slashless]

theorem mem_marksBehind_iff (before s : List Char) (c : Char) (r : List Char) :
    (c, r) ∈ marksBehind (before.getLast? == some '\\') s ↔
      isDelimiter c = true ∧ ∃ front, s = front ++ c :: r ∧
        (before ++ front).getLast? ≠ some '\\' := by
  induction s generalizing before with
  | nil => simp [marksBehind]
  | cons d t ih =>
      have next := ih (before ++ [d])
      rw [List.getLast?_concat] at next
      have places : (∃ front, d :: t = front ++ c :: r ∧ (before ++ front).getLast? ≠ some '\\') ↔
          ((c, r) = (d, t) ∧ before.getLast? ≠ some '\\') ∨
            ∃ front, t = front ++ c :: r ∧ (before ++ [d] ++ front).getLast? ≠ some '\\' := by
        constructor
        · rintro ⟨_ | ⟨e, front⟩, whole, loose⟩
          · cases whole
            exact .inl ⟨rfl, by simpa using loose⟩
          · cases whole
            exact .inr ⟨front, rfl, by simpa using loose⟩
        · rintro (⟨here, loose⟩ | ⟨front, rfl, loose⟩)
          · cases here
            exact ⟨[], rfl, by simpa using loose⟩
          · exact ⟨d :: front, rfl, by simpa using loose⟩
      rw [places, and_or_left, ← next, marksBehind]
      split
      · next mark =>
          have mark : isDelimiter d = true ∧ before.getLast? ≠ some '\\' := by simpa using mark
          have slashless : (some d == some '\\') = false := by
            simpa using delimiter_ne_slash mark.1
          rw [slashless, List.mem_cons]
          refine or_congr_left ⟨fun here => ?_, fun here => here.2.1⟩
          cases here
          exact ⟨mark.1, rfl, mark.2⟩
      · next plain =>
          have apart : ¬ (isDelimiter c = true ∧ (c, r) = (d, t) ∧
              before.getLast? ≠ some '\\') := by
            rintro ⟨mark, here, loose⟩
            cases here
            exact plain (by simp [mark, loose])
          have same : (some d == some '\\') = (d == '\\') := rfl
          rw [same]
          exact (or_iff_right apart).symm

/-- A mark is a bracket or bar without a backslash right in front of it. -/
theorem mem_marks_iff (s : List Char) (c : Char) (r : List Char) :
    (c, r) ∈ marks s ↔
      isDelimiter c = true ∧ ∃ front, s = front ++ c :: r ∧ front.getLast? ≠ some '\\' :=
  mem_marksBehind_iff [] s c r

/-- The marks of the beginning of a text are the first ones of the text. -/
theorem marksBehind_prefix {part s : List Char} (first : part <+: s) (slash : Bool) :
    (marksBehind slash part).map Prod.fst <+: (marksBehind slash s).map Prod.fst := by
  induction part generalizing s slash with
  | nil => exact List.nil_prefix
  | cons c r ih =>
      obtain ⟨t, rfl, more⟩ := List.cons_prefix_iff.1 first
      simp only [marksBehind]
      split
      · exact (List.prefix_cons_inj c).2 (ih more false)
      · exact ih more _

theorem bare_prefix {part s : List Char} (first : part <+: s) : bare part <+: bare s :=
  marksBehind_prefix first false

/-- Between the two texts no escape is taken apart. -/
def Loose (before after : List Char) : Prop :=
  before.getLast? = some '\\' → ∀ c ∈ after.head?, isDelimiter c = false

theorem Loose.of_last {before : List Char} (last : before.getLast? ≠ some '\\')
    (after : List Char) : Loose before after :=
  fun slash => absurd slash last

/-- In front of a bracket or bar only a backslash makes an escape. -/
theorem Loose.last {before r : List Char} {c : Char} (loose : Loose before (c :: r))
    (mark : isDelimiter c = true) : before.getLast? ≠ some '\\' := by
  intro slash
  rw [loose slash c rfl] at mark
  cases mark

theorem Loose.append {before middle after : List Char} (first : Loose before (middle ++ after))
    (second : Loose middle after) : Loose (before ++ middle) after := by
  cases middle with
  | nil => simpa using first
  | cons c r =>
      intro slash
      apply second
      simpa [List.getLast?_append] using slash

theorem Loose.of_append {before middle after : List Char} (loose : Loose before (middle ++ after)) :
    Loose before middle := by
  intro slash c first
  apply loose slash c
  rw [List.head?_append, Option.mem_def.1 first]
  rfl

theorem marksBehind_of_loose {slash : Bool} {s : List Char}
    (loose : slash = true → ∀ c ∈ s.head?, isDelimiter c = false) :
    marksBehind slash s = marksBehind false s := by
  cases s with
  | nil => rfl
  | cons c r =>
      cases slash with
      | false => rfl
      | true => simp [marksBehind, loose rfl c rfl]

theorem bareBehind_append (before front back : List Char) :
    (marksBehind (before.getLast? == some '\\') (front ++ back)).map Prod.fst =
      (marksBehind (before.getLast? == some '\\') front).map Prod.fst ++
        (marksBehind ((before ++ front).getLast? == some '\\') back).map Prod.fst := by
  induction front generalizing before with
  | nil => simp [marksBehind]
  | cons c front ih =>
      have next := ih (before ++ [c])
      rw [List.getLast?_concat, List.append_assoc, List.singleton_append] at next
      have same : (some c == some '\\') = (c == '\\') := rfl
      rw [same] at next
      rw [List.cons_append, marksBehind, marksBehind]
      split
      · next mark =>
          have plain : (c == '\\') = false := by
            rw [Bool.and_eq_true] at mark
            simpa using delimiter_ne_slash mark.1
          rw [plain] at next
          rw [List.map_cons, List.map_cons, List.cons_append, next]
      · exact next

/-- The marks of two texts in a row are those of the first and then those of the second. -/
theorem bare_append {front back : List Char} (loose : Loose front back) :
    bare (front ++ back) = bare front ++ bare back := by
  have whole := bareBehind_append [] front back
  rw [List.nil_append] at whole
  have behind : marksBehind (front.getLast? == some '\\') back = marksBehind false back := by
    apply marksBehind_of_loose
    intro slash
    exact loose (by simpa using slash)
  rw [behind] at whole
  exact whole

/-- A run stops at a bracket or bar only where it is not escaped. -/
theorem loose_run (s : List Char) : Loose (run s) (afterRun s) := by
  rw [run, afterRun]
  fun_induction cutRun s with
  | case1 => exact .of_last (by simp) _
  | case2 c ends => exact .of_last (by simp) _
  | case3 c goes =>
      intro slash d first
      cases first
  | case4 c d r escape run rest cut ih =>
      rw [cut] at ih
      have start : Loose (c :: [d]) (run ++ rest) := by
        apply Loose.of_last
        simpa using delimiter_ne_slash escape.2
      exact start.append ih
  | case5 c d r bare ends => exact .of_last (by simp) _
  | case6 c d r bare goes run rest cut ih =>
      rw [cut] at ih
      have whole : run ++ rest = d :: r := by
        have parts := run_append_afterRun (d :: r)
        rw [Text.run, afterRun, cut] at parts
        exact parts
      have start : Loose [c] (run ++ rest) := by
        rw [whole]
        rintro slash e ⟨⟩
        have here : c = '\\' := by simpa using slash
        simpa [here] using bare
      exact start.append ih

end ClassDiagram.Text
