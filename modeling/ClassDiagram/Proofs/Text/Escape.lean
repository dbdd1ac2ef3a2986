import ClassDiagram.Proofs.Text.Trim
import ClassDiagram.Text.Escape

set_option autoImplicit false

namespace ClassDiagram.Text

def escapeBy (p : Char → Bool) (s : List Char) : List Char :=
  s.flatMap fun c => if p c then ['\\', c] else [c]

/-- Puts a backslash in front of every bracket and bar. -/
def escape (s : List Char) : List Char := escapeBy isDelimiter s

theorem escapeBy_cons_of_pos {p : Char → Bool} {c : Char} (h : p c = true) (r : List Char) :
    escapeBy p (c :: r) = '\\' :: c :: escapeBy p r := by
  simp [escapeBy, h]

theorem escapeBy_cons_of_neg {p : Char → Bool} {c : Char} (h : p c = false) (r : List Char) :
    escapeBy p (c :: r) = c :: escapeBy p r := by
  simp [escapeBy, h]

theorem escapeBy_eq_self {p : Char → Bool} {s : List Char} (h : ∀ c ∈ s, p c = false) :
    escapeBy p s = s := by
  induction s with
  | nil => rfl
  | cons c r ih =>
      rw [escapeBy_cons_of_neg (h c List.mem_cons_self),
        ih fun d hd => h d (List.mem_cons_of_mem _ hd)]

@[simp] theorem escape_append (s t : List Char) : escape (s ++ t) = escape s ++ escape t :=
  List.flatMap_append

theorem escape_ne_nil {s : List Char} (h : s ≠ []) : escape s ≠ [] := by
  cases s with
  | nil => exact absurd rfl h
  | cons c r => cases hc : isDelimiter c <;> simp [escape, escapeBy, hc]

theorem escape_getLast? (s : List Char) : (escape s).getLast? = s.getLast? := by
  rcases List.eq_nil_or_concat s with rfl | ⟨r, c, rfl⟩
  · rfl
  · cases hc : isDelimiter c <;> simp [escape, escapeBy, hc]

theorem IsTrimmed.escape {s : List Char} (trimmed : IsTrimmed s) : IsTrimmed (escape s) := by
  refine ⟨?_, by simpa only [escape_getLast?] using trimmed.last⟩
  cases s with
  | nil => intro c hc; cases hc
  | cons d r =>
      cases hd : isDelimiter d with
      | false =>
          have shape : Text.escape (d :: r) = d :: Text.escape r := escapeBy_cons_of_neg hd r
          rw [shape]
          exact fun c hc => trimmed.head c hc
      | true =>
          have shape : Text.escape (d :: r) = '\\' :: d :: Text.escape r :=
            escapeBy_cons_of_pos hd r
          rw [shape]
          rintro c ⟨⟩
          decide

theorem escape_eq_self {s : List Char} (h : ∀ c ∈ s, isDelimiter c = false) : escape s = s :=
  escapeBy_eq_self h

theorem dropEscape_mark (mark : Char) (r : List Char) :
    dropEscape mark ('\\' :: mark :: r) = mark :: dropEscape mark r := by
  simp [dropEscape]

theorem dropEscape_cons {mark c : Char} {r : List Char} (h : c = '\\' → r.head? ≠ some mark) :
    dropEscape mark (c :: r) = c :: dropEscape mark r := by
  cases r with
  | nil => simp [dropEscape]
  | cons d r =>
      have apart : ¬ (c = '\\' ∧ d = mark) := fun both => h both.1 (congrArg some both.2)
      rw [dropEscape, if_neg apart]

theorem any_dropEscape {p : Char → Bool} (slashless : p '\\' = false) (mark : Char)
    (s : List Char) : (dropEscape mark s).any p = s.any p := by
  fun_induction dropEscape mark s with
  | case1 => rfl
  | case2 => rfl
  | case3 c d r both ih => simp [both.1, slashless, ih]
  | case4 c d r other ih => simp [ih]

/-- Only backslashes are taken off. -/
theorem any_unescape {p : Char → Bool} (slashless : p '\\' = false) (s : List Char) :
    (unescape s).any p = s.any p := by
  rw [unescape, any_dropEscape slashless, any_dropEscape slashless, any_dropEscape slashless]

theorem dropEscape_getLast? (mark : Char) (s : List Char) :
    (dropEscape mark s).getLast? = s.getLast? := by
  fun_induction dropEscape mark s with
  | case1 => rfl
  | case2 => rfl
  | case3 c d r both ih => rw [List.getLast?_cons, ih, List.getLast?_cons_cons, List.getLast?_cons]
  | case4 c d r other ih => rw [List.getLast?_cons, ih, ← List.getLast?_cons]

theorem eq_mark_or_head_of_dropEscape {mark c : Char} {s : List Char}
    (first : c ∈ (dropEscape mark s).head?) : c = mark ∨ c ∈ s.head? := by
  fun_cases dropEscape mark s with
  | case1 => exact .inr first
  | case2 => exact .inr first
  | case3 d e r both =>
      rw [dropEscape, if_pos both] at first
      exact .inl ((Option.some.inj first).symm.trans both.2)
  | case4 d e r other =>
      rw [dropEscape, if_neg other] at first
      exact .inr first

theorem IsTrimmed.dropEscape {mark : Char} (dark : isWhite mark = false) {s : List Char}
    (trimmed : IsTrimmed s) : IsTrimmed (dropEscape mark s) := by
  refine ⟨fun c first => ?_, by simpa only [dropEscape_getLast?] using trimmed.last⟩
  rcases eq_mark_or_head_of_dropEscape first with rfl | first
  · exact dark
  · exact trimmed.head c first

/-- Neither the marks nor what they stand for is white. -/
theorem IsTrimmed.unescape {s : List Char} (trimmed : IsTrimmed s) : IsTrimmed (unescape s) :=
  IsTrimmed.dropEscape (by decide)
    (IsTrimmed.dropEscape (by decide) (IsTrimmed.dropEscape (by decide) trimmed))

theorem escapeBy_head?_ne {p : Char → Bool} {mark : Char} (marked : p mark = true)
    (plain : mark ≠ '\\') (s : List Char) : (escapeBy p s).head? ≠ some mark := by
  cases s with
  | nil => simp [escapeBy]
  | cons c r =>
      cases hc : p c with
      | true =>
          rw [escapeBy_cons_of_pos hc]
          simpa using plain.symm
      | false =>
          rw [escapeBy_cons_of_neg hc]
          rintro ⟨⟩
          rw [marked] at hc
          cases hc

/-- Taking off the escapes of one mark leaves those of the others. -/
theorem dropEscape_escapeBy {p : Char → Bool} {mark : Char} (marked : p mark = true)
    (plain : mark ≠ '\\') (bare : p '\\' = false) (s : List Char) :
    dropEscape mark (escapeBy p s) = escapeBy (fun c => p c && c != mark) s := by
  induction s with
  | nil => rfl
  | cons c r ih =>
      have ahead := escapeBy_head?_ne marked plain r
      cases hc : p c with
      | false =>
          rw [escapeBy_cons_of_neg hc, escapeBy_cons_of_neg (by simp [hc]),
            dropEscape_cons (fun _ => ahead), ih]
      | true =>
          have slashless : c ≠ '\\' := by
            rintro rfl
            rw [bare] at hc
            cases hc
          rw [escapeBy_cons_of_pos hc]
          by_cases same : c = mark
          · rw [same, dropEscape_mark, ih, escapeBy_cons_of_neg (by simp)]
          · rw [escapeBy_cons_of_pos (by simp [hc, same]),
              dropEscape_cons (fun _ => by simpa using same),
              dropEscape_cons (fun slash => absurd slash slashless), ih]

/-- Taking the escapes off undoes escaping, whatever backslashes the text has of its own. -/
theorem unescape_escape (s : List Char) : unescape (escape s) = s := by
  rw [unescape, escape, dropEscape_escapeBy (by decide) (by decide) (by decide),
    dropEscape_escapeBy (by decide) (by decide) (by decide),
    dropEscape_escapeBy (by decide) (by decide) (by decide)]
  apply escapeBy_eq_self
  intro c _
  simp only [isDelimiter]
  by_cases h₁ : c = '[' <;> by_cases h₂ : c = ']' <;> by_cases h₃ : c = '|' <;>
    simp [h₁, h₂, h₃]

theorem cutRun_escaped {d : Char} (h : isDelimiter d = true) (r : List Char) :
    cutRun ('\\' :: d :: r) = ('\\' :: d :: (cutRun r).1, (cutRun r).2) := by
  simp [cutRun, h]

theorem cutRun_stop {c : Char} (h : endsRun c = true) (r : List Char) :
    cutRun (c :: r) = ([], c :: r) := by
  have plain : c ≠ '\\' := by
    rintro rfl
    exact absurd h (by decide)
  cases r <;> simp [cutRun, h, plain]

theorem cutRun_cons {c : Char} {r : List Char} (goes : endsRun c = false)
    (loose : c = '\\' → ∀ d ∈ r.head?, isDelimiter d = false) :
    cutRun (c :: r) = (c :: (cutRun r).1, (cutRun r).2) := by
  cases r with
  | nil => simp [cutRun, goes]
  | cons d r =>
      have apart : ¬ (c = '\\' ∧ isDelimiter d = true) := by
        rintro ⟨slash, mark⟩
        rw [loose slash d rfl] at mark
        cases mark
      rw [cutRun, if_neg apart]
      simp [goes]

/-- A run goes over no separator. -/
theorem isSeparator_of_mem_run {s : List Char} {c : Char} (mem : c ∈ run s) :
    isSeparator c = false := by
  have plain : ∀ {d : Char}, ¬ endsRun d = true → isSeparator d = false := fun inside => by
    rw [endsRun, Bool.or_eq_true, not_or] at inside
    exact Bool.eq_false_iff.2 inside.2
  rw [run] at mem
  fun_induction cutRun s with
  | case1 => cases mem
  | case2 => cases mem
  | case3 d inside =>
      rw [List.mem_singleton.1 mem]
      exact plain inside
  | case4 d e r both front rest split ih =>
      rcases List.mem_cons.1 mem with rfl | mem
      · rw [both.1]
        decide
      · rcases List.mem_cons.1 mem with rfl | mem
        · have mark := both.2
          simp only [isDelimiter, Bool.or_eq_true, beq_iff_eq] at mark
          rcases mark with (rfl | rfl) | rfl <;> decide
        · rw [split] at ih
          exact ih mem
  | case5 => cases mem
  | case6 d e r escaped inside front rest split ih =>
      rcases List.mem_cons.1 mem with rfl | mem
      · exact plain inside
      · rw [split] at ih
        exact ih mem

theorem cutRun_of_stop {rest : List Char} (stop : ∀ c ∈ rest.head?, endsRun c = true) :
    cutRun rest = ([], rest) := by
  cases rest with
  | nil => rfl
  | cons c r => exact cutRun_stop (stop c rfl) r

/-- A run ends at a line feed as it does at the end of the text. -/
theorem cutRun_append_feed (s more : List Char) :
    cutRun (s ++ '\n' :: more) = ((cutRun s).1, (cutRun s).2 ++ '\n' :: more) := by
  have feed : endsRun '\n' = true := by decide
  fun_induction cutRun s with
  | case1 => exact cutRun_stop feed more
  | case2 c ends => exact cutRun_stop ends _
  | case3 c goes =>
      have loose : c = '\\' → ∀ d ∈ ('\n' :: more).head?, isDelimiter d = false := by
        rintro - d ⟨⟩
        decide
      rw [List.singleton_append, cutRun_cons (by simpa using goes) loose, cutRun_stop feed]
      rfl
  | case4 c d r escape run rest cut ih =>
      obtain ⟨rfl, mark⟩ := escape
      rw [cut] at ih
      rw [List.cons_append, List.cons_append, cutRun_escaped mark, ih]
  | case5 c d r bare ends => exact cutRun_stop ends _
  | case6 c d r bare goes run rest cut ih =>
      have loose : c = '\\' → ∀ e ∈ (d :: r ++ '\n' :: more).head?, isDelimiter e = false := by
        rintro slash e ⟨⟩
        simpa [slash] using bare
      rw [cut] at ih
      rw [List.cons_append, cutRun_cons (by simpa using goes) loose, ih]
theorem run_append_feed (s more : List Char) : run (s ++ '\n' :: more) = run s := by
  rw [run, cutRun_append_feed]
  rfl

theorem afterRun_append_feed (s more : List Char) :
    afterRun (s ++ '\n' :: more) = afterRun s ++ '\n' :: more := by
  rw [afterRun, cutRun_append_feed]
  rfl

theorem escape_head?_not_delimiter (s : List Char) :
    ∀ c ∈ (escape s).head?, isDelimiter c = false := by
  intro c hc
  cases hd : isDelimiter c with
  | false => rfl
  | true =>
      have plain : c ≠ '\\' := by
        rintro rfl
        exact absurd hd (by decide)
      exact absurd hc (escapeBy_head?_ne hd plain s)

/-- The scanner takes a whole escaped text and stops right behind it. A backslash at its end must
not meet a bracket or a bar. -/
theorem cutRun_escape {s rest : List Char} (inside : ∀ c ∈ s, isSeparator c = false)
    (stop : ∀ c ∈ rest.head?, endsRun c = true)
    (loose : s.getLast? = some '\\' → ∀ c ∈ rest.head?, isDelimiter c = false) :
    cutRun (escape s ++ rest) = (escape s, rest) := by
  induction s with
  | nil => exact cutRun_of_stop stop
  | cons c r ih =>
      have inner : cutRun (escape r ++ rest) = (escape r, rest) := by
        apply ih fun d hd => inside d (List.mem_cons_of_mem _ hd)
        intro last
        apply loose
        cases r with
        | nil => cases last
        | cons d r => simpa only [List.getLast?_cons_cons] using last
      have single : isSeparator c = false := inside c List.mem_cons_self
      rw [escape] at inner ⊢
      cases hc : isDelimiter c with
      | true =>
          rw [escapeBy_cons_of_pos hc, List.cons_append, List.cons_append, cutRun_escaped hc, inner]
      | false =>
          rw [escapeBy_cons_of_neg hc, List.cons_append]
          rw [cutRun_cons (by simp [endsRun, hc, single]), inner]
          intro slash d hd
          cases r with
          | nil => exact loose (congrArg some slash) d hd
          | cons e r =>
              have ahead := escape_head?_not_delimiter (e :: r)
              cases he : escape (e :: r) with
              | nil => exact absurd he (escape_ne_nil (by simp))
              | cons f t =>
                  rw [he] at ahead
                  rw [← escape, he] at hd
                  exact ahead d hd

end ClassDiagram.Text
