import ClassDiagram.Proofs.Draft.Settled

set_option autoImplicit false

namespace ClassDiagram.Draft

open Text (isBlank isWhite isDelimiter isSeparator endsRun run afterRun unescape marks)

/-- A run ends in front of `s`, and no bracket opens there. -/
def Pauses (s : List Char) : Prop := ∀ c ∈ s.head?, endsRun c = true ∧ c ≠ '['

/-- `t` is `s` with white characters put in where runs end and no bracket opens. None of them is a
line feed, and none comes between a backslash and the character that it makes text. -/
inductive Widened : List Char → List Char → Prop
  | nil : Widened [] []
  | cons (c : Char) {s t : List Char} (rest : Widened s t)
      (escape : c = '\\' → ∀ d ∈ s.head?, isDelimiter d = true → t.head? = some d) :
      Widened (c :: s) (c :: t)
  | put {w : Char} {s t : List Char} (white : isWhite w = true) (line : w ≠ '\n')
      (place : Pauses s) (rest : Widened s t) : Widened s (w :: t)

/-- The second text is a widened form of the first, with nothing put in front. -/
def Abreast (s t : List Char) : Prop := Widened s t ∧ s.head? = t.head?

theorem Pauses.cutRun {s : List Char} (place : Pauses s) : Text.cutRun s = ([], s) :=
  Text.cutRun_of_stop fun c hc => (place c hc).1

theorem Pauses.not_blocked {s : List Char} (place : Pauses s) : ¬ Blocked s := by
  intro blocked
  obtain ⟨-, inner, opens⟩ := (blocked_iff s).1 blocked
  rw [afterRun, place.cutRun] at opens
  exact (place '[' (by rw [show s = '[' :: inner from opens]; rfl)).2 rfl

namespace Widened

variable {s t : List Char} {c : Char} {r u : List Char}

theorem refl (s : List Char) : Widened s s := by
  induction s with
  | nil => exact .nil
  | cons c r ih => exact .cons c ih fun _ d first _ => first

/-- What is put in is no character at which a run ends, so it is not taken for one. -/
theorem tail (widened : Widened (c :: r) (c :: u)) : Widened r u := by
  cases widened with
  | cons _ rest _ => exact rest
  | put white line place _ =>
      have goes := endsRun_of_white white line
      rw [(place c rfl).1] at goes
      cases goes

theorem loose (widened : Widened s t) (loose : ∀ d ∈ s.head?, isDelimiter d = false) :
    ∀ d ∈ t.head?, isDelimiter d = false := by
  cases widened with
  | nil => exact loose
  | cons c rest escape => exact loose
  | put white line place rest =>
      rintro d ⟨⟩
      exact (Bool.or_eq_false_iff.1 (endsRun_of_white white line)).1

/-- Characters are put in only at the end of a run, and only if no bracket follows. -/
theorem cutRun {s t : List Char} (widened : Widened s t) :
    ∃ blank, run t = run s ++ blank ∧ isBlank blank = true ∧ Abreast (afterRun s) (afterRun t) ∧
      ((∃ inner, afterRun s = '[' :: inner) → blank = []) := by
  cases widened with
  | nil => exact ⟨[], rfl, rfl, ⟨.nil, rfl⟩, fun _ => rfl⟩
  | @put w _ t white line place rest =>
      obtain ⟨blank, longer, isBlank, abreast, -⟩ := rest.cutRun
      obtain ⟨cut, left⟩ := run_white white line t
      rw [cut, left, longer, show run s = [] from congrArg Prod.fst place.cutRun]
      refine ⟨w :: blank, rfl, by rwa [isBlank_cons white], abreast, ?_⟩
      rintro ⟨inner, opens⟩
      rw [afterRun, place.cutRun] at opens
      exact absurd rfl (place '[' (by rw [show s = '[' :: inner from opens]; rfl)).2
  | @cons c s t rest escape =>
      cases ends : endsRun c with
      | true =>
          rw [run, run, afterRun, afterRun, Text.cutRun_stop ends, Text.cutRun_stop ends]
          exact ⟨[], rfl, rfl, ⟨.cons c rest escape, rfl⟩, fun _ => rfl⟩
      | false =>
          by_cases escaped : c = '\\' ∧ ∃ d ∈ s.head?, isDelimiter d = true
          · obtain ⟨rfl, d, first, mark⟩ := escaped
            obtain ⟨u, rfl⟩ := List.head?_eq_some_iff.1 (escape rfl d first mark)
            obtain ⟨r, rfl⟩ := List.head?_eq_some_iff.1 first
            obtain ⟨blank, longer, more⟩ := rest.tail.cutRun
            rw [run, run, afterRun, afterRun, Text.cutRun_escaped mark, Text.cutRun_escaped mark]
            exact ⟨blank, congrArg ('\\' :: d :: ·) longer, more⟩
          · have bare : c = '\\' → ∀ d ∈ s.head?, isDelimiter d = false := by
              intro slash d first
              cases mark : isDelimiter d with
              | false => rfl
              | true => exact absurd ⟨slash, d, first, mark⟩ escaped
            obtain ⟨blank, longer, more⟩ := rest.cutRun
            rw [run, run, afterRun, afterRun, Text.cutRun_cons ends bare,
              Text.cutRun_cons ends fun slash => rest.loose (bare slash)]
            exact ⟨blank, congrArg (c :: ·) longer, more⟩
termination_by t.length

theorem isBlank_run (widened : Widened s t) : isBlank (run t) = isBlank (run s) := by
  obtain ⟨blank, longer, isBlank, -⟩ := widened.cutRun
  rw [longer, Text.isBlank, List.all_append, show blank.all isWhite = true from isBlank,
    Bool.and_true, Text.isBlank]

theorem afterRun (widened : Widened s t) : Abreast (afterRun s) (afterRun t) := by
  obtain ⟨-, -, -, abreast, -⟩ := widened.cutRun
  exact abreast

/-- Nothing is put in between two classifiers. -/
theorem run_eq (widened : Widened s t) {inner : List Char}
    (opens : Text.afterRun s = '[' :: inner) : run t = run s := by
  obtain ⟨blank, longer, -, -, none⟩ := widened.cutRun
  rw [longer, none ⟨inner, opens⟩, List.append_nil]

/-- A line of text is trimmed, so it does not show what is put in at its end. -/
theorem textLine_eq (widened : Widened s t) : textLine (run t) = textLine (run s) := by
  obtain ⟨blank, longer, isBlank, -⟩ := widened.cutRun
  rw [longer, textLine, textLine, Text.trim_append_blank _ isBlank]

theorem blocked_iff (widened : Widened s t) : Blocked t ↔ Blocked s := by
  have heads := widened.afterRun.2
  rw [Draft.blocked_iff, Draft.blocked_iff, widened.isBlank_run]
  simp only [← List.head?_eq_some_iff, heads]

/-- What is put in stands in front of the end of its line, so it is not stray. -/
theorem stray (widened : Widened s t) (stray : Stray t) : Stray s := by
  induction widened with
  | nil => exact stray
  | cons c rest escape ih =>
      obtain ⟨white, more | ⟨kept, blocked⟩⟩ := stray_cons_iff.1 stray
      · exact stray_cons_iff.2 ⟨white, .inl (ih more)⟩
      · exact stray_cons_iff.2 ⟨white, .inr ⟨kept, rest.blocked_iff.1 blocked⟩⟩
  | put white line place rest ih =>
      obtain ⟨-, more | ⟨-, blocked⟩⟩ := stray_cons_iff.1 stray
      · exact ih more
      · exact absurd (rest.blocked_iff.1 blocked) place.not_blocked

end Widened

namespace Abreast

variable {s t : List Char}

/-- The two texts end together, or they go on with the same character. -/
theorem cases (abreast : Abreast s t) :
    (s = [] ∧ t = []) ∨ ∃ c r u, s = c :: r ∧ t = c :: u ∧ Widened r u := by
  obtain ⟨widened, heads⟩ := abreast
  cases s with
  | nil =>
      have nothing : t = [] := List.head?_eq_none_iff.1 heads.symm
      exact .inl ⟨rfl, nothing⟩
  | cons c r =>
      obtain ⟨u, rfl⟩ := List.head?_eq_some_iff.1 heads.symm
      exact .inr ⟨c, r, u, rfl, rfl, widened.tail⟩

end Abreast

namespace Widened

variable {s t : List Char}

/-- Blanks that are skipped in the first text, and what is put in among them, are white. -/
theorem exists_of_skipGap (widened : Widened s t) :
    ∃ front back, t = front ++ back ∧ isBlank front = true ∧ Widened (skipGap s) back := by
  induction widened with
  | nil => exact ⟨[], [], rfl, rfl, .nil⟩
  | @cons c s t rest escape ih =>
      cases gap : Text.isGap c with
      | true =>
          obtain ⟨front, back, rfl, blank, behind⟩ := ih
          rw [skipGap_cons gap]
          exact ⟨c :: front, back, rfl, by rwa [isBlank_cons (Text.isWhite_of_isGap gap)], behind⟩
      | false =>
          rw [skipGap_eq_self gap]
          exact ⟨[], c :: t, rfl, rfl, .cons c rest escape⟩
  | @put w s t white line place rest ih =>
      obtain ⟨front, back, rfl, blank, behind⟩ := ih
      exact ⟨w :: front, back, rfl, by rwa [isBlank_cons white], behind⟩

/-- When blanks are skipped in both texts, white characters that are no blanks may be left over. -/
theorem exists_of_skipGap_both (widened : Widened s t) :
    ∃ front back, skipGap t = front ++ back ∧ isBlank front = true ∧ Widened (skipGap s) back := by
  induction widened with
  | nil => exact ⟨[], [], rfl, rfl, .nil⟩
  | @cons c s t rest escape ih =>
      cases gap : Text.isGap c with
      | true =>
          rw [skipGap_cons gap, skipGap_cons gap]
          exact ih
      | false =>
          rw [skipGap_eq_self gap, skipGap_eq_self gap]
          exact ⟨[], c :: t, rfl, rfl, .cons c rest escape⟩
  | @put w s t white line place rest ih =>
      cases gap : Text.isGap w with
      | true =>
          rw [skipGap_cons gap]
          exact ih
      | false =>
          obtain ⟨front, back, rfl, blank, behind⟩ := rest.exists_of_skipGap
          rw [skipGap_eq_self gap]
          exact ⟨w :: front, back, rfl, by rwa [isBlank_cons white], behind⟩

end Widened

end ClassDiagram.Draft
