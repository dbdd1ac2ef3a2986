import ClassDiagram.Proofs.Draft.Lockstep
import ClassDiagram.Proofs.Text.Escape
import ClassDiagram.Proofs.Text.Pieces

set_option autoImplicit false

/-!
A line feed more where a line ends already changes nothing that is read: after it the scanner meets
another line feed, or the end of the text, just as it does without it.
-/
namespace ClassDiagram.Draft

open Text (run afterRun endsRun isDelimiter isGap)

/-- `t` is `s` with at most one line feed put in, in front of a line feed or at the end. -/
inductive Padded : List Char → List Char → Prop
  | same (s : List Char) : Padded s s
  | feed {s : List Char} (beside : ∀ c ∈ s.head?, c = '\n') : Padded s ('\n' :: s)
  | cons (c : Char) {s t : List Char} (rest : Padded s t) : Padded (c :: s) (c :: t)

namespace Padded

variable {s t : List Char}

theorem append (front : List Char) (padded : Padded s t) : Padded (front ++ s) (front ++ t) := by
  induction front with
  | nil => exact padded
  | cons c front ih => exact .cons c ih

theorem dropWhile {p : Char → Bool} (skips : p '\n' = true) (padded : Padded s t) :
    Padded (s.dropWhile p) (t.dropWhile p) := by
  induction padded with
  | same s => exact .same _
  | feed beside =>
      rw [List.dropWhile_cons_of_pos skips]
      exact .same _
  | cons c rest ih =>
      by_cases hc : p c = true
      · rw [List.dropWhile_cons_of_pos hc, List.dropWhile_cons_of_pos hc]
        exact ih
      · rw [List.dropWhile_cons_of_neg hc, List.dropWhile_cons_of_neg hc]
        exact .cons c rest

theorem all_eq {p : Char → Bool} (holds : p '\n' = true) (padded : Padded s t) :
    s.all p = t.all p := by
  induction padded with
  | same s => rfl
  | feed beside => simp [holds]
  | cons c rest ih => simp only [List.all_cons, ih]

/-- The texts part only at a line feed. -/
theorem head {c : Char} (other : c ≠ '\n') (padded : Padded s t) :
    (∃ r u, s = c :: r ∧ t = c :: u ∧ Padded r u) ∨ (∀ r, s ≠ c :: r) ∧ ∀ u, t ≠ c :: u := by
  by_cases starts : t.head? = some c
  · cases padded with
    | same =>
        obtain ⟨u, rfl⟩ := List.head?_eq_some_iff.1 starts
        exact .inl ⟨u, u, rfl, rfl, .same u⟩
    | feed beside => exact absurd (Option.some.inj starts) other.symm
    | cons d rest =>
        obtain rfl : d = c := Option.some.inj starts
        exact .inl ⟨_, _, rfl, rfl, rest⟩
  · refine .inr ⟨?_, ?_⟩
    · rintro r rfl
      cases padded with
      | same => exact starts rfl
      | feed beside => exact other (beside c rfl)
      | cons d rest => exact starts rfl
    · rintro u rfl
      exact starts rfl

/-- Behind the blanks no line feed is left to part the texts. -/
theorem next (padded : Padded s t) :
    (skipGap s = [] ∧ skipGap t = []) ∨
      ∃ c r u, skipGap s = c :: r ∧ skipGap t = c :: u ∧ Padded r u := by
  have skipped : Padded (skipGap s) (skipGap t) := padded.dropWhile (by decide)
  have dark := List.head?_dropWhile_not isGap t
  rw [show t.dropWhile isGap = skipGap t from rfl] at dark
  generalize skipGap s = s' at skipped
  generalize skipGap t = t' at skipped dark
  cases skipped with
  | same =>
      cases s' with
      | nil => exact .inl ⟨rfl, rfl⟩
      | cons c r => exact .inr ⟨c, r, r, rfl, rfl, .same r⟩
  | feed beside => simp [isGap] at dark
  | cons c rest => exact .inr ⟨c, _, _, rfl, rfl, rest⟩

theorem loose (padded : Padded s t) (loose : ∀ c ∈ s.head?, isDelimiter c = false) :
    ∀ c ∈ t.head?, isDelimiter c = false := by
  cases padded with
  | same => exact loose
  | feed beside =>
      rintro c ⟨⟩
      decide
  | cons c rest => exact loose

/-- An escape is two characters, neither of them a line feed, so it stands in both texts. -/
theorem cutRun {s t : List Char} (padded : Padded s t) :
    run s = run t ∧ Padded (afterRun s) (afterRun t) := by
  rw [run, run, afterRun, afterRun]
  cases padded with
  | same => exact ⟨rfl, .same _⟩
  | feed beside =>
      have stop : ∀ c ∈ s.head?, endsRun c = true := by
        intro c hc
        rw [beside c hc]
        decide
      rw [Text.cutRun_of_stop stop, Text.cutRun_stop (by decide)]
      exact ⟨rfl, .feed beside⟩
  | @cons c r u rest =>
      cases ends : endsRun c with
      | true =>
          rw [Text.cutRun_stop ends, Text.cutRun_stop ends]
          exact ⟨rfl, .cons c rest⟩
      | false =>
          by_cases escape : c = '\\' ∧ ∃ d ∈ r.head?, isDelimiter d = true
          · obtain ⟨rfl, d, hd, mark⟩ := escape
            have other : d ≠ '\n' := by
              rintro rfl
              exact absurd mark (by decide)
            obtain ⟨r', rfl⟩ := List.head?_eq_some_iff.1 hd
            rcases rest.head other with ⟨r'', u', hr, rfl, rest'⟩ | ⟨no, -⟩
            · obtain rfl : r' = r'' := (List.cons.inj hr).2
              have ih := rest'.cutRun
              rw [Text.cutRun_escaped mark, Text.cutRun_escaped mark]
              exact ⟨congrArg ('\\' :: d :: ·) ih.1, ih.2⟩
            · exact absurd rfl (no r')
          · have ih := rest.cutRun
            have bare : c = '\\' → ∀ d ∈ r.head?, isDelimiter d = false := by
              intro slash d hd
              cases mark : isDelimiter d with
              | false => rfl
              | true => exact absurd ⟨slash, d, hd, mark⟩ escape
            rw [Text.cutRun_cons ends bare,
              Text.cutRun_cons ends fun slash => rest.loose (bare slash)]
            exact ⟨congrArg (c :: ·) ih.1, ih.2⟩
termination_by s.length

theorem separated_eq (padded : Padded s t) (more : skipSeparators s ≠ []) :
    separated s = separated t := by
  induction padded with
  | same => rfl
  | @feed s beside =>
      cases s with
      | nil => exact absurd rfl more
      | cons c r =>
          obtain rfl : c = '\n' := beside c rfl
          rfl
  | @cons c s t rest ih =>
      by_cases hc : isSlotGap c = true
      · rw [skipSeparators, List.dropWhile_cons_of_pos hc] at more
        have ih := ih more
        simp only [separated, List.takeWhile_cons_of_pos hc, List.any_cons] at ih ⊢
        rw [ih]
      · simp only [separated, List.takeWhile_cons_of_neg hc]

theorem lockstep : Lockstep Padded where
  run_eq padded := padded.cutRun.1
  afterRun padded := padded.cutRun.2
  skipSeparators padded := padded.dropWhile (by decide)
  skipGap padded := padded.dropWhile (by decide)
  separated_eq padded more := padded.separated_eq more
  opens padded := padded.head (by decide)
  next padded := padded.next

end Padded

theorem document_line_feed (s : List Char) : document ('\n' :: s) = document s := by
  have same : skipSeparators ('\n' :: s) = skipSeparators s := rfl
  rw [document, document, slots_congr _ same]

/-- An empty line in between adds a line feed in front of all or beside another one. -/
theorem padded_join_insert {front back : List (List Char)} (nonempty : front ++ back ≠ []) :
    Text.join '\n' (front ++ [] :: back) = '\n' :: Text.join '\n' (front ++ back) ∨
      Padded (Text.join '\n' (front ++ back)) (Text.join '\n' (front ++ [] :: back)) := by
  by_cases hf : front = []
  · subst hf
    exact .inl (Text.join_cons_of_ne_nil '\n' [] nonempty)
  · right
    rw [Text.join_append '\n' hf (List.cons_ne_nil _ _)]
    by_cases hb : back = []
    · subst hb
      have ended := Padded.append (Text.join '\n' front) (.feed (s := []) (by simp))
      rw [List.append_nil] at ended ⊢
      exact ended
    · rw [Text.join_append '\n' hf hb, Text.join_cons_of_ne_nil '\n' [] hb]
      exact .append _ (.feed fun c hc => (Option.some.inj hc).symm)

/-- A document stays the same, or is refused for the same cause, when an empty line is put in. -/
theorem document_join_insert {front back : List (List Char)} (nonempty : front ++ back ≠ []) :
    (document (Text.join '\n' (front ++ [] :: back))).mapError Fault.cause =
      (document (Text.join '\n' (front ++ back))).mapError Fault.cause := by
  rcases padded_join_insert nonempty with first | padded
  · rw [first, document_line_feed]
  · exact (Padded.lockstep.document padded).symm

/-- White texts stay white. -/
theorem all_join_insert {front back : List (List Char)} (nonempty : front ++ back ≠ []) :
    (Text.join '\n' (front ++ [] :: back)).all (fun c => c == '\n') =
      (Text.join '\n' (front ++ back)).all fun c => c == '\n' := by
  rcases padded_join_insert nonempty with first | padded
  · rw [first]
    rfl
  · exact (padded.all_eq (p := fun c => c == '\n') rfl).symm

end ClassDiagram.Draft
