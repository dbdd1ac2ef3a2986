import ClassDiagram.Proofs.Draft.Blanks
import ClassDiagram.Proofs.Draft.Brackets

set_option autoImplicit false

namespace ClassDiagram.Draft

open Text (isBlank run afterRun marks isDelimiter)

/-- A classifier that ends in front of `rest` is followed by a link, or its slot ends there. -/
def Finished (rest : List Char) : Prop := isBlank (run rest) = true → endsSlot rest = true

/-- What has to hold of the text behind the bracket or bar `c`. -/
def Settled (c : Char) (rest : List Char) : Prop :=
  (c = ']' → Finished rest) ∧ (c = '|' → ¬ Stray (skipGap rest))

/-- Every bracket and bar that is not escaped is followed by what has to follow it. -/
def Settles (s : List Char) : Prop := ∀ mark ∈ marks s, Settled mark.1 mark.2

variable {body : BodyReader} {s t rest : List Char} {c : Char}

theorem Settles.of_marks_eq (settles : Settles s) (same : marks s = marks t) : Settles t := by
  rw [Settles, ← same]
  exact settles

theorem settles_cons (mark : isDelimiter c = true) (r : List Char) :
    Settles (c :: r) ↔ Settled c r ∧ Settles r := by
  rw [Settles, Text.marks_cons_mark mark]
  exact List.forall_mem_cons

theorem settled_open (r : List Char) : Settled '[' r :=
  ⟨fun closed => absurd closed (by decide), fun bar => absurd bar (by decide)⟩

theorem settled_close {r : List Char} (finished : Finished r) : Settled ']' r :=
  ⟨fun _ => finished, fun bar => absurd bar (by decide)⟩

theorem settled_bar {r : List Char} (free : ¬ Stray (skipGap r)) : Settled '|' r :=
  ⟨fun closed => absurd closed (by decide), fun _ => free⟩

/-- If it goes on as it has to behind a classifier, all is settled in the classifier. -/
def BodyReader.Settling (body : BodyReader) : Prop :=
  ∀ s classifier rest, body.read s = .ok (classifier, rest) → Finished rest → Settles rest →
    Settles s

theorem links_settles (settling : body.Settling) {source : Classifier} {chain : Compartment}
    (read : links body source s = .ok (chain, rest)) (ended : endsSlot rest = true)
    (settles : Settles rest) : Finished s ∧ Settles s := by
  fun_induction links body source s generalizing chain rest with
  | case1 source s blank =>
      cases read
      exact ⟨fun _ => ended, settles⟩
  | case2 => cases read
  | case3 => cases read
  | case4 => cases read
  | case5 source s text inner opens target middle hr link hl more left hm ih =>
      cases read
      obtain ⟨finished, behind⟩ := ih hm ended settles
      have inside := settling _ _ _ hr finished behind
      have whole : Settles (afterRun s) := by
        rw [opens, settles_cons (by decide)]
        exact ⟨settled_open inner, inside⟩
      exact ⟨fun blank => absurd blank text, whole.of_marks_eq (Text.marks_afterRun s)⟩
  | case6 => cases read

theorem slot_settles (settling : body.Settling) {piece : Compartment}
    (read : slot body s = .ok (piece, rest)) (ended : endsSlot rest = true)
    (settles : Settles rest) : Settles s := by
  rw [slot.eq_def] at read
  split at read
  · next inner =>
      split at read
      · cases read
      · next first middle hr =>
          obtain ⟨finished, behind⟩ := links_settles settling read ended settles
          rw [settles_cons (by decide)]
          exact ⟨settled_open inner, settling _ _ _ hr finished behind⟩
  · cases read
    exact settles.of_marks_eq (Text.marks_afterRun s)

theorem slots_settles (settling : body.Settling) {compartment : Compartment}
    (read : slots body s = .ok (compartment, rest)) (settles : Settles rest) : Settles s := by
  fun_induction slots body s generalizing compartment rest with
  | case1 s boundary =>
      cases read
      exact settles.of_marks_eq (marks_skipSeparators s)
  | case2 => cases read
  | case3 => cases read
  | case4 s boundary piece middle hp apart more left hm ih =>
      cases read
      have ended : endsSlot middle = true := by rw [endsSlot, apart, Bool.true_or]
      have whole := slot_settles settling hp ended (ih hm settles)
      exact whole.of_marks_eq (marks_skipSeparators s)
  | case5 s boundary piece middle hp apart last =>
      cases read
      have apart : separated middle = false := by simpa using apart
      have ended : endsSlot middle = true := by
        rw [endsSlot, ← atBoundary_skipSeparators_of_not_separated apart, last, Bool.or_true]
      have behind := settles.of_marks_eq (marks_skipSeparators middle)
      exact (slot_settles settling hp ended behind).of_marks_eq (marks_skipSeparators s)
  | case6 => cases read

theorem compartments_stray (body : BodyReader) (stray : Stray s) :
    ∃ fault, compartments body s = .error fault := by
  obtain ⟨fault, refused⟩ := slots_stray body stray
  exact ⟨fault, by rw [compartments_eq, refused, Outcome.andThen_error]⟩

theorem compartments_settles (settling : body.Settling) {parts : List Compartment}
    (read : compartments body s = .ok (parts, rest)) (settles : Settles rest) : Settles s := by
  fun_induction compartments body s generalizing parts rest with
  | case1 => cases read
  | case2 => cases read
  | case3 s first middle hs next bar more left hm ih =>
      cases read
      have free : ¬ Stray (skipGap next) := by
        intro stray
        obtain ⟨fault, refused⟩ := compartments_stray body stray
        rw [hm] at refused
        cases refused
      have behind : Settles (skipGap middle) := by
        rw [bar, settles_cons (by decide)]
        exact ⟨settled_bar free, (ih hm settles).of_marks_eq (marks_skipGap next)⟩
      exact slots_settles settling hs (behind.of_marks_eq (marks_skipGap middle))
  | case4 s first middle hs barless =>
      cases read
      exact slots_settles settling hs settles

theorem closed_settles (settling : body.Settling) {classifier : Classifier}
    (read : closed body s = .ok (classifier, rest)) (finished : Finished rest)
    (settles : Settles rest) : Settles s := by
  rw [closed.eq_def] at read
  split at read
  · cases read
  · next parts middle hc =>
      split at read
      · next left bracket =>
          cases read
          have behind : Settles (skipGap middle) := by
            rw [bracket, settles_cons (by decide)]
            exact ⟨settled_close finished, settles⟩
          exact compartments_settles settling hc (behind.of_marks_eq (marks_skipGap middle))
      · cases read

theorem classifier_settling (levels : Nat) : (classifier levels).Settling := by
  induction levels with
  | zero =>
      intro s found rest read
      cases read
  | succ levels ih =>
      intro s found rest read
      exact closed_settles ih read

/-- In an accepted text all is settled. -/
theorem document_settles {root : Compartment} (read : document s = .ok root) : Settles s := by
  obtain ⟨rest, found, nothing⟩ := exists_of_document read
  have none : marks rest = [] := by
    rw [← marks_skipGap, nothing]
    rfl
  apply slots_settles (classifier_settling nestingLimit) found
  rw [Settles, none]
  exact fun mark mem => absurd mem List.not_mem_nil

end ClassDiagram.Draft
