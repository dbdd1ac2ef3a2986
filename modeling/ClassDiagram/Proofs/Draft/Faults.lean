import ClassDiagram.Proofs.Draft.Steps
import ClassDiagram.Proofs.Text.Bytes
import ClassDiagram.Proofs.Text.Escape

set_option autoImplicit false

namespace ClassDiagram.Draft

open Text (isBlank run afterRun endsRun)

/-- Where a fault shows when `s` is read. -/
structure Fault.Within (fault : Fault) (s : List Char) : Prop where
  begins : fault.start <:+ s
  feedless : fault.start.head? ≠ some '\n'
  stops : fault.cause ≠ .missingSeparator ∧ ProperTail fault.stop fault.start ∨
    fault.cause = .missingSeparator ∧ fault.stop = fault.start ∧ fault.start ≠ []

theorem Fault.Within.of_suffix {fault : Fault} {s t : List Char} (within : fault.Within s)
    (tail : s <:+ t) : fault.Within t :=
  { within with begins := within.begins.trans tail }

/-- A fault of a reader of bodies shows at the bracket or behind it. -/
def BodyReader.Points (body : BodyReader) : Prop :=
  ∀ {s : List Char} {fault : Fault}, body.read s = .error fault → fault.Within ('[' :: s)

variable {body : BodyReader}

/-- A run that is not blank begins with a character of its own. -/
theorem run_not_blank {s : List Char} (text : ¬ isBlank (run s) = true) :
    s.head? ≠ some '\n' ∧ ProperTail (afterRun s) s := by
  cases s with
  | nil => exact absurd rfl text
  | cons c r =>
      have goes : endsRun c = false := by
        cases ends : endsRun c with
        | false => rfl
        | true =>
            rw [run, Text.cutRun_stop ends] at text
            exact absurd rfl text
      refine ⟨?_, Text.afterRun_suffix _, Text.afterRun_length_lt goes⟩
      rintro ⟨⟩
      cases goes

theorem links_within (points : body.Points) {source : Classifier} {s : List Char} {fault : Fault}
    (refused : links body source s = .error fault) : fault.Within s := by
  fun_induction links body source s with
  | case1 => cases refused
  | case2 source s text inner opens found hr =>
      cases refused
      have behind := Text.afterRun_suffix s
      rw [opens] at behind
      exact (points hr).of_suffix behind
  | case3 source s text inner opens target rest hr arrow =>
      cases refused
      obtain ⟨feedless, -⟩ := run_not_blank text
      exact ⟨List.suffix_rfl, feedless, .inl ⟨by simp, target_progress opens hr⟩⟩
  | case4 source s text inner opens target rest hr link hl found more ih =>
      cases refused
      exact (ih more).of_suffix (target_progress opens hr).1
  | case5 => cases refused
  | case6 source s text =>
      cases refused
      obtain ⟨feedless, behind⟩ := run_not_blank text
      exact ⟨List.suffix_rfl, feedless, .inl ⟨by simp, behind⟩⟩

theorem slot_within (points : body.Points) {s : List Char} {fault : Fault}
    (refused : slot body s = .error fault) : fault.Within s := by
  rw [slot.eq_def] at refused
  split at refused
  · next inner =>
      split at refused
      · next found hr =>
          cases refused
          exact points hr
      · next first rest hr =>
          have inside := properTail_of_suffix (body.progress hr).1 (properTail_cons '[' inner)
          exact (links_within points refused).of_suffix inside.1
  · cases refused

/-- Behind separators that are no end of a compartment something stands, and no line feed. -/
theorem skipSeparators_inside {s : List Char} (inside : ¬ atBoundary (skipSeparators s) = true) :
    skipSeparators s ≠ [] ∧ (skipSeparators s).head? ≠ some '\n' := by
  refine ⟨fun nothing => inside (by rw [nothing]; rfl), fun feed => ?_⟩
  have dark := List.head?_dropWhile_not isSlotGap s
  rw [show (s.dropWhile isSlotGap).head? = some '\n' from feed] at dark
  cases dark

theorem slots_within (points : body.Points) {s : List Char} {fault : Fault}
    (refused : slots body s = .error fault) : fault.Within s := by
  fun_induction slots body s with
  | case1 => cases refused
  | case2 s inside found hp =>
      cases refused
      exact (slot_within points hp).of_suffix (skipSeparators_suffix s)
  | case3 s inside piece rest hp apart found more ih =>
      cases refused
      exact (ih more).of_suffix (slot_progress inside hp).1
  | case4 => cases refused
  | case5 => cases refused
  | case6 s inside piece rest hp apart other =>
      cases refused
      obtain ⟨something, feedless⟩ := skipSeparators_inside other
      exact ⟨(skipSeparators_suffix rest).trans (slot_progress inside hp).1, feedless,
        .inr ⟨rfl, rfl, something⟩⟩

theorem compartments_within (points : body.Points) {s : List Char} {fault : Fault}
    (refused : compartments body s = .error fault) : fault.Within s := by
  fun_induction compartments body s with
  | case1 s found hs =>
      cases refused
      exact slots_within points hs
  | case2 s first rest hs next bar found more ih =>
      cases refused
      exact (ih more).of_suffix (bar_progress hs bar).1
  | case3 => cases refused
  | case4 => cases refused

theorem closed_within (points : body.Points) {s : List Char} {fault : Fault}
    (refused : closed body s = .error fault) : fault.Within ('[' :: s) := by
  rw [closed.eq_def] at refused
  split at refused
  · next found hc =>
      cases refused
      exact (compartments_within points hc).of_suffix (List.suffix_cons '[' s)
  · next parts rest hc =>
      split at refused
      · cases refused
      · cases refused
        have behind := (skipGap_suffix rest).trans (compartments_suffix hc)
        have inside := properTail_of_suffix behind (properTail_cons '[' s)
        exact ⟨List.suffix_rfl, by simp, .inl ⟨by simp, inside⟩⟩

theorem classifier_points (levels : Nat) : (classifier levels).Points := by
  induction levels with
  | zero =>
      intro s fault refused
      cases refused
      exact ⟨List.suffix_rfl, by simp, .inl ⟨by simp, properTail_cons '[' s⟩⟩
  | succ levels ih =>
      intro s fault refused
      exact closed_within ih refused

theorem document_within {s : List Char} {fault : Fault} (refused : document s = .error fault) :
    fault.Within s := by
  rcases slots_of_document_error refused with inside | ⟨root, rest, c, left, read, more, rfl⟩
  · exact slots_within (classifier_points nestingLimit) inside
  · have behind := (skipGap_suffix rest).trans (slots_suffix read)
    have dark := List.head?_dropWhile_not Text.isGap rest
    rw [show rest.dropWhile Text.isGap = c :: left from more] at dark
    rw [more] at behind
    refine ⟨behind, ?_, .inl ⟨by simp, properTail_cons c left⟩⟩
    rintro ⟨⟩
    cases dark

/-- The stretch at fault begins at a character other than a line feed. It ends behind that character
or further on, unless a separator is missing: then it has one byte. -/
theorem Fault.Within.span {fault : Fault} {s : List Char} (within : fault.Within s) :
    ∃ before c after, s = before ++ c :: after ∧ c ≠ '\n' ∧
      (fault.span s).start = Text.byteLength before ∧
      ((fault.cause ≠ .missingSeparator ∧ ∃ middle rest, after = middle ++ rest ∧
          (fault.span s).stop = Text.byteLength (before ++ c :: middle)) ∨
        fault.cause = .missingSeparator ∧ (fault.span s).stop = Text.byteLength before + 1) := by
  obtain ⟨before, whole⟩ := within.begins
  have something : fault.start ≠ [] := by
    rintro nothing
    rcases within.stops with ⟨-, -, less⟩ | ⟨-, -, more⟩
    · simp [nothing] at less
    · exact more nothing
  obtain ⟨c, after, shape⟩ := List.exists_cons_of_ne_nil something
  have feedless : c ≠ '\n' := fun feed => within.feedless (by rw [shape, feed]; rfl)
  have size := c.utf8Size_pos
  rw [shape] at whole
  have start : Fault.offset s fault.start = Text.byteLength before := by
    rw [shape, ← whole, offset_of_append]
  have total : Text.byteLength s =
      Text.byteLength before + (c.utf8Size + Text.byteLength after) := by
    rw [← whole, Text.byteLength_append, Text.byteLength_cons]
  refine ⟨before, c, after, whole.symm, feedless, start, ?_⟩
  rcases within.stops with ⟨other, tail, less⟩ | ⟨cause, same, -⟩
  · refine .inl ⟨other, ?_⟩
    rw [shape] at tail less
    obtain ⟨middle, behind⟩ : fault.stop <:+ after := by
      rcases List.suffix_cons_iff.1 tail with whole | behind
      · rw [whole] at less
        exact absurd less (Nat.lt_irrefl _)
      · exact behind
    have stop : Fault.offset s fault.stop = Text.byteLength (before ++ c :: middle) := by
      rw [← whole, ← behind, ← List.cons_append, ← List.append_assoc, offset_of_append]
    refine ⟨middle, fault.stop, behind.symm, ?_⟩
    simp only [← behind, Text.byteLength_append, Text.byteLength_cons] at total stop ⊢
    rw [Fault.span, stop, start, Span.between_stop (by omega)]
    omega
  · refine .inr ⟨cause, ?_⟩
    rw [Fault.span, same, start, Span.between_stop (by omega)]
    omega

/-- No stretch reaches past the end of the text. -/
theorem Fault.span_stop_le (fault : Fault) (s : List Char) :
    (fault.span s).stop ≤ Text.byteLength s := by
  simp only [Fault.span, Span.between, Fault.offset]
  omega

/-- A refusal is the report of one fault that shows in the text. -/
theorem exists_fault {text : String} {diagnostic : Diagnostic}
    (refused : ofText? text = .error diagnostic) :
    ∃ fault : Fault, fault.Within text.toList ∧ diagnostic = fault.toDiagnostic text.toList := by
  obtain ⟨fault, found, report⟩ := ofText?_eq_error_iff.1 refused
  exact ⟨fault, document_within found, report⟩

/-- Only for a missing separator is the cause told in these words. -/
theorem Cause.message_eq_iff (cause : Cause) :
    cause.message = Cause.missingSeparator.message ↔ cause = .missingSeparator := by
  constructor
  · intro same
    cases cause with
    | missingSeparator => rfl
    | unexpected found =>
        have letters := congrArg String.toList same
        simp [message, String.toList_append] at letters
    | nestedTooDeeply | unclosedClassifier | missingArrow | missingTarget =>
        exact absurd same (by decide)
  · rintro rfl
    rfl

/-- What is marked in a refused text begins at a character. It ends between characters as well,
except that only the first byte of a character of several bytes is marked where a separator is
missing. -/
theorem ofText?_span_boundaries {text : String} {diagnostic : Diagnostic}
    (refused : ofText? text = .error diagnostic) :
    ∃ label before c after, diagnostic.labels = [label] ∧
      text.toList = before ++ c :: after ∧ label.span.start = Text.byteLength before ∧
      (⟨label.span.start⟩ : String.Pos.Raw).IsValid text ∧
      ((⟨label.span.stop⟩ : String.Pos.Raw).IsValid text ↔
        ¬ (diagnostic.message = Cause.missingSeparator.message ∧ 1 < c.utf8Size)) := by
  obtain ⟨fault, within, rfl⟩ := exists_fault refused
  obtain ⟨before, c, after, whole, -, start, stop⟩ := within.span
  refine ⟨_, before, c, after, rfl, whole, start, ?_, ?_⟩
  · exact Text.isValid_iff.2 ⟨before, c :: after, whole, start.symm⟩
  · rw [show (fault.toDiagnostic text.toList).message = fault.cause.message from rfl,
      Cause.message_eq_iff]
    rcases stop with ⟨other, middle, rest, shape, place⟩ | ⟨cause, place⟩
    · refine iff_of_true ?_ fun both => other both.1
      refine Text.isValid_iff.2 ⟨before ++ c :: middle, rest, ?_, place.symm⟩
      rw [whole, shape, List.append_assoc, List.cons_append]
    · simp only [cause, true_and, Nat.not_lt, place]
      constructor
      · intro valid
        refine Nat.le_of_not_lt fun wide => ?_
        exact Text.not_isValid_inside whole Nat.one_pos wide valid
      · intro narrow
        have size := c.utf8Size_pos
        refine Text.isValid_iff.2 ⟨before ++ [c], after, by simp [whole], ?_⟩
        rw [Text.byteLength_append, Text.byteLength_cons, Text.byteLength_nil]
        omega

/-- An ideographic space is blank, so no association begins there, but it is no separator. -/
theorem ofText?_space :
    ofText? "[A]\u3000[B]" = .error (Fault.toDiagnostic
      ⟨.missingSeparator, "\u3000[B]".toList, "\u3000[B]".toList⟩ "[A]\u3000[B]".toList) := by
  have reached : (match ofText? "[A]\u3000[B]" with
      | .ok _ => none
      | .error diagnostic => some diagnostic) = some (Fault.toDiagnostic
      ⟨.missingSeparator, "\u3000[B]".toList, "\u3000[B]".toList⟩ "[A]\u3000[B]".toList) := by
    decide +kernel
  cases refused : ofText? "[A]\u3000[B]" with
  | ok root =>
      rw [refused] at reached
      cases reached
  | error diagnostic =>
      rw [refused] at reached
      rw [Option.some.inj reached]

theorem ofText?_span_boundaries_of_space :
    ∃ diagnostic, ofText? "[A]\u3000[B]" = .error diagnostic ∧
      ∃ label before c after, diagnostic.labels = [label] ∧
        "[A]\u3000[B]".toList = before ++ c :: after ∧
        label.span.start = Text.byteLength before ∧
        (⟨label.span.start⟩ : String.Pos.Raw).IsValid "[A]\u3000[B]" ∧
        ((⟨label.span.stop⟩ : String.Pos.Raw).IsValid "[A]\u3000[B]" ↔
          ¬ (diagnostic.message = Cause.missingSeparator.message ∧ 1 < c.utf8Size)) :=
  ⟨_, ofText?_space, ofText?_span_boundaries ofText?_space⟩

/-- The mark on the space ends inside it. -/
theorem ofText?_span_inside_character :
    ∃ diagnostic label, ofText? "[A]\u3000[B]" = .error diagnostic ∧
      diagnostic.labels = [label] ∧ label.span.start = 3 ∧ label.span.stop = 4 ∧
      ¬ (⟨label.span.stop⟩ : String.Pos.Raw).IsValid "[A]\u3000[B]" := by
  have whole : "[A]\u3000[B]".toList = "[A]".toList ++ '\u3000' :: "[B]".toList := rfl
  refine ⟨_, _, ofText?_space, rfl, by decide, by decide, ?_⟩
  exact Text.not_isValid_inside whole Nat.one_pos (by decide)

end ClassDiagram.Draft
