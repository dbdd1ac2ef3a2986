import ClassDiagram.Proofs.Draft.Faults

set_option autoImplicit false

/-!
A reader treats a line feed as it treats the end of the text, except that it may look for more
classifiers and compartments behind it.
-/
namespace ClassDiagram.Draft

open Text (isBlank run afterRun unescape isSeparator)

def Fault.followedBy (fault : Fault) (tail : List Char) : Fault :=
  ⟨fault.cause, fault.start ++ tail, fault.stop ++ tail⟩

/-- Nothing is left but what may stand before a closing bracket. -/
def Exhausted (rest : List Char) : Prop := skipGap rest = []

/-- What a reader says of a text still holds when `tail` follows, with two exceptions: a classifier
that is not closed may be closed in `tail`, and where the remaining text is `loose` the reader may
go on into `tail`. -/
inductive Outcome.Kept {α : Type} (loose : List Char → Prop) (tail : List Char) :
    Outcome α → Outcome α → Prop
  | ok (value : α) (rest : List Char) :
      Kept loose tail (.ok (value, rest)) (.ok (value, rest ++ tail))
  | error (fault : Fault) : Kept loose tail (.error fault) (.error (fault.followedBy tail))
  | unclosed {fault : Fault} (cause : fault.cause = .unclosedClassifier) (other : Outcome α) :
      Kept loose tail (.error fault) other
  | ended (value : α) {rest : List Char} (slack : loose rest) (other : Outcome α) :
      Kept loose tail (.ok (value, rest)) other

theorem Outcome.Kept.andThen {α β : Type} {loose looser : List Char → Prop} {tail : List Char}
    {first second : Outcome α} {next other : α → List Char → Outcome β}
    (kept : Outcome.Kept loose tail first second)
    (more : ∀ value rest, first = .ok (value, rest) →
      Outcome.Kept looser tail (next value rest) (other value (rest ++ tail)))
    (ended : ∀ value rest, loose rest →
      ∀ result, Outcome.Kept looser tail (next value rest) result) :
    Outcome.Kept looser tail (first.andThen next) (second.andThen other) := by
  cases kept with
  | ok value rest => exact more value rest rfl
  | error fault => exact .error fault
  | unclosed cause _ => exact .unclosed cause _
  | ended value slack _ => exact ended value _ slack _

/-- A reader of bodies stops at a closing bracket, so nothing it read depends on what follows. -/
def BodyReader.Stays (body : BodyReader) (tail : List Char) : Prop :=
  ∀ s, Outcome.Kept (fun _ => False) tail (body.read s) (body.read (s ++ tail))

variable {s : List Char}

theorem skipGap_append (more : skipGap s ≠ []) (tail : List Char) :
    skipGap (s ++ tail) = skipGap s ++ tail := by
  rw [skipGap, List.dropWhile_append, if_neg (by simpa [skipGap] using more)]
  rfl

theorem skipSeparators_append (more : skipSeparators s ≠ []) (tail : List Char) :
    skipSeparators (s ++ tail) = skipSeparators s ++ tail := by
  rw [skipSeparators, List.dropWhile_append, if_neg (by simpa [skipSeparators] using more)]
  rfl

theorem atBoundary_append (more : ¬ Exhausted s) (tail : List Char) :
    atBoundary (s ++ tail) = atBoundary s := by
  rw [atBoundary, atBoundary, skipGap_append more]
  cases skip : skipGap s with
  | nil => exact absurd skip more
  | cons c r => rfl

theorem ne_nil_of_not_exhausted (more : ¬ Exhausted s) : s ≠ [] := by
  rintro rfl
  exact more rfl

theorem separated_append (more : skipSeparators s ≠ []) (tail : List Char) :
    separated (s ++ tail) = separated s := by
  have partial_ : (s.takeWhile isSlotGap).length ≠ s.length := by
    intro all
    have whole := congrArg List.length (List.takeWhile_append_dropWhile (p := isSlotGap) (l := s))
    rw [List.length_append, all] at whole
    exact more (List.length_eq_zero_iff.1 (by rw [skipSeparators]; omega))
  rw [separated, List.takeWhile_append, if_neg partial_]
  rfl

variable {body : BodyReader} {more : List Char}

theorem links_kept (stays : body.Stays ('\n' :: more)) (source : Classifier) (s : List Char) :
    Outcome.Kept (fun _ => False) ('\n' :: more) (links body source s)
      (links body source (s ++ '\n' :: more)) := by
  rw [links_eq, links_eq, Text.run_append_feed, Text.afterRun_append_feed]
  split
  · exact .ok _ s
  · split
    · next inner opens =>
        rw [opens, List.cons_append]
        refine (stays inner).andThen (fun target rest read => ?_) fun _ _ never => never.elim
        split
        · exact .error ⟨.missingArrow, s, rest⟩
        · have shorter := (target_progress opens read).2
          refine (links_kept stays target rest).andThen (fun chain left _ => .ok _ left)
            fun _ _ never => never.elim
    · next other =>
        have closes : ∀ inner, afterRun s ++ '\n' :: more ≠ '[' :: inner := by
          intro inner opens
          cases left : afterRun s with
          | nil =>
              rw [left] at opens
              cases opens
          | cons c r =>
              rw [left] at opens
              exact other r (by rw [left, (List.cons.inj opens).1])
        split
        · next inner opens => exact absurd opens (closes inner)
        · exact .error ⟨.missingTarget, s, afterRun s⟩
termination_by s.length

theorem slot_kept (stays : body.Stays ('\n' :: more)) (something : s ≠ []) :
    Outcome.Kept (fun _ => False) ('\n' :: more) (slot body s) (slot body (s ++ '\n' :: more)) := by
  obtain ⟨c, r, rfl⟩ := List.exists_cons_of_ne_nil something
  by_cases opens : c = '['
  · subst opens
    rw [List.cons_append, slot_eq, slot_eq]
    exact (stays r).andThen (fun first rest _ => links_kept stays first rest)
      fun _ _ never => never.elim
  · have line : ∀ t inner, c :: t ≠ '[' :: inner := fun _ _ same => opens (List.cons.inj same).1
    rw [slot_line (line r), List.cons_append, slot_line (line (r ++ '\n' :: more)),
      ← List.cons_append, Text.run_append_feed, Text.afterRun_append_feed]
    exact .ok _ _

/-- The slots of a compartment stay as they are, unless the compartment reaches up to the end of the
text: then there may be more of them behind the line feed. -/
theorem slots_kept (stays : body.Stays ('\n' :: more)) (s : List Char) :
    Outcome.Kept Exhausted ('\n' :: more) (slots body s) (slots body (s ++ '\n' :: more)) := by
  rw [slots_eq, slots_eq]
  by_cases exhausted : Exhausted (skipSeparators s)
  · rw [if_pos (by rw [atBoundary, exhausted])]
    exact .ended _ exhausted _
  · rw [skipSeparators_append (ne_nil_of_not_exhausted exhausted), atBoundary_append exhausted]
    split
    · exact .ok _ _
    · next inside =>
        refine (slot_kept stays (ne_nil_of_not_exhausted exhausted)).andThen
          (fun piece rest read => ?_) fun _ _ never => never.elim
        by_cases last : Exhausted (skipSeparators rest)
        · rw [if_pos (by rw [atBoundary, last])]
          exact .ended _ last _
        · have left := ne_nil_of_not_exhausted last
          rw [skipSeparators_append left, atBoundary_append last, separated_append left]
          split
          · exact .ok _ _
          · split
            · have shorter := (slot_progress inside read).2
              exact (slots_kept stays rest).andThen (fun others left _ => .ok _ left)
                fun others left slack _ => .ended _ slack _
            · exact .error ⟨.missingSeparator, skipSeparators rest, skipSeparators rest⟩
termination_by s.length

theorem compartments_kept (stays : body.Stays ('\n' :: more)) (s : List Char) :
    Outcome.Kept Exhausted ('\n' :: more) (compartments body s)
      (compartments body (s ++ '\n' :: more)) := by
  rw [compartments_eq, compartments_eq]
  refine (slots_kept stays s).andThen (fun first rest read => ?_) fun first rest slack result => ?_
  · cases left : skipGap rest with
    | nil => exact .ended [first] (show Exhausted rest from left) _
    | cons c next =>
        rw [skipGap_append (by simp [left]), left, List.cons_append]
        by_cases bar : c = '|'
        · subst bar
          show Outcome.Kept Exhausted _ ((compartments body (skipGap next)).andThen _)
            ((compartments body (skipGap (next ++ _))).andThen _)
          by_cases last : Exhausted next
          · -- a bar at the end of the text: one empty compartment, and more may follow
            have empty : compartments body [] = .ok ([.empty], []) :=
              compartments_end (slots_end rfl) (by simp [skipGap])
            rw [show skipGap next = [] from last, empty]
            exact .ended [first, .empty] (show Exhausted [] from rfl) _
          · have shorter := (bar_progress read left).2
            rw [skipGap_append last]
            exact (compartments_kept stays (skipGap next)).andThen (fun others left _ => .ok _ left)
              fun others left slack _ => .ended _ slack _
        · have barless : ∀ t u, c :: t ≠ '|' :: u := fun _ _ same => bar (List.cons.inj same).1
          split
          · next next' bar' => exact absurd bar' (barless _ _)
          · split
            · next next' bar' => exact absurd bar' (barless _ _)
            · exact .ok _ rest
  · rw [show skipGap rest = [] from slack]
    exact .ended _ slack _
termination_by s.length

theorem closed_kept (stays : body.Stays ('\n' :: more)) (s : List Char) :
    Outcome.Kept (fun _ => False) ('\n' :: more) (closed body s)
      (closed body (s ++ '\n' :: more)) := by
  rw [closed_eq, closed_eq]
  refine (compartments_kept stays s).andThen (fun parts rest _ => ?_) fun parts rest slack _ => ?_
  · cases left : skipGap rest with
    | nil => exact .unclosed rfl _
    | cons c next =>
        rw [skipGap_append (by simp [left]), left, List.cons_append]
        split
        · next left' bracket =>
            cases bracket
            exact .ok _ _
        · exact .unclosed rfl _
  · rw [show skipGap rest = [] from slack]
    exact .unclosed rfl _

theorem classifier_stays (levels : Nat) (more : List Char) :
    (classifier levels).Stays ('\n' :: more) := by
  induction levels with
  | zero => exact fun s => .error ⟨.nestedTooDeeply, '[' :: s, s⟩
  | succ levels ih => exact closed_kept ih

/-- A fault stays what and where it is, unless it is a classifier that is not closed. -/
theorem document_append_feed {s : List Char} {fault : Fault} (refused : document s = .error fault)
    (closed : fault.cause ≠ .unclosedClassifier) (more : List Char) :
    document (s ++ '\n' :: more) = .error (fault.followedBy ('\n' :: more)) := by
  have kept := slots_kept (classifier_stays nestingLimit more) s
  rw [document.eq_def] at refused ⊢
  generalize slots (classifier nestingLimit) s = first at kept refused
  generalize slots (classifier nestingLimit) (s ++ '\n' :: more) = second at kept
  cases kept with
  | error found =>
      cases refused
      rfl
  | unclosed cause _ =>
      cases refused
      exact absurd cause closed
  | ended root slack _ =>
      simp only [show skipGap _ = [] from slack] at refused
      cases refused
  | ok root rest =>
      cases left : skipGap rest with
      | nil =>
          simp only [left] at refused
          cases refused
      | cons found next =>
          simp only [left] at refused
          cases refused
          simp only [skipGap_append (show skipGap rest ≠ [] by simp [left]), left, List.cons_append]
          rfl

/-- What stands behind a text does not move the marks in it. -/
theorem Fault.Within.span_followedBy {fault : Fault} {s : List Char} (within : fault.Within s)
    (tail : List Char) : (fault.followedBy tail).span (s ++ tail) = fault.span s := by
  have start : offset (s ++ tail) (fault.start ++ tail) = offset s fault.start := by
    simp only [offset, Text.byteLength_append]
    omega
  have stop : offset (s ++ tail) (fault.stop ++ tail) = offset s fault.stop := by
    simp only [offset, Text.byteLength_append]
    omega
  have room : offset s fault.start + 1 ≤ Text.byteLength s := by
    obtain ⟨before, c, after, whole, -, place, -⟩ := within.span
    have size := c.utf8Size_pos
    have here : offset s fault.start = Text.byteLength before := place
    rw [here, whole, Text.byteLength_append, Text.byteLength_cons]
    omega
  have inside : offset s fault.stop ≤ Text.byteLength s := Nat.sub_le _ _
  rw [Fault.span, Fault.span]
  simp only [followedBy, start, stop, Text.byteLength_append]
  congr 1
  omega

/-- A refusal is final, whatever follows on further lines, unless a classifier is not closed. -/
theorem ofText?_append_line {text : String} {diagnostic : Diagnostic}
    (refused : ofText? text = .error diagnostic)
    (closed : diagnostic.code ≠ some .unclosedClassifier) (more : String) :
    ofText? (text ++ "\n" ++ more) = .error diagnostic := by
  have letters : (text ++ "\n" ++ more).toList = text.toList ++ '\n' :: more.toList := by
    simp [String.toList_append]
  rw [ofText?] at refused
  split at refused
  · cases refused
  · next fault found =>
      cases refused
      have cause : fault.cause ≠ .unclosedClassifier := by
        intro unclosed
        exact closed (congrArg (fun cause => some (Cause.code cause)) unclosed)
      have again := document_append_feed found cause more.toList
      have marks := (document_within found).span_followedBy ('\n' :: more.toList)
      simp only [ofText?, letters, again, Fault.toDiagnostic, marks]
      rfl

/-- The target of an association has to follow on the same line. -/
theorem ofText?_append_line_of_dangling :
    ∃ diagnostic, ofText? "[A|[B] uses ->" = .error diagnostic ∧
      diagnostic.code ≠ some .unclosedClassifier ∧
      ofText? ("[A|[B] uses ->" ++ "\n" ++ "[C]]") = .error diagnostic := by
  have code : (match ofText? "[A|[B] uses ->" with
      | .ok _ => none
      | .error diagnostic => diagnostic.code) = some .missingTarget := by
    decide +kernel
  cases refused : ofText? "[A|[B] uses ->" with
  | ok root =>
      rw [refused] at code
      cases code
  | error diagnostic =>
      rw [refused] at code
      have closed : diagnostic.code ≠ some .unclosedClassifier := by simp [code]
      exact ⟨diagnostic, rfl, closed, ofText?_append_line refused closed "[C]]"⟩

end ClassDiagram.Draft
