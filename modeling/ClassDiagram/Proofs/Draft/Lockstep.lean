import ClassDiagram.Proofs.Draft.Steps

set_option autoImplicit false

namespace ClassDiagram.Draft

open Text (isBlank run afterRun unescape)

variable {R : List Char → List Char → Prop} {α β : Type}

/-- Two outcomes say the same: one value with related texts left, or faults of one cause. -/
inductive Outcome.Agree (R : List Char → List Char → Prop) : Outcome α → Outcome α → Prop
  | ok (value : α) {s t : List Char} (left : R s t) : Agree R (.ok (value, s)) (.ok (value, t))
  | error {first second : Fault} (cause : first.cause = second.cause) :
      Agree R (.error first) (.error second)

theorem Outcome.Agree.andThen {first second : Outcome α} {next other : α → List Char → Outcome β}
    (agree : Outcome.Agree R first second)
    (more : ∀ value s t, first = .ok (value, s) → R s t →
      Outcome.Agree R (next value s) (other value t)) :
    Outcome.Agree R (first.andThen next) (second.andThen other) := by
  cases agree with
  | ok value left => exact more value _ _ rfl left
  | error cause => exact .error cause

/-- What makes two texts alike for every reader: they can be read side by side, each step leaving
related texts again. -/
structure Lockstep (R : List Char → List Char → Prop) : Prop where
  run_eq : ∀ {s t}, R s t → run s = run t
  afterRun : ∀ {s t}, R s t → R (afterRun s) (afterRun t)
  skipSeparators : ∀ {s t}, R s t → R (skipSeparators s) (skipSeparators t)
  skipGap : ∀ {s t}, R s t → R (skipGap s) (skipGap t)
  /-- At the end of a compartment separators need not agree. -/
  separated_eq : ∀ {s t}, R s t → Draft.skipSeparators s ≠ [] → separated s = separated t
  opens : ∀ {s t}, R s t →
    (∃ r u, s = '[' :: r ∧ t = '[' :: u ∧ R r u) ∨
      (∀ r, s ≠ '[' :: r) ∧ ∀ u, t ≠ '[' :: u
  next : ∀ {s t}, R s t →
    (Draft.skipGap s = [] ∧ Draft.skipGap t = []) ∨
      ∃ c r u, Draft.skipGap s = c :: r ∧ Draft.skipGap t = c :: u ∧ R r u

def BodyReader.Keeps (body : BodyReader) (R : List Char → List Char → Prop) : Prop :=
  ∀ {s t}, R s t → Outcome.Agree R (body.read s) (body.read t)

namespace Lockstep

variable {body : BodyReader}

theorem atBoundary_eq (lock : Lockstep R) {s t : List Char} (related : R s t) :
    atBoundary s = atBoundary t := by
  unfold atBoundary
  rcases lock.next related with ⟨hs, ht⟩ | ⟨c, r, u, hs, ht, -⟩
  · rw [hs, ht]
  · rw [hs, ht]

/-- The chains after related texts are alike: the link between two classifiers is the same run. -/
theorem links (lock : Lockstep R) (keeps : body.Keeps R) (source : Classifier)
    {s t : List Char} (related : R s t) :
    Outcome.Agree R (links body source s) (links body source t) := by
  rw [links_eq, links_eq, ← lock.run_eq related]
  split
  · exact .ok _ related
  · rcases lock.opens (lock.afterRun related) with ⟨r, u, hs, ht, inner⟩ | ⟨hs, ht⟩
    · rw [hs, ht]
      apply (keeps inner).andThen
      intro target rest rest' read after
      split
      · exact .error rfl
      · have shorter := (target_progress hs read).2
        apply (lock.links keeps target after).andThen
        intro chain left left' _ final
        exact .ok _ final
    · split
      · next inner opens => exact absurd opens (hs inner)
      · exact .error rfl
termination_by s.length

theorem slot (lock : Lockstep R) (keeps : body.Keeps R) {s t : List Char} (related : R s t) :
    Outcome.Agree R (slot body s) (slot body t) := by
  rcases lock.opens related with ⟨r, u, rfl, rfl, inner⟩ | ⟨hs, ht⟩
  · rw [slot_eq, slot_eq]
    apply (keeps inner).andThen
    intro first rest rest' _ after
    exact lock.links keeps first after
  · rw [slot_line hs, slot_line ht, lock.run_eq related]
    exact .ok _ (lock.afterRun related)

theorem slots (lock : Lockstep R) (keeps : body.Keeps R) {s t : List Char} (related : R s t) :
    Outcome.Agree R (slots body s) (slots body t) := by
  have skipped := lock.skipSeparators related
  rw [slots_eq, slots_eq, ← lock.atBoundary_eq skipped]
  split
  · exact .ok _ skipped
  · next inside =>
      apply (lock.slot keeps skipped).andThen
      intro piece rest rest' read after
      have behind := lock.skipSeparators after
      -- where the compartment ends one text may have a separator that the other lacks
      rw [← lock.atBoundary_eq behind]
      split
      · exact .ok _ behind
      · next outside =>
          have nonempty : Draft.skipSeparators rest ≠ [] := by
            intro nothing
            rw [nothing] at outside
            exact outside rfl
          rw [← lock.separated_eq after nonempty]
          split
          · have shorter := (slot_progress inside read).2
            apply (lock.slots keeps after).andThen
            intro more left left' _ final
            exact .ok _ final
          · exact .error rfl
termination_by s.length

theorem compartments (lock : Lockstep R) (keeps : body.Keeps R) {s t : List Char}
    (related : R s t) :
    Outcome.Agree R (compartments body s) (compartments body t) := by
  rw [compartments_eq, compartments_eq]
  apply (lock.slots keeps related).andThen
  intro first rest rest' read after
  rcases lock.next after with ⟨hs, ht⟩ | ⟨c, r, u, hs, ht, behind⟩
  · rw [hs, ht]
    exact .ok _ after
  · rw [hs, ht]
    by_cases bar : c = '|'
    · subst bar
      have shorter := (bar_progress read hs).2
      apply (lock.compartments keeps (lock.skipGap behind)).andThen
      intro more left left' _ final
      exact .ok _ final
    · split
      · next bar' => exact absurd (List.cons.inj bar').1 bar
      · split
        · next bar' => exact absurd (List.cons.inj bar').1 bar
        · exact .ok _ after
termination_by s.length

theorem closed (lock : Lockstep R) (keeps : body.Keeps R) {s t : List Char} (related : R s t) :
    Outcome.Agree R (closed body s) (closed body t) := by
  rw [closed_eq, closed_eq]
  apply (lock.compartments keeps related).andThen
  intro parts rest rest' _ after
  rcases lock.next after with ⟨hs, ht⟩ | ⟨c, r, u, hs, ht, behind⟩
  · rw [hs, ht]
    exact .error rfl
  · rw [hs, ht]
    by_cases bracket : c = ']'
    · subst bracket
      exact .ok _ behind
    · split
      · next bracket' => exact absurd (List.cons.inj bracket').1 bracket
      · split
        · next bracket' => exact absurd (List.cons.inj bracket').1 bracket
        · exact .error rfl

theorem classifier (lock : Lockstep R) (levels : Nat) : (classifier levels).Keeps R := by
  induction levels with
  | zero => exact fun _ => .error rfl
  | succ levels ih => exact fun related => lock.closed ih related

/-- Related texts are the same document, or are refused for the same cause. -/
theorem document (lock : Lockstep R) {s t : List Char} (related : R s t) :
    (document s).mapError Fault.cause = (document t).mapError Fault.cause := by
  have agree := lock.slots (lock.classifier nestingLimit) related
  rw [document.eq_def, document.eq_def]
  generalize Draft.slots (Draft.classifier nestingLimit) s = first at agree
  generalize Draft.slots (Draft.classifier nestingLimit) t = second at agree
  cases agree with
  | error cause => exact congrArg Except.error cause
  | ok root left =>
      rcases lock.next left with ⟨hs, ht⟩ | ⟨c, r, u, hs, ht, -⟩
      · simp only [hs, ht]
      · simp only [hs, ht]
        rfl

end Lockstep
end ClassDiagram.Draft
