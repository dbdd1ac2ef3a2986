import ClassDiagram.Proofs.Draft.Offences

set_option autoImplicit false

namespace ClassDiagram.Draft

open Text (bare)

/-- The first outcome is the second, unless the classifiers are nested too deeply for it. -/
inductive Outcome.Shallower {α : Type} : Outcome α → Outcome α → Prop
  | same (outcome : Outcome α) : Shallower outcome outcome
  | tooDeep {fault : Fault} (cause : fault.cause = .nestedTooDeeply) (other : Outcome α) :
      Shallower (.error fault) other

theorem Outcome.Shallower.andThen {α β : Type} {first second : Outcome α}
    {next other : α → List Char → Outcome β} (shallower : Outcome.Shallower first second)
    (more : ∀ value rest, first = .ok (value, rest) →
      Outcome.Shallower (next value rest) (other value rest)) :
    Outcome.Shallower (first.andThen next) (second.andThen other) := by
  cases shallower with
  | tooDeep cause _ => exact .tooDeep cause _
  | same =>
      cases first with
      | error fault => exact .same _
      | ok value => exact more value.1 value.2 rfl

def BodyReader.Shallower (body other : BodyReader) : Prop :=
  ∀ s, Outcome.Shallower (body.read s) (other.read s)

variable {body other : BodyReader}

theorem links_shallower (shallower : body.Shallower other) (source : Classifier) (s : List Char) :
    Outcome.Shallower (links body source s) (links other source s) := by
  rw [links_eq, links_eq]
  split
  · exact .same _
  · split
    · next inner opens =>
        apply (shallower inner).andThen
        intro target rest read
        split
        · exact .same _
        · have less := (target_progress opens read).2
          apply (links_shallower shallower target rest).andThen
          intro chain left _
          exact .same _
    · exact .same _
termination_by s.length

theorem slot_shallower (shallower : body.Shallower other) (s : List Char) :
    Outcome.Shallower (slot body s) (slot other s) := by
  rw [slot_eq, slot_eq]
  split
  · next inner =>
      apply (shallower inner).andThen
      intro first rest _
      exact links_shallower shallower first rest
  · exact .same _

theorem slots_shallower (shallower : body.Shallower other) (s : List Char) :
    Outcome.Shallower (slots body s) (slots other s) := by
  rw [slots_eq, slots_eq]
  split
  · exact .same _
  · next inside =>
      apply (slot_shallower shallower (skipSeparators s)).andThen
      intro piece rest read
      split
      · exact .same _
      · split
        · have less := (slot_progress inside read).2
          apply (slots_shallower shallower rest).andThen
          intro others left _
          exact .same _
        · exact .same _
termination_by s.length

theorem compartments_shallower (shallower : body.Shallower other) (s : List Char) :
    Outcome.Shallower (compartments body s) (compartments other s) := by
  rw [compartments_eq, compartments_eq]
  apply (slots_shallower shallower s).andThen
  intro first rest read
  split
  · next next bar =>
      have less := (bar_progress read bar).2
      apply (compartments_shallower shallower (skipGap next)).andThen
      intro others left _
      exact .same _
  · exact .same _
termination_by s.length

theorem closed_shallower (shallower : body.Shallower other) (s : List Char) :
    Outcome.Shallower (closed body s) (closed other s) := by
  rw [closed_eq, closed_eq]
  apply (compartments_shallower shallower s).andThen
  intro parts rest _
  exact .same _

/-- A level less is missed only where the last level is used. -/
theorem classifier_shallower (levels : Nat) :
    (classifier levels).Shallower (classifier (levels + 1)) := by
  induction levels with
  | zero => exact fun s => .tooDeep rfl _
  | succ levels ih => exact closed_shallower ih

/-- At most `levels` brackets that are not escaped are open anywhere in the text. -/
def Shallow (levels : Nat) (s : List Char) : Prop :=
  ∀ part, part <+: s → (bare part).count '[' ≤ (bare part).count ']' + levels

variable {levels : Nat} {s rest : List Char} {root : Compartment}

theorem shallow_of_slots (read : slots (classifier levels) s = .ok (root, rest))
    (whole : skipGap rest = []) : Shallow levels s := by
  obtain ⟨word, same, accounts⟩ := slots_covers (classifier_balances levels) read
  have nothing : bare rest = [] := by
    rw [← bare_skipGap, whole]
    rfl
  rw [nothing, List.append_nil] at same
  intro part first
  exact (accounts.nested.along (bare part) (same ▸ Text.bare_prefix first)).2

/-- A classifier that is nested too deeply has one bracket more open than there are levels. -/
theorem not_shallow_of_tooDeep {fault : Fault}
    (refused : slots (classifier levels) s = .error fault)
    (cause : fault.cause = .nestedTooDeeply) : ¬ Shallow levels s := by
  obtain ⟨before, marked, after, whole, -, -, offence⟩ := slots_classifier_offends refused
  rw [cause] at offence
  cases offence with
  | nestedTooDeeply unescaped depth =>
      intro shallow
      have opened := shallow (before ++ ['[']) ⟨after, by rw [whole, List.append_assoc]⟩
      obtain ⟨opening, closing⟩ := count_bare_concat_open unescaped
      omega

/-- One level less suffices for a compartment that does not use all levels. -/
theorem slots_of_shallow (read : slots (classifier (levels + 1)) s = .ok (root, rest))
    (shallow : Shallow levels s) : slots (classifier levels) s = .ok (root, rest) := by
  have fewer := slots_shallower (classifier_shallower levels) s
  rw [read] at fewer
  generalize few : slots (classifier levels) s = outcome at fewer
  cases fewer with
  | same => rfl
  | tooDeep cause _ => exact absurd shallow (not_shallow_of_tooDeep few cause)

/-- One level less does not suffice for a compartment that uses all levels. -/
theorem exists_tooDeep_of_not_shallow (read : slots (classifier (levels + 1)) s = .ok (root, rest))
    (whole : skipGap rest = []) (deep : ¬ Shallow levels s) :
    ∃ fault, slots (classifier levels) s = .error fault ∧ fault.cause = .nestedTooDeeply := by
  have fewer := slots_shallower (classifier_shallower levels) s
  rw [read] at fewer
  generalize few : slots (classifier levels) s = outcome at fewer
  cases fewer with
  | same => exact absurd (shallow_of_slots few whole) deep
  | tooDeep cause _ => exact ⟨_, rfl, cause⟩

end ClassDiagram.Draft
