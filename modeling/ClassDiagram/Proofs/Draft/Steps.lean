import ClassDiagram.Draft.Reader

set_option autoImplicit false

/-!
One equation for each way to go on when the readers that a reader calls succeed, and one for the
whole of a reader, in which a fault of a reader it calls ends the reading at once.
-/
namespace ClassDiagram.Draft

open Text (isBlank run afterRun unescape)

variable {body : BodyReader} {s rest left : List Char}

theorem links_blank {source : Classifier} (blank : isBlank (run s) = true) :
    links body source s = .ok (⟨[], [source], []⟩, s) := by
  rw [links, if_pos blank]

theorem links_target {source target : Classifier} {inner : List Char} {link : Link}
    {chain : Compartment} (text : isBlank (run s) = false) (opens : afterRun s = '[' :: inner)
    (read : body.read inner = .ok (target, rest))
    (arrow : Link.ofText? (unescape (run s)) = some link)
    (more : links body target rest = .ok (chain, left)) :
    links body source s =
      .ok (⟨[], [source], [link.relation source.name target.name]⟩ ++ chain, left) := by
  rw [links, if_neg (by simp [text])]
  split
  · next inner' opens' =>
      obtain rfl : inner = inner' := by simpa [opens] using opens'
      split
      · next fault read' => simp [read] at read'
      · next target' rest' read' =>
          obtain ⟨rfl, rfl⟩ : target = target' ∧ rest = rest' := by simpa [read] using read'
          simp only [arrow, more]
  · next other => exact absurd opens (other inner)

theorem slot_line (other : ∀ inner, s ≠ '[' :: inner) :
    slot body s = .ok (textLine (run s), afterRun s) := by
  rw [slot]
  exact fun inner h => other inner h

theorem slot_chain {first : Classifier} {inner : List Char}
    (read : body.read inner = .ok (first, rest)) :
    slot body ('[' :: inner) = links body first rest := by
  simp only [slot, read]

theorem slots_end (boundary : atBoundary (skipSeparators s) = true) :
    slots body s = .ok (.empty, skipSeparators s) := by
  rw [slots, dif_pos boundary]

theorem slots_separated {piece more : Compartment}
    (inside : atBoundary (skipSeparators s) = false)
    (read : slot body (skipSeparators s) = .ok (piece, rest)) (apart : separated rest = true)
    (next : slots body rest = .ok (more, left)) :
    slots body s = .ok (piece ++ more, left) := by
  rw [slots, dif_neg (by simp [inside])]
  split
  · next fault read' => simp [read] at read'
  · next piece' rest' read' =>
      obtain ⟨rfl, rfl⟩ : piece = piece' ∧ rest = rest' := by simpa [read] using read'
      simp only [apart, next, ↓reduceIte]

theorem slots_last {piece : Compartment} (inside : atBoundary (skipSeparators s) = false)
    (read : slot body (skipSeparators s) = .ok (piece, rest)) (apart : separated rest = false)
    (boundary : atBoundary (skipSeparators rest) = true) :
    slots body s = .ok (piece, skipSeparators rest) := by
  rw [slots, dif_neg (by simp [inside])]
  split
  · next fault read' => simp [read] at read'
  · next piece' rest' read' =>
      obtain ⟨rfl, rfl⟩ : piece = piece' ∧ rest = rest' := by simpa [read] using read'
      simp only [apart, boundary, Bool.false_eq_true, ↓reduceIte]

theorem compartments_bar {first : Compartment} {more : List Compartment} {next : List Char}
    (read : slots body s = .ok (first, rest)) (bar : skipGap rest = '|' :: next)
    (others : compartments body (skipGap next) = .ok (more, left)) :
    compartments body s = .ok (first :: more, left) := by
  rw [compartments]
  split
  · next fault read' => simp [read] at read'
  · next first' rest' read' =>
      obtain ⟨rfl, rfl⟩ : first = first' ∧ rest = rest' := by simpa [read] using read'
      split
      · next next' bar' =>
          obtain rfl : next = next' := by simpa [bar] using bar'
          simp only [others]
      · next other => exact absurd bar (other next)

theorem compartments_end {first : Compartment} (read : slots body s = .ok (first, rest))
    (barless : ∀ next, skipGap rest ≠ '|' :: next) :
    compartments body s = .ok ([first], rest) := by
  rw [compartments]
  split
  · next fault read' => simp [read] at read'
  · next first' rest' read' =>
      obtain ⟨rfl, rfl⟩ : first = first' ∧ rest = rest' := by simpa [read] using read'
      split
      · next next' bar => exact absurd bar (barless next')
      · rfl

theorem closed_bracket {parts : List Compartment} (read : compartments body s = .ok (parts, rest))
    (bracket : skipGap rest = ']' :: left) :
    closed body s = .ok (.ofCompartments parts, left) := by
  simp only [closed, read, bracket]

theorem document_end {root : Compartment}
    (read : slots (classifier nestingLimit) s = .ok (root, rest)) (nothing : skipGap rest = []) :
    document s = .ok root := by
  simp only [document, read, nothing]

/-- A classifier behind a run leaves less than there was in front of the run. -/
theorem target_progress {target : Classifier} {inner : List Char}
    (opens : afterRun s = '[' :: inner) (read : body.read inner = .ok (target, rest)) :
    ProperTail rest s := by
  have inside := properTail_of_suffix (body.progress read).1 (properTail_cons '[' inner)
  exact inside.of_suffix (opens ▸ Text.afterRun_suffix s)

/-- A compartment and the bar behind it leave less than there was in front of them. -/
theorem bar_progress {first : Compartment} {next : List Char}
    (read : slots body s = .ok (first, rest)) (bar : skipGap rest = '|' :: next) :
    ProperTail (skipGap next) s := by
  have inside := properTail_of_suffix (skipGap_suffix next) (properTail_cons '|' next)
  exact inside.of_suffix ((bar ▸ skipGap_suffix rest).trans (slots_suffix read))

/-- Reads on from where `outcome` stopped, unless that is a fault. -/
def Outcome.andThen {α β : Type} (outcome : Outcome α) (next : α → List Char → Outcome β) :
    Outcome β :=
  match outcome with
  | .error fault => .error fault
  | .ok (value, rest) => next value rest

@[simp] theorem Outcome.andThen_error {α β : Type} (fault : Fault)
    (next : α → List Char → Outcome β) :
    Outcome.andThen (.error fault) next = .error fault := rfl

@[simp] theorem Outcome.andThen_ok {α β : Type} (value : α) (rest : List Char)
    (next : α → List Char → Outcome β) :
    Outcome.andThen (.ok (value, rest)) next = next value rest := rfl

theorem links_eq (body : BodyReader) (source : Classifier) (s : List Char) :
    links body source s =
      if isBlank (run s) then .ok (⟨[], [source], []⟩, s)
      else
        match afterRun s with
        | '[' :: inner =>
            (body.read inner).andThen fun target rest =>
              match Link.ofText? (unescape (run s)) with
              | none => .error ⟨.missingArrow, s, rest⟩
              | some link =>
                  (links body target rest).andThen fun chain left =>
                    .ok (⟨[], [source], [link.relation source.name target.name]⟩ ++ chain, left)
        | stop => .error ⟨.missingTarget, s, stop⟩ := by
  rw [links]
  split
  · rfl
  · split
    · next inner opens =>
        simp only [opens]
        split
        · next fault read => simp only [read, Outcome.andThen_error]
        · next target rest read =>
            simp only [read, Outcome.andThen_ok]
            cases Link.ofText? (unescape (run s)) with
            | none => rfl
            | some link => cases links body target rest <;> rfl
    · next other =>
        split
        · next inner opens => exact absurd opens (other inner)
        · rfl

theorem slot_eq (body : BodyReader) (s : List Char) :
    slot body s =
      match s with
      | '[' :: inner => (body.read inner).andThen (links body)
      | s => .ok (textLine (run s), afterRun s) := by
  by_cases opens : ∃ inner, s = '[' :: inner
  · obtain ⟨inner, rfl⟩ := opens
    cases read : body.read inner with
    | error fault => simp only [slot, read, Outcome.andThen_error]
    | ok value =>
        obtain ⟨first, rest⟩ := value
        simp only [slot_chain read, read, Outcome.andThen_ok]
  · have other : ∀ inner, s ≠ '[' :: inner := fun inner same => opens ⟨inner, same⟩
    rw [slot_line other]
    split
    · next inner => exact absurd rfl (other inner)
    · rfl

theorem slots_eq (body : BodyReader) (s : List Char) :
    slots body s =
      if atBoundary (skipSeparators s) then .ok (.empty, skipSeparators s)
      else
        (slot body (skipSeparators s)).andThen fun piece rest =>
          if atBoundary (skipSeparators rest) then .ok (piece, skipSeparators rest)
          else if separated rest then
            (slots body rest).andThen fun more left => .ok (piece ++ more, left)
          else .error ⟨.missingSeparator, skipSeparators rest, skipSeparators rest⟩ := by
  rw [slots]
  split
  · rfl
  · split
    · next fault read => simp only [read, Outcome.andThen_error]
    · next piece rest read =>
        simp only [read, Outcome.andThen_ok]
        cases boundary : atBoundary (skipSeparators rest) with
        | true => simp only [slots_end boundary, Compartment.append_empty, ite_self, ↓reduceIte]
        | false => cases slots body rest <;> rfl

theorem slots_congr (body : BodyReader) {s t : List Char}
    (same : skipSeparators s = skipSeparators t) : slots body s = slots body t := by
  rw [slots_eq body s, slots_eq body t, same]

theorem compartments_eq (body : BodyReader) (s : List Char) :
    compartments body s =
      (slots body s).andThen fun first rest =>
        match skipGap rest with
        | '|' :: next =>
            (compartments body (skipGap next)).andThen fun more left => .ok (first :: more, left)
        | _ => .ok ([first], rest) := by
  rw [compartments]
  split
  · next fault read => simp only [read, Outcome.andThen_error]
  · next first rest read =>
      simp only [read, Outcome.andThen_ok]
      split
      · next next bar =>
          simp only [bar]
          cases compartments body (skipGap next) <;> rfl
      · next barless =>
          split
          · next next bar => exact absurd bar (barless next)
          · rfl

theorem closed_eq (body : BodyReader) (s : List Char) :
    closed body s =
      (compartments body s).andThen fun parts rest =>
        match skipGap rest with
        | ']' :: left => .ok (.ofCompartments parts, left)
        | stop => .error ⟨.unclosedClassifier, '[' :: s, stop⟩ := by
  unfold closed
  cases compartments body s <;> rfl

/-- A document is a compartment behind which nothing is left. -/
theorem exists_of_document {root : Compartment} (accepted : document s = .ok root) :
    ∃ rest, slots (classifier nestingLimit) s = .ok (root, rest) ∧ skipGap rest = [] := by
  rw [document.eq_def] at accepted
  split at accepted
  · cases accepted
  · next found rest read =>
      split at accepted
      · next nothing =>
          cases accepted
          exact ⟨rest, read, nothing⟩
      · cases accepted

/-- What is no document is no compartment, or something is left behind the compartment. -/
theorem slots_of_document_error {fault : Fault} (refused : document s = .error fault) :
    slots (classifier nestingLimit) s = .error fault ∨
      ∃ root rest found left, slots (classifier nestingLimit) s = .ok (root, rest) ∧
        skipGap rest = found :: left ∧ fault = ⟨.unexpected found, found :: left, left⟩ := by
  rw [document.eq_def] at refused
  split at refused
  · next found read =>
      cases refused
      exact .inl read
  · next root rest read =>
      split at refused
      · cases refused
      · next found left more =>
          cases refused
          exact .inr ⟨root, rest, found, left, read, more, rfl⟩

theorem ofText?_eq_ok_iff {text : String} {root : Compartment} :
    ofText? text = .ok root ↔ document text.toList = .ok root := by
  rw [ofText?]
  cases document text.toList with
  | error fault => exact iff_of_false (fun same => by cases same) fun same => by cases same
  | ok found => exact ⟨fun same => by cases same; rfl, fun same => by cases same; rfl⟩

/-- A refusal is the report of one fault. -/
theorem ofText?_eq_error_iff {text : String} {diagnostic : Diagnostic} :
    ofText? text = .error diagnostic ↔
      ∃ fault, document text.toList = .error fault ∧
        diagnostic = fault.toDiagnostic text.toList := by
  rw [ofText?]
  cases document text.toList with
  | ok root => exact iff_of_false (fun same => by cases same) fun ⟨_, same, _⟩ => by cases same
  | error fault =>
      constructor
      · intro same
        cases same
        exact ⟨fault, rfl, rfl⟩
      · rintro ⟨_, ⟨⟩, rfl⟩
        rfl

theorem exists_of_isOk {text : String} (read : (ofText? text).isOk = true) :
    ∃ root, ofText? text = .ok root := by
  cases result : ofText? text with
  | ok root => exact ⟨root, rfl⟩
  | error diagnostic =>
      rw [result] at read
      cases read

theorem exists_of_not_isOk {text : String} (unread : (ofText? text).isOk = false) :
    ∃ diagnostic, ofText? text = .error diagnostic := by
  cases result : ofText? text with
  | ok root =>
      rw [result] at unread
      cases unread
  | error diagnostic => exact ⟨diagnostic, rfl⟩

end ClassDiagram.Draft
