import ClassDiagram.Proofs.Draft.Blanks
import ClassDiagram.Proofs.Draft.Faults
import ClassDiagram.Proofs.Draft.Passage

set_option autoImplicit false

/-!
A scanner that misses what it looks for says nothing about the cause. The innermost construct around
it that knows a cause gives it one; what gets none is reported without advice.
-/
namespace ClassDiagram.Draft

open Text (isBlank run afterRun unescape)

inductive Sought where
  | text
  | opening
  | closing
  | separator
  | arrow
  /-- A level of nesting that is still allowed. -/
  | level
  /-- Less text to read than before. -/
  | headway
deriving DecidableEq, Repr

structure Failure where
  sought : Sought
  /-- The cause and where the construct begins that gave it. -/
  context : Option (Cause × List Char)
  /-- The text that was left. -/
  stop : List Char
deriving DecidableEq, Repr

abbrev Attempt (α : Type) := Except Failure (α × List Char)

namespace Attempt

variable {α β : Type}

/-- Goes on from where `attempt` stopped, unless that failed. -/
def andThen (attempt : Attempt α) (next : α → List Char → Attempt β) : Attempt β :=
  match attempt with
  | .error failure => .error failure
  | .ok (value, rest) => next value rest

/-- The construct that begins at `start` gives a cause to a failure that has none. -/
def within (cause : Cause) (start : List Char) : Attempt α → Attempt α
  | .ok value => .ok value
  | .error failure => .error { failure with context := failure.context.or (some (cause, start)) }

end Attempt

/-! ### The scanner -/

namespace Scan

/-- A run of text, of which something has to be there. -/
def text (s : List Char) : Attempt (List Char) :=
  match run s with
  | [] => .error ⟨.text, none, s⟩
  | c :: r => .ok (c :: r, afterRun s)

def opening : List Char → Attempt Unit
  | '[' :: inner => .ok ((), inner)
  | s => .error ⟨.opening, none, s⟩

def closing (s : List Char) : Attempt Unit :=
  match skipGap s with
  | ']' :: left => .ok ((), left)
  | stop => .error ⟨.closing, none, stop⟩

section

variable (scan : List Char → Attempt Classifier)

/-- The links behind a classifier. Where no text is found there is none. -/
def links (source : Classifier) (s : List Char) : Attempt Compartment :=
  match text s with
  | .error _ => .ok (⟨[], [source], []⟩, s)
  | .ok (link, middle) =>
      if isBlank link then .ok (⟨[], [source], []⟩, s)
      else
        ((scan middle).within .missingTarget s).andThen fun target rest =>
          match Link.ofText? (unescape link) with
          | none => .error ⟨.arrow, some (.missingArrow, s), rest⟩
          | some link =>
              if _shorter : rest.length < s.length then
                (links target rest).andThen fun chain left =>
                  .ok (⟨[], [source], [link.relation source.name target.name]⟩ ++ chain, left)
              else .error ⟨.headway, none, rest⟩
termination_by s.length

def slot (s : List Char) : Attempt Compartment :=
  match s with
  | '[' :: _ => (scan s).andThen (links scan)
  | _ => (text s).andThen fun run rest => .ok (textLine run, rest)

def slots (s : List Char) : Attempt Compartment :=
  if atBoundary (skipSeparators s) then .ok (.empty, skipSeparators s)
  else
    (slot scan (skipSeparators s)).andThen fun piece rest =>
      if separated rest then
        if _shorter : rest.length < s.length then
          (slots rest).andThen fun more left => .ok (piece ++ more, left)
        else .error ⟨.headway, none, rest⟩
      else if atBoundary (skipSeparators rest) then .ok (piece, skipSeparators rest)
      else .error ⟨.separator, some (.missingSeparator, skipSeparators rest), skipSeparators rest⟩
termination_by s.length

def compartments (s : List Char) : Attempt (List Compartment) :=
  (slots scan s).andThen fun first rest =>
    match skipGap rest with
    | '|' :: next =>
        if _shorter : (skipGap next).length < s.length then
          (compartments (skipGap next)).andThen fun more left => .ok (first :: more, left)
        else .error ⟨.headway, none, next⟩
    | _ => .ok ([first], rest)
termination_by s.length

/-- What stands behind the bracket that opens the classifier at `start`. -/
def closed (start s : List Char) : Attempt Classifier :=
  ((compartments scan s).andThen fun parts rest =>
    (closing rest).andThen fun _ left => .ok (.ofCompartments parts, left)).within
      .unclosedClassifier start

end

def classifier : Nat → List Char → Attempt Classifier
  | 0, s => (opening s).andThen fun _ inner => .error ⟨.level, some (.nestedTooDeeply, s), inner⟩
  | levels + 1, s => (opening s).andThen fun _ inner => closed (classifier levels) s inner

/-- What is said of a failure; not much, if it has no cause. -/
def toDiagnostic (failure : Failure) (text : List Char) : Diagnostic :=
  match failure.context with
  | some (cause, start) => Fault.toDiagnostic ⟨cause, start, failure.stop⟩ text
  | none =>
      let start := Fault.offset text failure.stop
      { message := "unexpected input"
        code := some .unexpectedToken
        labels := [⟨Span.between start (min (start + 1) (Text.byteLength text)),
          ErrorCode.unexpectedToken.description⟩] }

def leftOver (found : Char) (left text : List Char) : Diagnostic :=
  let start := Fault.offset text (found :: left)
  { message := (Cause.unexpected found).message
    code := some .unexpectedToken
    labels := [⟨Span.between start (start + found.utf8Size),
      ErrorCode.unexpectedToken.description⟩]
    help :=
      if found = ']' then some "remove it, or open a classifier with `[`"
      else if found = '|' then some "`|` separates compartments inside a classifier"
      else none }

def root (s : List Char) : Attempt Compartment := slots (classifier nestingLimit) s

def ofText? (text : String) : Except Diagnostic Compartment :=
  match root text.toList with
  | .error failure => .error (toDiagnostic failure text.toList)
  | .ok (root, rest) =>
      match skipGap rest with
      | [] => .ok root
      | found :: left => .error (leftOver found left text.toList)

end Scan

/-! ### Failures that are explained -/

/-- The failure has the cause, and looked for something that may be missing. -/
structure Failure.Explains (failure : Failure) (fault : Fault) : Prop where
  context : failure.context = some (fault.cause, fault.start)
  stop : failure.stop = fault.stop
  text : failure.sought ≠ .text
  headway : failure.sought ≠ .headway

inductive Attempt.Matches {α : Type} : Attempt α → Outcome α → Prop
  | ok (value : α) (rest : List Char) : Matches (.ok (value, rest)) (.ok (value, rest))
  | error {failure : Failure} {fault : Fault} (explains : failure.Explains fault) :
      Matches (.error failure) (.error fault)

namespace Attempt.Matches

variable {α β : Type} {attempt : Attempt α} {outcome : Outcome α}

theorem andThen {next : α → List Char → Attempt β} {other : α → List Char → Outcome β}
    (same : attempt.Matches outcome)
    (more : ∀ value rest, outcome = .ok (value, rest) →
      (next value rest).Matches (other value rest)) :
    (attempt.andThen next).Matches (outcome.andThen other) := by
  cases same with
  | ok value rest => exact more value rest rfl
  | error explains => exact .error explains

/-- What is explained already keeps its cause. -/
theorem within (same : attempt.Matches outcome) (cause : Cause) (start : List Char) :
    (attempt.within cause start).Matches outcome := by
  cases same with
  | ok value rest => exact .ok value rest
  | error explains =>
      refine .error { explains with context := ?_ }
      show Option.or _ _ = _
      rw [explains.context]
      rfl

end Attempt.Matches

/-- From a bracket on the scanner says what `body` says of the text behind the bracket; where there
is no bracket it looks for one. -/
structure Scan.Follows (scan : List Char → Attempt Classifier) (body : BodyReader) :
    Prop where
  opens : ∀ inner, (scan ('[' :: inner)).Matches (body.read inner)
  other : ∀ s, (∀ inner, s ≠ '[' :: inner) → scan s = .error ⟨.opening, none, s⟩

/-! ### The scanner says what the readers say -/

namespace Scan

variable {scan : List Char → Attempt Classifier} {body : BodyReader}

theorem text_of_run {s : List Char} (something : run s ≠ []) :
    text s = .ok (run s, afterRun s) := by
  rw [text]
  split
  · next nothing => exact absurd nothing something
  · next c r shape => rw [shape]

theorem links_matches (follows : Follows scan body) (source : Classifier) (s : List Char) :
    (links scan source s).Matches (Draft.links body source s) := by
  rw [links, links_eq]
  by_cases nothing : run s = []
  · have blank : isBlank (run s) = true := by rw [nothing]; rfl
    rw [if_pos blank]
    simp only [text, nothing]
    exact .ok _ s
  · rw [text_of_run nothing]
    by_cases blank : isBlank (run s) = true
    · simp only [if_pos blank]
      exact .ok _ s
    · simp only [if_neg blank]
      by_cases bracket : ∃ inner, afterRun s = '[' :: inner
      · obtain ⟨inner, opens⟩ := bracket
        simp only [opens]
        refine ((follows.opens inner).within .missingTarget s).andThen fun target rest read => ?_
        have shorter := (target_progress opens read).2
        cases Link.ofText? (unescape (run s)) with
        | none => exact .error ⟨rfl, rfl, by simp, by simp⟩
        | some link =>
            simp only [dif_pos shorter]
            exact (links_matches follows target rest).andThen fun chain left _ => .ok _ left
      · have other : ∀ inner, afterRun s ≠ '[' :: inner := fun inner same => bracket ⟨inner, same⟩
        rw [follows.other _ other]
        simp only [Attempt.within, Attempt.andThen]
        exact .error ⟨rfl, rfl, by simp, by simp⟩
termination_by s.length

/-- A slot is read only where a bracket or some text begins. -/
theorem slot_matches (follows : Follows scan body) {s : List Char}
    (inside : atBoundary (skipSeparators s) = false) :
    (slot scan (skipSeparators s)).Matches (Draft.slot body (skipSeparators s)) := by
  by_cases bracket : ∃ inner, skipSeparators s = '[' :: inner
  · obtain ⟨inner, opens⟩ := bracket
    rw [opens, slot_eq]
    exact (follows.opens inner).andThen fun first rest _ => links_matches follows first rest
  · have other : ∀ inner, skipSeparators s ≠ '[' :: inner := fun inner same => bracket ⟨inner, same⟩
    rw [slot_line other, slot.eq_2 _ _ other, text_of_run (run_ne_nil inside other)]
    exact .ok _ _

theorem slots_matches (follows : Follows scan body) (s : List Char) :
    (slots scan s).Matches (Draft.slots body s) := by
  rw [slots, slots_eq]
  by_cases boundary : atBoundary (skipSeparators s) = true
  · rw [if_pos boundary, if_pos boundary]
    exact .ok _ _
  · rw [if_neg boundary, if_neg boundary]
    refine (slot_matches follows (by simpa using boundary)).andThen fun piece rest read => ?_
    have shorter := (slot_progress boundary read).2
    have again := slots_matches follows rest
    by_cases apart : separated rest = true
    · simp only [if_pos apart, dif_pos shorter]
      by_cases last : atBoundary (skipSeparators rest) = true
      · rw [if_pos last, slots, if_pos last, Attempt.andThen, Compartment.append_empty]
        exact .ok _ _
      · rw [if_neg last]
        exact again.andThen fun more left _ => .ok _ left
    · simp only [if_neg apart]
      by_cases last : atBoundary (skipSeparators rest) = true
      · rw [if_pos last, if_pos last]
        exact .ok _ _
      · rw [if_neg last, if_neg last]
        exact .error ⟨rfl, rfl, by simp, by simp⟩
termination_by s.length

theorem compartments_matches (follows : Follows scan body) (s : List Char) :
    (compartments scan s).Matches (Draft.compartments body s) := by
  rw [compartments, compartments_eq]
  refine (slots_matches follows s).andThen fun first rest read => ?_
  by_cases barred : ∃ next, skipGap rest = '|' :: next
  · obtain ⟨next, bar⟩ := barred
    have shorter := (bar_progress read bar).2
    simp only [bar, dif_pos shorter]
    exact (compartments_matches follows (skipGap next)).andThen fun more left _ => .ok _ left
  · have barless : ∀ next, skipGap rest ≠ '|' :: next := fun next same => barred ⟨next, same⟩
    -- the scanner and the reader look at the same character
    repeat' split
    all_goals first
      | exact .ok _ rest
      | exact absurd ‹_ = '|' :: _› (barless _)
termination_by s.length

theorem opening_other {s : List Char} (other : ∀ inner, s ≠ '[' :: inner) :
    opening s = .error ⟨.opening, none, s⟩ := by
  rw [opening]
  exact other

theorem closing_other {s : List Char} (other : ∀ left, skipGap s ≠ ']' :: left) :
    closing s = .error ⟨.closing, none, skipGap s⟩ := by
  rw [closing]
  split
  · next left bracket => exact absurd bracket (other left)
  · rfl

/-- A bracket that is missing gets its cause from the classifier that it belongs to. -/
theorem closed_matches (follows : Follows scan body) (s : List Char) :
    (closed scan ('[' :: s) s).Matches (Draft.closed body s) := by
  rw [closed, closed_eq]
  have inside := compartments_matches follows s
  generalize compartments scan s = attempt at inside
  generalize Draft.compartments body s = outcome at inside
  cases inside with
  | error explains => exact (Attempt.Matches.error explains).within _ _
  | ok parts rest =>
      rw [Attempt.andThen, Outcome.andThen_ok]
      split
      · next left bracket =>
          rw [closing, bracket]
          exact .ok _ _
      · next other =>
          rw [closing_other other]
          exact .error ⟨rfl, rfl, by simp, by simp⟩

theorem classifier_follows (levels : Nat) :
    Follows (classifier levels) (Draft.classifier levels) := by
  induction levels with
  | zero =>
      refine ⟨fun inner => ?_, fun s other => ?_⟩
      · exact .error ⟨rfl, rfl, by simp, by simp⟩
      · rw [classifier, opening_other other, Attempt.andThen]
  | succ levels ih =>
      refine ⟨fun inner => ?_, fun s other => ?_⟩
      · exact closed_matches ih inner
      · rw [classifier, opening_other other, Attempt.andThen]

/-- What comes out of the scanner is what comes out of the reader. -/
theorem root_matches (s : List Char) :
    (root s).Matches (Draft.slots (Draft.classifier nestingLimit) s) :=
  slots_matches (classifier_follows nestingLimit) s

/-! ### Complete reports -/

/-- A failure that is explained is reported as the fault that explains it. -/
theorem toDiagnostic_eq {failure : Failure} {fault : Fault} (explains : failure.Explains fault)
    (text : List Char) : toDiagnostic failure text = fault.toDiagnostic text := by
  rw [toDiagnostic, explains.context, explains.stop]

/-- A document ends at the end of the text, at a bracket that closes or at a bar. -/
theorem leftOver_mark {s rest left : List Char} {compartment : Compartment} {found : Char}
    (read : root s = .ok (compartment, rest)) (more : skipGap rest = found :: left) :
    found = ']' ∨ found = '|' := by
  have same := root_matches s
  rw [read] at same
  generalize outcome : Draft.slots (Draft.classifier nestingLimit) s = result at same
  cases same with
  | ok =>
      have boundary := slots_atBoundary outcome
      rw [atBoundary, more] at boundary
      simpa using boundary

theorem leftOver_eq {found : Char} (mark : found = ']' ∨ found = '|') (before left : List Char) :
    leftOver found left (before ++ found :: left) =
      Fault.toDiagnostic ⟨.unexpected found, found :: left, left⟩ (before ++ found :: left) := by
  have size : found.utf8Size = 1 := by rcases mark with rfl | rfl <;> decide
  have start := offset_of_append before (found :: left)
  have stop : Fault.offset (before ++ found :: left) left = Text.byteLength before + 1 := by
    rw [List.append_cons, offset_of_append, Text.byteLength_append, Text.byteLength_cons, size]
    rfl
  have room : Text.byteLength before + 1 ≤ Text.byteLength (before ++ found :: left) := by
    rw [Text.byteLength_append, Text.byteLength_cons, size]
    omega
  have span : Fault.span ⟨.unexpected found, found :: left, left⟩ (before ++ found :: left) =
      Span.between (Text.byteLength before) (Text.byteLength before + 1) := by
    rw [Fault.span, start, stop, Nat.max_self, Nat.min_eq_left room]
  rw [leftOver, Fault.toDiagnostic, span, start, size]
  rcases mark with rfl | rfl <;> rfl

/-- The scanner with all its exits refuses the same texts in the same words. -/
theorem ofText?_eq (text : String) : ofText? text = Draft.ofText? text := by
  have same := root_matches text.toList
  rw [ofText?, Draft.ofText?, document]
  generalize found : root text.toList = attempt at same
  generalize outcome : Draft.slots (Draft.classifier nestingLimit) text.toList = result at same
  cases same with
  | error explains => exact congrArg Except.error (toDiagnostic_eq explains text.toList)
  | ok root rest =>
      cases more : skipGap rest with
      | nil => simp only [more]
      | cons c left =>
          obtain ⟨before, whole⟩ : c :: left <:+ text.toList :=
            more ▸ (skipGap_suffix rest).trans (slots_suffix outcome)
          have report := leftOver_eq (leftOver_mark found more) before left
          rw [whole] at report
          simp only [more, report]

end Scan

/-- A refusal that says what is wrong, what to do about it and where: at one stretch of the text,
which is not empty and does not reach past the end. -/
structure IsComplete (diagnostic : Diagnostic) (text : String) : Prop where
  code : ∃ code ∈ [ErrorCode.unexpectedToken, .unclosedClassifier, .missingArrow, .missingTarget],
    diagnostic.code = some code
  help : diagnostic.help.isSome = true
  label : ∃ label, diagnostic.labels = [label] ∧ label.span.start < label.span.stop ∧
    label.span.stop ≤ text.utf8ByteSize

theorem Cause.code_mem (cause : Cause) :
    cause.code ∈ [ErrorCode.unexpectedToken, .unclosedClassifier, .missingArrow, .missingTarget] := by
  cases cause <;> simp [Cause.code]

theorem isComplete_of_refused {text : String} {diagnostic : Diagnostic}
    (refused : ofText? text = .error diagnostic) : IsComplete diagnostic text := by
  obtain ⟨fault, within, rfl⟩ := exists_fault refused
  refine ⟨⟨_, fault.cause.code_mem, rfl⟩, rfl, _, rfl, ?_, ?_⟩
  · obtain ⟨before, c, after, -, -, start, stop⟩ := within.span
    have size := c.utf8Size_pos
    rw [start]
    rcases stop with ⟨-, middle, rest, -, stop⟩ | ⟨-, stop⟩
    · rw [stop, Text.byteLength_append, Text.byteLength_cons]
      omega
    · rw [stop]
      omega
  · rw [← Text.byteLength_toList]
    exact fault.span_stop_le text.toList

/-- A text is read or refused in a complete report. The scanner with all its exits says the same, and
some of them are never taken: it does not look for text where none stands nor come to a stop in a
loop, no failure comes out without a cause, and what is left over is a bracket that closes or a
bar. -/
theorem ofText?_complete (text : String) :
    ((∃ root, ofText? text = .ok root) ∨
      ∃ diagnostic, ofText? text = .error diagnostic ∧ IsComplete diagnostic text) ∧
    Scan.ofText? text = ofText? text ∧
    (∀ failure, Scan.root text.toList = .error failure →
      failure.sought ≠ .text ∧ failure.sought ≠ .headway ∧ failure.context.isSome = true) ∧
    ∀ root rest found left, Scan.root text.toList = .ok (root, rest) →
      skipGap rest = found :: left → found = ']' ∨ found = '|' := by
  refine ⟨?_, Scan.ofText?_eq text, fun failure failed => ?_, fun root rest found left read more =>
    Scan.leftOver_mark read more⟩
  · cases result : ofText? text with
    | ok root => exact .inl ⟨root, rfl⟩
    | error diagnostic => exact .inr ⟨diagnostic, rfl, isComplete_of_refused result⟩
  · have same := Scan.root_matches text.toList
    rw [failed] at same
    generalize Draft.slots (Draft.classifier nestingLimit) text.toList = result at same
    cases same with
    | error explains =>
        refine ⟨explains.text, explains.headway, ?_⟩
        rw [explains.context]
        rfl

end ClassDiagram.Draft
