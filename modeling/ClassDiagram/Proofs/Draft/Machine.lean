import ClassDiagram.Proofs.Draft.Steps

set_option autoImplicit false

/-!
The reader of diagrams as a machine. It keeps the classifiers that are open on a stack of its own
and goes from one point to the next: a slot begins, a classifier is opened, a link is followed, a
compartment ends.
-/
namespace ClassDiagram.Draft.Machine

open Text (isBlank run afterRun unescape)

/-! ### Points and turns -/

inductive Role where
  /-- The one with which a slot begins. -/
  | first
  /-- The one to which the link at `start` leads. -/
  | target (source : Classifier) (start : List Char)

structure Level where
  /-- What has been read of the compartment in which it stands. -/
  around : Compartment
  role : Role
  /-- The text behind its bracket. -/
  inner : List Char
  /-- Its compartments up to the last bar. -/
  parts : List Compartment

/-- What is to be read next, and the text that is left. -/
inductive Control where
  /-- The slots of a compartment, or the rest of them. -/
  | slots (s : List Char)
  | slot (s : List Char)
  /-- A classifier whose bracket has been read. -/
  | classifier (role : Role) (s : List Char)
  /-- The links that lead on from a classifier. -/
  | links (source : Classifier) (s : List Char)
  /-- What has to stand behind a slot. -/
  | behind (s : List Char)

structure Point where
  /-- The classifiers that are open, the innermost first. -/
  levels : List Level
  /-- What has been read of the innermost compartment. -/
  compartment : Compartment
  control : Control

inductive Turn where
  | stop (result : Except Fault Compartment)
  | go (next : Point)

/-- A classifier has been read. -/
def Role.resume (role : Role) (levels : List Level) (around : Compartment)
    (classifier : Classifier) (left : List Char) : Turn :=
  match role with
  | .first => .go ⟨levels, around, .links classifier left⟩
  | .target source start =>
      match Link.ofText? (unescape (run start)) with
      | none => .stop (.error ⟨.missingArrow, start, left⟩)
      | some link =>
          .go ⟨levels, around ++ ⟨[], [source], [link.relation source.name classifier.name]⟩,
            .links classifier left⟩

/-- The compartments of a classifier have been read. -/
def Level.close (level : Level) (outer : List Level) (parts : List Compartment)
    (s : List Char) : Turn :=
  match skipGap s with
  | ']' :: left => level.role.resume outer level.around (.ofCompartments parts) left
  | stop => .stop (.error ⟨.unclosedClassifier, '[' :: level.inner, stop⟩)

def leave (levels : List Level) (compartment : Compartment) (s : List Char) : Turn :=
  match levels with
  | [] =>
      match skipGap s with
      | [] => .stop (.ok compartment)
      | found :: left => .stop (.error ⟨.unexpected found, found :: left, left⟩)
  | level :: outer =>
      match skipGap s with
      | '|' :: next =>
          .go ⟨{ level with parts := level.parts ++ [compartment] } :: outer, .empty,
            .slots (skipGap next)⟩
      | _ => level.close outer (level.parts ++ [compartment]) s

def step : Point → Turn
  | ⟨levels, compartment, .slots s⟩ =>
      if atBoundary (skipSeparators s) then leave levels compartment (skipSeparators s)
      else .go ⟨levels, compartment, .slot (skipSeparators s)⟩
  | ⟨levels, compartment, .slot s⟩ =>
      match s with
      | '[' :: inner => .go ⟨levels, compartment, .classifier .first inner⟩
      | s => .go ⟨levels, compartment ++ textLine (run s), .behind (afterRun s)⟩
  | ⟨levels, compartment, .classifier role inner⟩ =>
      if levels.length < nestingLimit then
        .go ⟨⟨compartment, role, inner, []⟩ :: levels, .empty, .slots inner⟩
      else .stop (.error ⟨.nestedTooDeeply, '[' :: inner, inner⟩)
  | ⟨levels, compartment, .links source s⟩ =>
      if isBlank (run s) then .go ⟨levels, compartment ++ ⟨[], [source], []⟩, .behind s⟩
      else
        match afterRun s with
        | '[' :: inner => .go ⟨levels, compartment, .classifier (.target source s) inner⟩
        | stop => .stop (.error ⟨.missingTarget, s, stop⟩)
  | ⟨levels, compartment, .behind s⟩ =>
      if separated s then .go ⟨levels, compartment, .slots s⟩
      else if atBoundary (skipSeparators s) then leave levels compartment (skipSeparators s)
      else .stop (.error ⟨.missingSeparator, skipSeparators s, skipSeparators s⟩)

theorem step_line {levels : List Level} {compartment : Compartment} {s : List Char}
    (other : ∀ inner, s ≠ '[' :: inner) :
    step ⟨levels, compartment, .slot s⟩ =
      .go ⟨levels, compartment ++ textLine (run s), .behind (afterRun s)⟩ := by
  rw [step]
  exact other

theorem step_link {levels : List Level} {compartment : Compartment} {source : Classifier}
    {s inner : List Char} (link : isBlank (run s) = false) (opens : afterRun s = '[' :: inner) :
    step ⟨levels, compartment, .links source s⟩ =
      .go ⟨levels, compartment, .classifier (.target source s) inner⟩ := by
  rw [step, if_neg (by simp [link])]
  simp only [opens]

theorem step_dangling {levels : List Level} {compartment : Compartment} {source : Classifier}
    {s : List Char} (link : isBlank (run s) = false) (other : ∀ inner, afterRun s ≠ '[' :: inner) :
    step ⟨levels, compartment, .links source s⟩ =
      .stop (.error ⟨.missingTarget, s, afterRun s⟩) := by
  rw [step, if_neg (by simp [link])]
  split
  · next inner opens => exact absurd opens (other inner)
  · rfl

/-! ### What a turn can do -/

/-- A compartment may end here, with this text behind it. -/
inductive Control.Leaves : Control → List Char → Prop
  | slots (s : List Char) : Leaves (.slots s) (skipSeparators s)
  | behind (s : List Char) : Leaves (.behind s) (skipSeparators s)

/-- Where a turn may lead from a point. -/
inductive Moves : Point → Turn → Prop
  | stop (point : Point) (result : Except Fault Compartment) : Moves point (.stop result)
  | slot (levels : List Level) (compartment : Compartment) (s : List Char)
      (inside : atBoundary (skipSeparators s) = false) :
      Moves ⟨levels, compartment, .slots s⟩
        (.go ⟨levels, compartment, .slot (skipSeparators s)⟩)
  | bracket (levels : List Level) (compartment : Compartment) (inner : List Char) :
      Moves ⟨levels, compartment, .slot ('[' :: inner)⟩
        (.go ⟨levels, compartment, .classifier .first inner⟩)
  | line (levels : List Level) (compartment more : Compartment) (s : List Char)
      (other : ∀ inner, s ≠ '[' :: inner) :
      Moves ⟨levels, compartment, .slot s⟩ (.go ⟨levels, more, .behind (afterRun s)⟩)
  | nest (levels : List Level) (compartment : Compartment) (level : Level) (role : Role)
      (inner : List Char) (room : levels.length < nestingLimit) :
      Moves ⟨levels, compartment, .classifier role inner⟩
        (.go ⟨level :: levels, .empty, .slots inner⟩)
  | link (levels : List Level) (compartment : Compartment) (source : Classifier)
      (s inner : List Char) (opens : afterRun s = '[' :: inner) :
      Moves ⟨levels, compartment, .links source s⟩
        (.go ⟨levels, compartment, .classifier (.target source s) inner⟩)
  | linkless (levels : List Level) (compartment more : Compartment) (source : Classifier)
      (s : List Char) :
      Moves ⟨levels, compartment, .links source s⟩ (.go ⟨levels, more, .behind s⟩)
  | next (levels : List Level) (compartment : Compartment) (s : List Char) :
      Moves ⟨levels, compartment, .behind s⟩ (.go ⟨levels, compartment, .slots s⟩)
  | bar (level other : Level) (outer : List Level) (compartment : Compartment) (control : Control)
      (s next : List Char) (leaves : control.Leaves s) (bar : skipGap s = '|' :: next) :
      Moves ⟨level :: outer, compartment, control⟩
        (.go ⟨other :: outer, .empty, .slots (skipGap next)⟩)
  | close (level : Level) (outer : List Level) (compartment more : Compartment)
      (control : Control) (classifier : Classifier) (s left : List Char)
      (leaves : control.Leaves s) (bracket : skipGap s = ']' :: left) :
      Moves ⟨level :: outer, compartment, control⟩ (.go ⟨outer, more, .links classifier left⟩)

theorem moves_leave (levels : List Level) (compartment : Compartment) {control : Control}
    {s : List Char} (leaves : control.Leaves s) :
    Moves ⟨levels, compartment, control⟩ (leave levels compartment s) := by
  unfold leave
  split
  · split
    · exact .stop _ _
    · exact .stop _ _
  · next level outer =>
      split
      · next next bar => exact .bar _ _ _ _ _ _ _ leaves bar
      · unfold Level.close
        split
        · next left bracket =>
            unfold Role.resume
            split
            · exact .close _ _ _ _ _ _ _ _ leaves bracket
            · split
              · exact .stop _ _
              · exact .close _ _ _ _ _ _ _ _ leaves bracket
        · exact .stop _ _

/-- A turn does nothing else. -/
theorem moves_step (point : Point) : Moves point (step point) := by
  unfold step
  split
  · next levels compartment s =>
      split
      · exact moves_leave levels compartment (.slots s)
      · next inside => exact .slot levels compartment s (Bool.eq_false_iff.2 inside)
  · next levels compartment s =>
      split
      · next inner => exact .bracket levels compartment inner
      · next other => exact .line levels compartment _ s other
  · next levels compartment role inner =>
      split
      · next room => exact .nest levels compartment _ role inner room
      · exact .stop _ _
  · next levels compartment source s =>
      split
      · exact .linkless levels compartment _ source s
      · split
        · next inner opens => exact .link levels compartment source s inner opens
        · exact .stop _ _
  · next levels compartment s =>
      split
      · exact .next levels compartment s
      · split
        · exact moves_leave levels compartment (.behind s)
        · exact .stop _ _

/-! ### Runs -/

def start (s : List Char) : Point := ⟨[], .empty, .slots s⟩

/-- The machine passes these points and stops with this result. -/
inductive Run : Turn → List Point → Except Fault Compartment → Prop
  | stop (result : Except Fault Compartment) : Run (.stop result) [] result
  | go {point : Point} {points : List Point} {result : Except Fault Compartment}
      (rest : Run (step point) points result) : Run (.go point) (point :: points) result

/-- There is one way only. -/
theorem Run.unique {turn : Turn} {points others : List Point}
    {result other : Except Fault Compartment} (one : Run turn points result)
    (two : Run turn others other) : points = others ∧ result = other := by
  induction one generalizing others with
  | stop result =>
      cases two
      exact ⟨rfl, rfl⟩
  | go rest ih =>
      cases two with
      | go rest' =>
          obtain ⟨same, result⟩ := ih rest'
          exact ⟨congrArg _ same, result⟩

/-- From each point on the machine comes to the same end. -/
theorem Run.from_point {turn : Turn} {points : List Point} {result : Except Fault Compartment}
    (whole : Run turn points result) {point : Point} (passed : point ∈ points) :
    ∃ further, Run (.go point) further result := by
  induction whole with
  | stop result => cases passed
  | go rest ih =>
      rcases List.mem_cons.1 passed with rfl | later
      · exact ⟨_, .go rest⟩
      · exact ih later

/-- It holds where the turn leads, if it leads anywhere. -/
def Turn.All (holds : Point → Prop) : Turn → Prop
  | .stop _ => True
  | .go next => holds next

theorem Run.all {holds : Point → Prop} (keeps : ∀ point, holds point → (step point).All holds)
    {turn : Turn} {points : List Point} {result : Except Fault Compartment}
    (run : Run turn points result) (first : turn.All holds) : ∀ point ∈ points, holds point := by
  induction run with
  | stop result =>
      intro point mem
      exact absurd mem List.not_mem_nil
  | go rest ih =>
      intro point mem
      rcases List.mem_cons.1 mem with rfl | later
      · exact first
      · exact ih (keeps _ first) point later

/-! ### What the machine reads -/

def Ends (turn : Turn) (result : Except Fault Compartment) : Prop := ∃ points, Run turn points result

theorem Ends.of_step {point : Point} {result : Except Fault Compartment}
    (ends : Ends (step point) result) : Ends (.go point) result := by
  obtain ⟨points, rest⟩ := ends
  exact ⟨point :: points, .go rest⟩

variable {α β : Type}

/-- The machine reads what a reader reads, and goes on with it as `next` says; a fault of the reader
is the end. -/
def Reads (turn : Turn) (next : α → List Char → Turn) : Outcome α → Prop
  | .error fault => Ends turn (.error fault)
  | .ok (value, rest) => ∀ result, Ends (next value rest) result → Ends turn result

namespace Reads

theorem of_step {point : Point} {next : α → List Char → Turn} {outcome : Outcome α}
    (reads : Reads (step point) next outcome) : Reads (.go point) next outcome := by
  cases outcome with
  | error fault => exact Ends.of_step reads
  | ok found => exact fun result ends => Ends.of_step (reads result ends)

theorem ok {turn : Turn} {next : α → List Char → Turn} {value : α} {rest : List Char}
    (same : turn = next value rest) : Reads turn next (.ok (value, rest)) := by
  intro result ends
  rwa [same]

theorem error (next : α → List Char → Turn) (fault : Fault) :
    Reads (.stop (.error fault)) next (.error fault) :=
  ⟨[], .stop _⟩

theorem andThen {turn : Turn} {middle : α → List Char → Turn} {next : β → List Char → Turn}
    {outcome : Outcome α} {more : α → List Char → Outcome β} (reads : Reads turn middle outcome)
    (further : ∀ value rest, outcome = .ok (value, rest) →
      Reads (middle value rest) next (more value rest)) :
    Reads turn next (outcome.andThen more) := by
  cases outcome with
  | error fault => exact reads
  | ok found =>
      obtain ⟨value, rest⟩ := found
      have inside := further value rest rfl
      rw [Outcome.andThen_ok]
      cases done : more value rest with
      | error fault =>
          rw [done] at inside
          exact reads _ inside
      | ok found =>
          rw [done] at inside
          exact fun result ends => reads result (inside result ends)

end Reads

/-- The machine reads the classifiers at this depth as `body` does. -/
def Follows (levels : List Level) (body : BodyReader) : Prop :=
  ∀ compartment role inner,
    Reads (.go ⟨levels, compartment, .classifier role inner⟩)
      (fun classifier left => role.resume levels compartment classifier left) (body.read inner)

variable {levels : List Level} {body : BodyReader}

theorem reads_links (follows : Follows levels body) (compartment : Compartment)
    (source : Classifier) (s : List Char) :
    Reads (.go ⟨levels, compartment, .links source s⟩)
      (fun chain left => .go ⟨levels, compartment ++ chain, .behind left⟩)
      (links body source s) := by
  apply Reads.of_step
  rw [links_eq]
  by_cases blank : isBlank (run s) = true
  · rw [step, if_pos blank, if_pos blank]
    exact Reads.ok rfl
  · have link := Bool.eq_false_iff.2 blank
    rw [if_neg blank]
    split
    · next inner opens =>
        rw [step_link link opens]
        apply (follows compartment (.target source s) inner).andThen
        intro target rest read
        have shorter := (target_progress opens read).2
        rw [Role.resume]
        cases Link.ofText? (unescape (run s)) with
        | none => exact Reads.error _ _
        | some link =>
            apply (reads_links follows _ target rest).andThen
            intro chain left _
            apply Reads.ok
            rw [Compartment.append_assoc]
    · next other =>
        rw [step_dangling link other]
        exact Reads.error _ _
termination_by s.length

theorem reads_slot (follows : Follows levels body) (compartment : Compartment) (s : List Char) :
    Reads (.go ⟨levels, compartment, .slot s⟩)
      (fun piece rest => .go ⟨levels, compartment ++ piece, .behind rest⟩) (slot body s) := by
  apply Reads.of_step
  by_cases bracket : ∃ inner, s = '[' :: inner
  · obtain ⟨inner, rfl⟩ := bracket
    rw [slot_eq]
    apply (follows compartment .first inner).andThen
    intro first rest _
    exact reads_links follows compartment first rest
  · have other : ∀ inner, s ≠ '[' :: inner := fun inner same => bracket ⟨inner, same⟩
    rw [slot_line other, step_line other]
    exact Reads.ok rfl

theorem reads_slots (follows : Follows levels body) (compartment : Compartment) (s : List Char) :
    Reads (.go ⟨levels, compartment, .slots s⟩)
      (fun more left => leave levels (compartment ++ more) left) (slots body s) := by
  apply Reads.of_step
  rw [slots_eq, step]
  by_cases boundary : atBoundary (skipSeparators s) = true
  · rw [if_pos boundary, if_pos boundary]
    apply Reads.ok
    rw [Compartment.append_empty]
  · rw [if_neg boundary, if_neg boundary]
    apply (reads_slot follows compartment (skipSeparators s)).andThen
    intro piece rest read
    have shorter := (slot_progress boundary read).2
    have further := reads_slots follows (compartment ++ piece) rest
    apply Reads.of_step
    rw [step]
    cases apart : separated rest with
    | true =>
        cases last : atBoundary (skipSeparators rest) with
        | true =>
            -- the reader looks for the end of the compartment here, the machine one turn later
            simp only [↓reduceIte]
            apply Reads.of_step
            rw [step, if_pos last]
            exact Reads.ok rfl
        | false =>
            simp only [Bool.false_eq_true, ↓reduceIte]
            apply further.andThen
            intro more left _
            apply Reads.ok
            rw [Compartment.append_assoc]
    | false =>
        cases last : atBoundary (skipSeparators rest) with
        | true =>
            simp only [Bool.false_eq_true, ↓reduceIte]
            exact Reads.ok rfl
        | false =>
            simp only [Bool.false_eq_true, ↓reduceIte]
            exact Reads.error _ _
termination_by s.length

theorem leave_bar {level : Level} {outer : List Level} {s next : List Char}
    (bar : skipGap s = '|' :: next) (compartment : Compartment) :
    leave (level :: outer) compartment s =
      .go ⟨{ level with parts := level.parts ++ [compartment] } :: outer, .empty,
        .slots (skipGap next)⟩ := by
  simp only [leave, bar]

theorem leave_barless {level : Level} {outer : List Level} {s : List Char}
    (barless : ∀ next, skipGap s ≠ '|' :: next) (compartment : Compartment) :
    leave (level :: outer) compartment s =
      level.close outer (level.parts ++ [compartment]) s := by
  rw [leave]
  split
  · next next bar => exact absurd bar (barless next)
  · rfl

theorem close_bracket {level : Level} {outer : List Level} {s left : List Char}
    (bracket : skipGap s = ']' :: left) (parts : List Compartment) :
    level.close outer parts s =
      level.role.resume outer level.around (.ofCompartments parts) left := by
  simp only [Level.close, bracket]

theorem close_bracketless {level : Level} {outer : List Level} {s : List Char}
    (other : ∀ left, skipGap s ≠ ']' :: left) (parts : List Compartment) :
    level.close outer parts s =
      .stop (.error ⟨.unclosedClassifier, '[' :: level.inner, skipGap s⟩) := by
  rw [Level.close]
  split
  · next left bracket => exact absurd bracket (other left)
  · rfl

theorem reads_compartments {outer : List Level} (level : Level)
    (follows : ∀ parts, Follows ({ level with parts := parts } :: outer) body) (s : List Char) :
    Reads (.go ⟨level :: outer, .empty, .slots s⟩)
      (fun more left => level.close outer (level.parts ++ more) left) (compartments body s) := by
  rw [compartments_eq]
  apply (reads_slots (follows level.parts) .empty s).andThen
  intro first rest read
  rw [Compartment.empty_append]
  by_cases barred : ∃ next, skipGap rest = '|' :: next
  · obtain ⟨next, bar⟩ := barred
    have shorter := (bar_progress read bar).2
    rw [leave_bar bar]
    simp only [bar]
    apply (reads_compartments { level with parts := level.parts ++ [first] } follows
      (skipGap next)).andThen
    intro more left _
    apply Reads.ok
    rw [← List.append_cons]
    rfl
  · have barless : ∀ next, skipGap rest ≠ '|' :: next := fun next same => barred ⟨next, same⟩
    rw [leave_barless barless]
    split
    · next next bar => exact absurd bar (barless next)
    · exact Reads.ok rfl
termination_by s.length

/-- The machine opens a classifier where the reader has a level left for it. -/
theorem classifier_follows (allowed : Nat) (levels : List Level)
    (left : nestingLimit - levels.length = allowed) : Follows levels (classifier allowed) := by
  induction allowed generalizing levels with
  | zero =>
      intro compartment role inner
      apply Reads.of_step
      have full : ¬ levels.length < nestingLimit := by omega
      rw [step, if_neg full]
      exact Reads.error _ _
  | succ allowed ih =>
      intro compartment role inner
      apply Reads.of_step
      have room : levels.length < nestingLimit := by omega
      rw [step, if_pos room]
      have inside : ∀ parts,
          Follows (⟨compartment, role, inner, parts⟩ :: levels) (classifier allowed) := by
        intro parts
        apply ih
        rw [List.length_cons]
        omega
      change Reads _ _ (closed (classifier allowed) inner)
      rw [closed_eq]
      apply (reads_compartments ⟨compartment, role, inner, []⟩ inside inner).andThen
      intro parts rest _
      split
      · next left bracket =>
          rw [close_bracket bracket]
          exact Reads.ok rfl
      · next other =>
          rw [close_bracketless other]
          exact Reads.error _ _

/-- The machine stops on every text, with what the text is as a document. -/
theorem ends_document (s : List Char) : Ends (.go (start s)) (document s) := by
  have reads := reads_slots (classifier_follows nestingLimit [] rfl) .empty s
  rw [document]
  cases read : slots (classifier nestingLimit) s with
  | error fault =>
      rw [read] at reads
      exact reads
  | ok found =>
      obtain ⟨root, rest⟩ := found
      rw [read] at reads
      apply reads
      change Ends (leave [] (.empty ++ root) rest) _
      rw [Compartment.empty_append, leave]
      cases more : skipGap rest with
      | nil =>
          simp only [more]
          exact ⟨[], .stop _⟩
      | cons found left =>
          simp only [more]
          exact ⟨[], .stop _⟩

end ClassDiagram.Draft.Machine
