import ClassDiagram.Proofs.Draft.Machine
import ClassDiagram.Proofs.Draft.Repetition
import Mathlib.Data.List.DropRight

set_option autoImplicit false

/-!
Each turn of the machine takes something from the room that the text that is left gives, and what
begins at a point is paid for out of that room.
-/
namespace ClassDiagram.Draft.Machine

open Text (isBlank run afterRun)

structure Point.Sound (point : Point) : Prop where
  levels : point.levels.length ≤ nestingLimit
  /-- A slot begins behind all separators and away from a boundary. -/
  slot : ∀ s, point.control = .slot s → skipSeparators s = s ∧ atBoundary s = false

theorem start_sound (s : List Char) : (start s).Sound where
  levels := Nat.zero_le _
  slot := by
    intro t same
    exact absurd same (by simp [start])

theorem skipSeparators_idem (s : List Char) :
    skipSeparators (skipSeparators s) = skipSeparators s := by
  unfold skipSeparators
  exact List.dropWhile_idempotent isSlotGap s

theorem step_sound (point : Point) (sound : point.Sound) : (step point).All Point.Sound := by
  -- only the turn out of `slots` leads to a slot
  have slotless : ∀ {control : Control}, (∀ s, control ≠ .slot s) →
      ∀ s, control = .slot s → skipSeparators s = s ∧ atBoundary s = false :=
    fun other s same => absurd same (other s)
  have moves := moves_step point
  generalize step point = turn at moves
  cases moves with
  | stop result => trivial
  | slot levels compartment s inside =>
      refine ⟨sound.levels, ?_⟩
      intro t same
      injection same with same
      subst same
      exact ⟨skipSeparators_idem s, inside⟩
  | bracket levels compartment inner => exact ⟨sound.levels, slotless (by simp)⟩
  | line levels compartment more s other => exact ⟨sound.levels, slotless (by simp)⟩
  | nest levels compartment level role inner room =>
      refine ⟨?_, slotless (by simp)⟩
      simp only [List.length_cons]
      omega
  | link levels compartment source s inner opens => exact ⟨sound.levels, slotless (by simp)⟩
  | linkless levels compartment more source s => exact ⟨sound.levels, slotless (by simp)⟩
  | next levels compartment s => exact ⟨sound.levels, slotless (by simp)⟩
  | bar level other outer compartment control s next leaves bar =>
      exact ⟨sound.levels, slotless (by simp)⟩
  | close level outer compartment more control classifier s left leaves bracket =>
      have levels := sound.levels
      simp only [List.length_cons] at levels
      refine ⟨?_, slotless (by simp)⟩
      simp only
      omega

namespace Control

@[simp]
def isSlot : Control → Bool
  | slot _ => true
  | _ => false

/-- A link has been read, up to the bracket of its target. -/
@[simp]
def isLink : Control → Bool
  | classifier (.target _ _) _ => true
  | _ => false

@[simp]
def isClassifier : Control → Bool
  | classifier _ _ => true
  | _ => false

-- Without a character taken the machine goes from `links` to `behind`, `slots` and `slot` only; a
-- `classifier` has its bracket behind it.
/-- How many turns there may be from here on: a character gives room for three. -/
@[simp]
def turns : Control → Nat
  | slot s => 3 * s.length + 1
  | slots s => 3 * s.length + 2
  | classifier _ s => 3 * s.length + 3
  | behind s => 3 * s.length + 3
  | links _ s => 3 * s.length + 4

/-- How many slots and links may begin from here on. -/
@[simp]
def pieces : Control → Nat
  | classifier (.target _ _) s => s.length + 1
  | classifier .first s => s.length
  | slot s => s.length
  | slots s => s.length
  | behind s => s.length
  | links _ s => s.length

@[simp]
def brackets : Control → Nat
  | classifier _ s => s.length + 1
  | slot s => s.length
  | slots s => s.length
  | behind s => s.length
  | links _ s => s.length

/-- A mark behind the end of a compartment takes a character at least. -/
theorem Leaves.length {control : Control} {s t : List Char} {c : Char} (leaves : control.Leaves s)
    (mark : skipGap s = c :: t) :
    (∃ r, control = .slots r ∧ t.length + 1 ≤ r.length) ∨
      ∃ r, control = .behind r ∧ t.length + 1 ≤ r.length := by
  have gap := (skipGap_suffix s).length_le
  rw [mark, List.length_cons] at gap
  cases leaves with
  | slots r =>
      have skipped := (skipSeparators_suffix r).length_le
      exact .inl ⟨r, rfl, by omega⟩
  | behind r =>
      have skipped := (skipSeparators_suffix r).length_le
      exact .inr ⟨r, rfl, by omega⟩

end Control

@[simp]
def Turn.room (room : Control → Nat) : Turn → Nat
  | .stop _ => 0
  | .go next => room next.control

/-- What begins at a point is taken from the room that is left. -/
structure Takes (control : Control) (turn : Turn) : Prop where
  turns : 1 + turn.room Control.turns ≤ control.turns
  pieces : (if control.isSlot then 1 else 0) + (if control.isLink then 1 else 0) +
    turn.room Control.pieces ≤ control.pieces
  brackets : (if control.isClassifier then 1 else 0) + turn.room Control.brackets ≤
    control.brackets

theorem Point.Sound.slot_length {point : Point} (sound : point.Sound) {s : List Char}
    (slot : point.control = .slot s) : 0 < s.length := by
  obtain ⟨-, inside⟩ := sound.slot s slot
  apply List.length_pos_of_ne_nil
  rintro rfl
  exact Bool.noConfusion inside

/-- A line of text takes a character at least. -/
theorem Point.Sound.line_length {point : Point} (sound : point.Sound) {s : List Char}
    (slot : point.control = .slot s) (other : ∀ inner, s ≠ '[' :: inner) :
    (afterRun s).length + 1 ≤ s.length := by
  obtain ⟨skipped, inside⟩ := sound.slot s slot
  cases s with
  | nil => exact Bool.noConfusion inside
  | cons c r =>
      have goes := endsRun_eq_false skipped inside fun bracket => other r (by rw [bracket])
      exact Text.afterRun_length_lt goes

theorem step_takes (point : Point) (sound : point.Sound) : Takes point.control (step point) := by
  have moves := moves_step point
  generalize step point = turn at moves
  cases moves with
  | stop _ result =>
      cases control : point.control with
      | slot s =>
          have something := sound.slot_length control
          constructor <;> simp
          omega
      | slots s => constructor <;> simp
      | behind s => constructor <;> simp
      | links source s => constructor <;> simp
      | classifier role s => cases role <;> constructor <;> simp
  | slot levels compartment s inside =>
      have skipped := (skipSeparators_suffix s).length_le
      constructor <;> simp <;> omega
  | bracket levels compartment inner => constructor <;> simp <;> omega
  | line levels compartment more s other =>
      have shorter := sound.line_length rfl other
      constructor <;> simp <;> omega
  | nest levels compartment level role inner room =>
      cases role <;> constructor <;> simp <;> omega
  | link levels compartment source s inner opens =>
      have behind := (Text.afterRun_suffix s).length_le
      rw [opens, List.length_cons] at behind
      constructor <;> simp <;> omega
  | linkless levels compartment more source s =>
      constructor <;> simp
      omega
  | next levels compartment s =>
      constructor <;> simp
      omega
  | bar level other outer compartment control s next leaves bar =>
      have gap := (skipGap_suffix next).length_le
      obtain ⟨r, rfl, shorter⟩ | ⟨r, rfl, shorter⟩ := leaves.length bar
      · constructor <;> simp <;> omega
      · constructor <;> simp <;> omega
  | close level outer compartment more control classifier s left leaves bracket =>
      obtain ⟨r, rfl, shorter⟩ | ⟨r, rfl, shorter⟩ := leaves.length bracket
      · constructor <;> simp <;> omega
      · constructor <;> simp <;> omega

/-- When every turn takes from the room that is left what begins at its point, no more begins in a
run than there is room for. -/
theorem Run.countP_le (p q : Control → Bool) (room : Control → Nat)
    (takes : ∀ point : Point, point.Sound →
      (if p point.control then 1 else 0) + (if q point.control then 1 else 0) +
        (step point).room room ≤ room point.control)
    {turn : Turn} {points : List Point} {result : Except Fault Compartment}
    (run : Run turn points result) (first : turn.All Point.Sound) :
    points.countP (fun point => p point.control) + points.countP (fun point => q point.control) ≤
      turn.room room := by
  induction run with
  | stop result => exact Nat.le_refl 0
  | @go point points result rest ih =>
      have further := ih (step_sound point first)
      have here := takes point first
      rw [List.countP_cons, List.countP_cons]
      change _ ≤ room point.control
      omega

/-- A run is no longer than the text allows, and no more begins in it. -/
structure Bounded (points : List Point) (length : Nat) : Prop where
  turns : points.length ≤ 3 * length + 2
  pieces : points.countP (fun point => point.control.isSlot) +
    points.countP (fun point => point.control.isLink) ≤ length
  classifiers : points.countP (fun point => point.control.isClassifier) ≤ length

theorem bounded_of_run {s : List Char} {points : List Point} {result : Except Fault Compartment}
    (run : Run (.go (start s)) points result) : Bounded points s.length where
  turns := by
    have counted := run.countP_le (fun _ => true) (fun _ => false) Control.turns
      (fun point sound => (step_takes point sound).turns) (start_sound s)
    rwa [List.countP_true, List.countP_false] at counted
  pieces := run.countP_le Control.isSlot Control.isLink Control.pieces
    (fun point sound => (step_takes point sound).pieces) (start_sound s)
  classifiers := by
    have counted := run.countP_le Control.isClassifier (fun _ => false) Control.brackets
      (fun point sound => (step_takes point sound).brackets) (start_sound s)
    rwa [List.countP_false] at counted

/-- A reader takes something off `s`, or its fault is the result of the whole. -/
def Advances {α : Type} (result : Except Fault Compartment) (s : List Char) : Outcome α → Prop
  | .ok (_, rest) => ProperTail rest s
  | .error fault => result = .error fault

def Point.body (point : Point) : BodyReader := classifier (nestingLimit - point.levels.length)

/-- How many classifiers are being read, one whose bracket has just been read included. -/
def Point.depth (point : Point) : Nat :=
  point.levels.length + if point.control.isClassifier then 1 else 0

/-- The classifier to which the link at the start of `s` leads. -/
def target (body : BodyReader) (s : List Char) : Outcome Classifier :=
  match afterRun s with
  | '[' :: inner => body.read inner
  | stop => .error ⟨.missingTarget, s, stop⟩

/-- At this point of a reading with this result there is headway. -/
structure Headway (result : Except Fault Compartment) (point : Point) : Prop where
  /-- Where a compartment does not end, the next slot takes a character at least. -/
  slot : ∀ s, point.control = .slots s → atBoundary (skipSeparators s) = false →
    Advances result (skipSeparators s) (Draft.slot point.body (skipSeparators s))
  /-- Where a chain does not end, a link that is not empty is taken, and then a classifier. -/
  link : ∀ source s, point.control = .links source s → isBlank (run s) = false →
    run s ≠ [] ∧ Advances result (afterRun s) (target point.body s)
  depth : point.depth ≤ 101

theorem Run.result_eq {point : Point} {points : List Point} {result : Except Fault Compartment}
    {fault : Fault} (run : Run (.go point) points result) (ends : Ends (.go point) (.error fault)) :
    result = .error fault := by
  obtain ⟨others, other⟩ := ends
  exact (run.unique other).2

theorem advances_slot {levels : List Level} {compartment : Compartment} {s : List Char}
    {points : List Point} {result : Except Fault Compartment}
    (run : Run (.go ⟨levels, compartment, .slots s⟩) points result)
    (inside : atBoundary (skipSeparators s) = false) :
    Advances result (skipSeparators s)
      (slot (classifier (nestingLimit - levels.length)) (skipSeparators s)) := by
  have reads := reads_slot (classifier_follows _ levels rfl) compartment (skipSeparators s)
  cases read : slot (classifier (nestingLimit - levels.length)) (skipSeparators s) with
  | ok found =>
      rw [← skipSeparators_idem s] at inside read
      exact slot_progress (by simp [inside]) read
  | error fault =>
      rw [read] at reads
      apply run.result_eq
      apply Ends.of_step
      rw [step, if_neg (by simp [inside])]
      exact reads

theorem advances_target {levels : List Level} {compartment : Compartment} {source : Classifier}
    {s : List Char} {points : List Point} {result : Except Fault Compartment}
    (run : Run (.go ⟨levels, compartment, .links source s⟩) points result)
    (link : isBlank (Text.run s) = false) :
    Advances result (afterRun s) (target (classifier (nestingLimit - levels.length)) s) := by
  unfold target
  split
  · next inner opens =>
      have reads := classifier_follows _ levels rfl compartment (.target source s) inner
      cases read : (classifier (nestingLimit - levels.length)).read inner with
      | ok found =>
          rw [opens]
          exact properTail_of_suffix ((classifier _).progress read).1 (properTail_cons '[' inner)
      | error fault =>
          rw [read] at reads
          apply run.result_eq
          apply Ends.of_step
          rw [step_link link opens]
          exact reads
  · next other =>
      apply run.result_eq
      apply Ends.of_step
      rw [step_dangling link other]
      exact ⟨[], .stop _⟩

theorem headway_of_run {s : List Char} {points : List Point} {result : Except Fault Compartment}
    (whole : Run (.go (start s)) points result) : ∀ point ∈ points, Headway result point := by
  intro point passed
  have sound := whole.all step_sound (start_sound s) point passed
  obtain ⟨further, run⟩ := whole.from_point passed
  obtain ⟨levels, compartment, control⟩ := point
  constructor
  · intro t same inside
    subst same
    exact advances_slot run inside
  · intro source t same link
    subst same
    refine ⟨?_, advances_target run link⟩
    intro nothing
    rw [nothing] at link
    exact Bool.noConfusion link
  · have limited : levels.length ≤ 100 := sound.levels
    unfold Point.depth
    simp only
    split
    · omega
    · omega

/-- Reading a text comes to an end, and there is headway at each of its points. It passes no more
points, and no more slots, links and classifiers begin, than the length of the text allows; never are
more than 101 classifiers being read. What is repeated inside a slot and between slots takes a
character every time, so no repetition fails for want of headway. -/
theorem ofText?_headway (text : String) :
    ∃ points result, Run (.go (start text.toList)) points result ∧
      ofText? text = result.mapError (fun fault => fault.toDiagnostic text.toList) ∧
      (∀ point ∈ points, Headway result point) ∧ Bounded points text.length ∧
      ∀ s, Scan.Unhindered s := by
  obtain ⟨points, run⟩ := ends_document text.toList
  refine ⟨points, _, run, ?_, headway_of_run run, ?_, Scan.unhindered⟩
  · rw [ofText?]
    cases document text.toList <;> rfl
  · rw [← String.length_toList]
    exact bounded_of_run run

end ClassDiagram.Draft.Machine
