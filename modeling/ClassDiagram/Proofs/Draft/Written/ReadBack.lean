import ClassDiagram.Proofs.Draft.Steps
import ClassDiagram.Proofs.Draft.Written.Texts

set_option autoImplicit false

/-!
Slots, compartments and classifiers are taken in the order in which the readers call each other, for
any reader `body` that reads back what is printed of the classifiers inside; only the last step is
an induction on the levels of nesting.
-/
namespace ClassDiagram.Written

open Text (isGap isSpace isSeparator endsRun run afterRun)
open Draft (BodyReader skipSeparators skipGap atBoundary separated isSlotGap)

/-- Whether a compartment ends before `s`: nothing follows, a bar or a closing bracket. -/
def Closes (s : List Char) : Prop := ∀ c ∈ s.head?, c = '|' ∨ c = ']'

theorem Closes.endsRun {s : List Char} (closes : Closes s) : ∀ c ∈ s.head?, endsRun c = true := by
  intro c hc
  rcases closes c hc with rfl | rfl <;> decide

theorem Closes.skipSeparators_eq {s : List Char} (closes : Closes s) : skipSeparators s = s := by
  cases s with
  | nil => rfl
  | cons c r => rcases closes c rfl with rfl | rfl <;> rfl

theorem Closes.skipGap_eq {s : List Char} (closes : Closes s) : skipGap s = s := by
  cases s with
  | nil => rfl
  | cons c r => rcases closes c rfl with rfl | rfl <;> rfl

theorem Closes.atBoundary {s : List Char} (closes : Closes s) : atBoundary s = true := by
  rw [Draft.atBoundary, closes.skipGap_eq]
  cases s with
  | nil => rfl
  | cons c r => rcases closes c rfl with rfl | rfl <;> rfl

theorem Closes.not_separated {s : List Char} (closes : Closes s) : separated s = false := by
  cases s with
  | nil => rfl
  | cons c r => rcases closes c rfl with rfl | rfl <;> rfl

theorem Separators.isSlotGap (separators : Separators) :
    ∀ c ∈ separators.marks, isSlotGap c = true := by
  intro c hc
  simp [Draft.isSlotGap, separators.separate c hc]

theorem Separators.separated_append (separators : Separators) (s : List Char) :
    separated (separators.marks ++ s) = true := by
  rw [separated, List.takeWhile_append_of_pos separators.isSlotGap, List.any_append]
  cases shape : separators.marks with
  | nil => exact absurd shape separators.ne_nil
  | cons c r => simp [separators.separate c (by simp [shape])]

theorem Separators.endsRun_append (separators : Separators) (s : List Char) :
    ∀ c ∈ (separators.marks ++ s).head?, endsRun c = true := by
  cases shape : separators.marks with
  | nil => exact absurd shape separators.ne_nil
  | cons d r =>
      rintro c ⟨⟩
      simp [Text.endsRun, separators.separate d (by simp [shape])]

section slots

variable {β : Type} {body : BodyReader} {inner : β → List Char} {draft : β → Draft.Classifier}

/-- `s` begins as a slot does. -/
def Opens (s : List Char) : Prop :=
  ∃ c r, s = c :: r ∧ isGap c = false ∧ (endsRun c = true → c = '[')

theorem Slot.print_opens (inner : β → List Char) (slot : Slot β) (rest : List Char) :
    Opens (slot.print inner ++ rest) := by
  cases slot with
  | line text =>
      obtain ⟨c, r, shape, dark, goes⟩ := text.print_cons
      refine ⟨c, r ++ rest, by rw [Slot.print, shape]; rfl, ?_, by simp [goes]⟩
      cases gap : isGap c with
      | false => rfl
      | true =>
          rw [Text.isWhite_of_isGap gap] at dark
          cases dark
  | chain first links => exact ⟨'[', _, rfl, by decide, fun _ => rfl⟩

theorem Opens.skipGap_eq {s : List Char} (opens : Opens s) : skipGap s = s := by
  obtain ⟨c, r, rfl, gap, -⟩ := opens
  simp [skipGap, gap]

theorem Opens.skipSeparators_eq {s gap : List Char} (opens : Opens s)
    (gaps : ∀ c ∈ gap, isSlotGap c = true) : skipSeparators (gap ++ s) = s := by
  obtain ⟨c, r, rfl, dark, ends⟩ := opens
  have stop : isSlotGap c = false := by
    simp only [isGap, Bool.or_eq_false_iff] at dark
    simp only [isSlotGap, dark.1.1, Bool.false_or]
    cases mark : isSeparator c with
    | false => rfl
    | true =>
        rw [ends (by simp [endsRun, mark])] at mark
        exact absurd mark (by decide)
  rw [skipSeparators, List.dropWhile_append_of_pos gaps]
  simp [stop]

theorem Opens.not_atBoundary {s : List Char} (opens : Opens s) : atBoundary s = false := by
  have whole := opens.skipGap_eq
  obtain ⟨c, r, rfl, -, ends⟩ := opens
  rw [atBoundary, whole]
  by_cases last : c = ']' ∨ c = '|'
  · have bracket := ends (by rcases last with rfl | rfl <;> decide)
    rw [bracket] at last
    exact absurd last (by decide)
  · rw [not_or] at last
    simp [last]

/-- Whenever `inner` prints a classifier, `body` reads it back and stops right behind it. -/
def ReadsBack (body : BodyReader) (inner : β → List Char) (draft : β → Draft.Classifier) : Prop :=
  ∀ classifier rest, body.read (inner classifier ++ rest) = .ok (draft classifier, rest)

theorem draftOfSlots_cons (slot : Slot β) (slots : List (Slot β)) :
    draftOfSlots draft (slot :: slots) = draftOfSlots draft [slot] ++ draftOfSlots draft slots := by
  apply Draft.Compartment.ext_fields
  · rw [Draft.Compartment.append_lines]
    simp [draftOfSlots]
  · rw [Draft.Compartment.append_classifiers]
    simp [draftOfSlots]
  · rw [Draft.Compartment.append_relations]
    simp [draftOfSlots]

/-- A chain is read link by link, and reading stops where no link follows. -/
theorem links_print (back : ReadsBack body inner draft) (source : Draft.Classifier)
    (links : List (Link × β)) {rest : List Char} (stop : ∀ c ∈ rest.head?, endsRun c = true) :
    Draft.links body source
        ((links.flatMap fun link => link.1.print ++ '[' :: inner link.2) ++ rest) =
      .ok (⟨[], source :: links.map fun link => draft link.2,
        relationsFrom source.name (links.map fun link => (link.1, draft link.2))⟩, rest) := by
  induction links generalizing source with
  | nil =>
      have nothing : run rest = [] := by rw [run, Text.cutRun_of_stop stop]
      exact Draft.links_blank (by rw [List.flatMap_nil, List.nil_append, nothing]; rfl)
  | cons next links ih =>
      obtain ⟨link, target⟩ := next
      let more := (links.flatMap fun link => link.1.print ++ '[' :: inner link.2) ++ rest
      have shape : ((link, target) :: links).flatMap
          (fun link => link.1.print ++ '[' :: inner link.2) ++ rest =
          link.print ++ '[' :: (inner target ++ more) := by simp [more]
      have cut := link.cutRun_print (inner target ++ more)
      obtain ⟨found, arrow, relation⟩ := link.relation_print source.name (draft target).name
      rw [shape, Draft.links_target (by rw [run, cut]; exact link.print_not_blank)
        (by rw [afterRun, cut]) (back target more) (by rw [run, cut]; exact arrow)
        (ih (draft target)), relation]
      rfl

theorem slot_print (back : ReadsBack body inner draft) (slot : Slot β) {rest : List Char}
    (stop : ∀ c ∈ rest.head?, endsRun c = true) :
    Draft.slot body (slot.print inner ++ rest) = .ok (draftOfSlots draft [slot], rest) := by
  cases slot with
  | line text =>
      have cut := text.cutRun_print stop
      have bracketless : ∀ r, text.print ++ rest ≠ '[' :: r := by
        intro r h
        obtain ⟨c, t, shape, -, goes⟩ := text.print_cons
        rw [shape] at h
        cases h
        exact absurd goes (by decide)
      rw [Slot.print, Draft.slot_line bracketless, run, afterRun, cut, text.textLine_print]
      rfl
  | chain first links =>
      have shape : (Slot.chain first links).print inner ++ rest = '[' :: (inner first ++
          ((links.flatMap fun link => link.1.print ++ '[' :: inner link.2) ++ rest)) := by
        simp [Slot.print]
      rw [shape, Draft.slot_chain (back first _), links_print back _ links stop]
      simp [draftOfSlots, Slot.lines, Slot.classifiers, Slot.relations]

/-- Slots are read one after the other up to the end of their compartment. Separators may stand in
front of them: those between the first slot and its predecessor. -/
theorem slots_print (back : ReadsBack body inner draft) (first : Slot β) (further : Further β)
    (gap : List Char) {rest : List Char} (gaps : ∀ c ∈ gap, isSlotGap c = true)
    (closes : Closes rest) :
    Draft.slots body (gap ++ (first.print inner ++ (printFurther inner further ++ rest))) =
      .ok (draftOfSlots draft (first :: further.map Prod.snd), rest) := by
  have opens := first.print_opens inner (printFurther inner further ++ rest)
  have skipped := opens.skipSeparators_eq gaps
  induction further generalizing first gap with
  | nil =>
      rw [printFurther, List.flatMap_nil, List.nil_append] at opens skipped ⊢
      have read := slot_print back first closes.endsRun
      have ended := Draft.slots_last (s := gap ++ (first.print inner ++ rest))
        (by rw [skipped]; exact opens.not_atBoundary) (by rw [skipped]; exact read)
        closes.not_separated (by rw [closes.skipSeparators_eq]; exact closes.atBoundary)
      rw [closes.skipSeparators_eq] at ended
      exact ended
  | cons next further ih =>
      obtain ⟨separators, slot⟩ := next
      have shape : printFurther inner ((separators, slot) :: further) ++ rest =
          separators.marks ++ (slot.print inner ++ (printFurther inner further ++ rest)) := by
        simp [printFurther]
      rw [shape] at opens skipped ⊢
      have opens' := slot.print_opens inner (printFurther inner further ++ rest)
      have others := ih slot separators.marks separators.isSlotGap opens'
        (opens'.skipSeparators_eq separators.isSlotGap)
      rw [Draft.slots_separated (by rw [skipped]; exact opens.not_atBoundary)
        (by rw [skipped]; exact slot_print back first (separators.endsRun_append _))
        (separators.separated_append _) others, ← draftOfSlots_cons]
      rfl

theorem section_print (back : ReadsBack body inner draft) (part : Section β) {rest : List Char}
    (closes : Closes rest) :
    Draft.slots body (part.print inner ++ rest) = .ok (draftOfSlots draft part.toList, rest) := by
  cases part with
  | empty =>
      have ended : Draft.slots body rest = .ok (.empty, skipSeparators rest) :=
        Draft.slots_end (by rw [closes.skipSeparators_eq]; exact closes.atBoundary)
      rw [closes.skipSeparators_eq] at ended
      exact ended
  | slots first further =>
      have read := slots_print back first further [] (by simp) closes
      rw [Section.print, List.append_assoc]
      exact read

theorem Section.print_skipGap (part : Section β) {rest : List Char} (closes : Closes rest) :
    skipGap (part.print inner ++ rest) = part.print inner ++ rest := by
  cases part with
  | empty => exact closes.skipGap_eq
  | slots first further =>
      rw [Section.print, List.append_assoc]
      exact (first.print_opens inner _).skipGap_eq

theorem closes_parts (inner : β → List Char) (parts : List (Section β)) (rest : List Char) :
    Closes ((parts.flatMap fun part => '|' :: part.print inner) ++ ']' :: rest) := by
  cases parts with
  | nil =>
      rintro c ⟨⟩
      exact .inr rfl
  | cons part parts =>
      rintro c ⟨⟩
      exact .inl rfl

theorem compartments_print (back : ReadsBack body inner draft) (first : Section β)
    (parts : List (Section β)) (rest : List Char) :
    Draft.compartments body (first.print inner ++
        ((parts.flatMap fun part => '|' :: part.print inner) ++ ']' :: rest)) =
      .ok (draftOfSlots draft first.toList :: parts.map fun part => draftOfSlots draft part.toList,
        ']' :: rest) := by
  have closes := closes_parts inner parts rest
  have read := section_print back first closes
  induction parts generalizing first with
  | nil =>
      apply Draft.compartments_end read
      intro next bar
      rw [closes.skipGap_eq] at bar
      cases bar
  | cons part parts ih =>
      have closes' := closes_parts inner parts rest
      have others := ih part closes' (section_print back part closes')
      rw [← part.print_skipGap closes'] at others
      apply Draft.compartments_bar read _ others
      rw [closes.skipGap_eq]
      simp

/-- The first compartment of a classifier, with its header as a line. -/
def BoxOf.head (box : BoxOf β) : Section β := .slots (.line box.header.line) box.further

theorem BoxOf.print_append (box : BoxOf β) (rest : List Char) :
    box.print inner ++ rest = box.head.print inner ++
      ((box.parts.flatMap fun part => '|' :: part.print inner) ++ ']' :: rest) := by
  simp [BoxOf.print, BoxOf.head, Section.print, Slot.print, box.header.line_print]

theorem BoxOf.ofCompartments_draft (box : BoxOf β) :
    Draft.Classifier.ofCompartments (draftOfSlots draft box.head.toList ::
        box.parts.map fun part => draftOfSlots draft part.toList) =
      box.draft draft := by
  have lines : (draftOfSlots draft box.head.toList).lines =
      box.header.line.text :: (box.further.map Prod.snd).flatMap Slot.lines := rfl
  rw [Draft.Classifier.ofCompartments, lines]
  simp only [box.header.readHeader_line]
  rfl

theorem closed_print (back : ReadsBack body inner draft) (box : BoxOf β) (rest : List Char) :
    Draft.closed body (box.print inner ++ rest) = .ok (box.draft draft, rest) := by
  have read := compartments_print back box.head box.parts rest
  have bracket : skipGap (']' :: rest) = ']' :: rest := rfl
  rw [box.print_append, Draft.closed_bracket read bracket, box.ofCompartments_draft]

end slots

/-- Classifiers that nest at most so many levels deep are read back when so many levels are
allowed. -/
theorem classifier_readsBack (levels : Nat) :
    ReadsBack (Draft.classifier levels) (Box.print levels) (Box.draft levels) := by
  induction levels with
  | zero => intro box; cases box
  | succ levels ih => intro box rest; exact closed_print ih box rest

/-- Reading undoes printing: what is printed of a document is accepted, and read as the draft that
the document stands for. -/
theorem ofText?_print (document : Document) :
    Draft.ofText? document.print = .ok document.draft := by
  have closes : Closes [] := by
    intro c hc
    cases hc
  have read := section_print (classifier_readsBack Draft.nestingLimit) document closes
  rw [List.append_nil] at read
  rw [Draft.ofText?, Document.print, String.toList_ofList, Draft.document_end read rfl]
  rfl

end ClassDiagram.Written
