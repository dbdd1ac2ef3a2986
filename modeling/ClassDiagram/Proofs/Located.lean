import ClassDiagram.Preferences
import ClassDiagram.Proofs.Draft.Faults
import ClassDiagram.Proofs.Source.Lines

set_option autoImplicit false

namespace ClassDiagram

namespace Source

theorem isMalformed_eq_true_iff {line : Line} :
    isMalformed line.text.toList = true ↔
      line.isDirective = true ∧ ':' ∉ line.text.toList := by
  simp [isMalformed, Line.isDirective]

theorem isMalformed_eq_false_iff {line : Line} :
    isMalformed line.text.toList = false ↔
      (line.isDirective = true → ':' ∈ line.text.toList) := by
  simp [isMalformed, Line.isDirective]

/-- The lines one after the other, each with a line feed behind it. -/
def closedLines (lines : List Line) : List Char :=
  Text.closedBy '\n' (lines.map fun line => line.text.toList)

theorem closedLines_numbered (index offset : Nat) (texts : List (List Char)) :
    closedLines (numbered index offset texts) = Text.closedBy '\n' texts := by
  rw [closedLines, numbered_texts]

/-- The malformed directive is reported for `line`, which stands behind the lines `front`. -/
structure MalformedDirective.Marks (malformed : MalformedDirective) (source : String)
    (front : List Line) (line : Line) : Prop where
  number : malformed.line = line.number
  span : malformed.span = line.span
  feeds : malformed.line = (closedLines front).count '\n' + 1
  start : malformed.span.start = Text.byteLength (closedLines front)
  length : malformed.span.length = Text.byteLength (Text.trimEnd line.text.toList)
  /-- The span cuts the line, without the white space at its end, out of the source. -/
  cut : ∃ after, source.toList = closedLines front ++ (Text.trimEnd line.text.toList ++ after)

theorem marks_of_split {source : String} {front back : List (List Char)} {bad : List Char}
    (split : Text.pieces '\n' source.toList = front ++ bad :: back) :
    MalformedDirective.Marks
      ⟨front.length + 1, Line.span ⟨front.length, width front, String.ofList bad⟩⟩ source
      (numbered 0 0 front) ⟨front.length, width front, String.ofList bad⟩ := by
  have before := closedLines_numbered 0 0 front
  obtain ⟨rest, whole⟩ := source_eq_closedBy_append split
  obtain ⟨white, -, kept⟩ := Text.trimEnd_append bad
  constructor
  · rfl
  · rfl
  · rw [before, Text.closedBy_count (feedless_front split)]
  · rw [before]
    rfl
  · rw [Line.span_length, String.toList_ofList]
  · refine ⟨white ++ rest, ?_⟩
    rw [before, String.toList_ofList, ← List.append_assoc (Text.trimEnd bad), kept, whole]

/-- The first line with a hash sign in front and no colon is the one that is reported. -/
def MalformedDirective.Located (malformed : MalformedDirective) (source : String) : Prop :=
  ∃ front line back, lines source = front ++ line :: back ∧
    (∀ other ∈ front, other.isDirective = true → ':' ∈ other.text.toList) ∧
    line.isDirective = true ∧ ':' ∉ line.text.toList ∧ malformed.Marks source front line

theorem MalformedDirective.Located.exists_find? {malformed : MalformedDirective} {source : String}
    (located : malformed.Located source) :
    ∃ line, (lines source).find? (fun line => isMalformed line.text.toList) = some line ∧
      malformed = ⟨line.number, line.span⟩ := by
  obtain ⟨front, line, back, shape, fine, directive, colonless, marks⟩ := located
  refine ⟨line, ?_, ?_⟩
  · rw [List.find?_eq_some_iff_append]
    refine ⟨isMalformed_eq_true_iff.2 ⟨directive, colonless⟩, front, back, shape, ?_⟩
    intro other mem
    rw [isMalformed_eq_false_iff.2 (fine other mem)]
    rfl
  · rw [← marks.number, ← marks.span]

/-- There is one first such line only, and one report of it. -/
theorem MalformedDirective.Located.unique {one two : MalformedDirective} {source : String}
    (first : one.Located source) (second : two.Located source) : one = two := by
  obtain ⟨line, here, same⟩ := first.exists_find?
  obtain ⟨other, there, also⟩ := second.exists_find?
  obtain rfl : line = other := Option.some.inj (here.symm.trans there)
  rw [same, also]

theorem prepare_error_located {source : String} {malformed : MalformedDirective}
    (refused : prepare source = .error malformed) : malformed.Located source := by
  rcases wellFormed_or_malformed (Text.pieces '\n' source.toList) with
    fine | ⟨front, bad, back, split, fineFront, isBad⟩
  · rw [prepare_of_wellFormed fine] at refused
    cases refused
  · rw [prepare_of_malformed split fineFront isBad] at refused
    cases refused
    obtain ⟨hash, colonless⟩ : bad.head? = some '#' ∧ ':' ∉ bad := by
      simpa [isMalformed] using isBad
    have shape := numbered_append 0 0 front (bad :: back)
    rw [Nat.zero_add, Nat.zero_add, numbered, ← split, ← lines] at shape
    refine ⟨_, _, _, shape, ?_, ?_, ?_, marks_of_split split⟩
    · intro other mem
      have inside := List.mem_map_of_mem (f := fun line => line.text.toList) mem
      rw [numbered_texts] at inside
      exact isMalformed_eq_false_iff.1 (fineFront _ inside)
    · simp [Line.isDirective, hash]
    · simpa using colonless

/-- A hash sign further on in a line makes no directive. -/
example : prepare "[C#]\n#" = .error ⟨2, .between 5 6⟩ := by cbv

end Source

/-- The refusal of `text` is marked on a line that, in the source, is neither a directive nor a
remark and is the same line when it is trimmed. -/
def Label.Located (label : Label) (source text : String) : Prop :=
  ∃ before after line shown, text.toList = before ++ after ∧ after ≠ [] ∧
    label.span.start = Text.byteLength before ∧
    (Source.lines source)[before.count '\n']? = some line ∧
    (Source.lines text)[before.count '\n']? = some shown ∧
    line.isDirective = false ∧ line.isComment = false ∧ shown.text = Text.trimmed line.text

open Source in
/-- The lines of the diagram's text that are not empty stand in the source as well. -/
theorem Draft.Fault.Within.located {fault : Fault} {source : String} {prepared : Prepared}
    (ready : prepare source = .ok prepared) (within : fault.Within prepared.code.toList)
    (message : String) :
    Label.Located ⟨fault.span prepared.code.toList, message⟩ source prepared.code := by
  obtain ⟨before, c, after, whole, feedless, start, -⟩ := within.span
  obtain ⟨piece, found, mem⟩ := Text.pieces_getElem?_count feedless before after
  rw [← whole] at found
  obtain ⟨shown, hshown, rfl⟩ := exists_line found
  rw [pieces_code ready, List.getElem?_map] at found
  obtain ⟨text, inner, content⟩ := Option.map_eq_some_iff.1 found
  obtain ⟨line, hline, rfl⟩ := exists_line inner
  rw [contentOf_line] at content
  have nonempty : line.content ≠ [] := by
    rw [content]
    exact List.ne_nil_of_mem mem
  obtain ⟨noDirective, noComment, trimmed⟩ := content_of_ne_nil nonempty
  refine ⟨before, c :: after, line, shown, whole, List.cons_ne_nil _ _, start, hline, hshown,
    noDirective, noComment, ?_⟩
  rw [Text.trimmed, ← trimmed, content, String.ofList_toList]

/-- Either a directive is malformed, or the reader refuses the text prepared from the source. -/
theorem Compiler.compile_error {ε : Type} {compiler : Compiler ε} {source : String}
    {reason : CompileError ε} (refused : compiler.compile source = .error reason) :
    (∃ malformed, reason = .malformedDirective malformed ∧
      Source.prepare source = .error malformed) ∨
    ∃ prepared why, reason = .refused why ∧ Source.prepare source = .ok prepared ∧
      Compiler.textRead? source = some prepared.code ∧
      compiler.read prepared.code = .error why := by
  rw [Compiler.compile] at refused
  split at refused
  · next malformed bad =>
      cases refused
      exact .inl ⟨malformed, rfl, bad⟩
  · next prepared ready =>
      split at refused
      · cases refused
      · next content =>
          split at refused
          · next why hr =>
              cases refused
              have read : Compiler.textRead? source = some prepared.code := by
                rw [Compiler.textRead?, ready]
                exact if_neg content
              exact .inr ⟨prepared, why, rfl, ready, read, hr⟩
          · cases refused

/-- Where the label of a refusal points. A malformed directive is marked in the source. What the
reader refuses is marked in the very text that it was given, which has the lines of the source. -/
def CompileError.Located (source text : String) (label : Label) : CompileError Diagnostic → Prop
  | .malformedDirective malformed =>
      text = source ∧ label.span = malformed.span ∧ malformed.Located source
  | .refused diagnostic =>
      Compiler.textRead? source = some text ∧ Draft.ofText? text = .error diagnostic ∧
        (Source.lines text).length = (Source.lines source).length ∧
        diagnostic.labels = [label] ∧ label.Located source text

/-- Every refusal of a source is shown with its text, one main label inside that text, a code and
advice. -/
theorem Preferences.compile_error_located (preferences : Preferences) (source : String)
    {trouble : Trouble} (rejected : preferences.compile source = .error trouble) :
    ∃ reason text label, trouble = .source reason text ∧ reason.Located source text label ∧
      trouble.report.marks? = some [(label, true)] ∧
      label.span.start + label.span.length ≤ text.utf8ByteSize ∧
      ∃ code help, trouble.report.code = some code ∧ trouble.report.help = some help := by
  rw [Preferences.compile] at rejected
  split at rejected
  · next reason refused =>
      cases rejected
      rcases Compiler.compile_error refused with
        ⟨malformed, rfl, bad⟩ | ⟨prepared, diagnostic, rfl, ready, read, hr⟩
      · have located := Source.prepare_error_located bad
        refine ⟨.malformedDirective _, source, ⟨malformed.span, _⟩, rfl, ⟨rfl, rfl, located⟩, rfl,
          ?_, _, _, rfl, rfl⟩
        obtain ⟨front, line, -, -, -, -, -, marks⟩ := located
        obtain ⟨after, whole⟩ := marks.cut
        rw [marks.start, marks.length, ← Text.byteLength_toList, whole]
        simp only [Text.byteLength_append]
        omega
      · obtain ⟨fault, within, rfl⟩ := Draft.exists_fault hr
        have sameLines : (Source.lines prepared.code).length = (Source.lines source).length := by
          rw [Source.lines, Source.lines, Source.numbered_length, Source.numbered_length,
            Source.pieces_code ready, List.length_map]
        refine ⟨.refused _, prepared.code, _, ?_,
          ⟨read, hr, sameLines, rfl, within.located ready _⟩, rfl, ?_, _, _, rfl, rfl⟩
        · rw [CompileError.textOf, read]
          rfl
        · rw [Span.start_add_length, ← Text.byteLength_toList]
          exact fault.span_stop_le _
  · cases rejected

/-- The dangling association stands on the second line, behind a directive. -/
theorem Preferences.compile_error_located_of_dangling :
    ∃ trouble,
      Preferences.compile default "#title: none\n  [A] ->\n// [B]" = .error trouble ∧
      ∃ reason text label, trouble = .source reason text ∧
        reason.Located "#title: none\n  [A] ->\n// [B]" text label ∧
        trouble.report.marks? = some [(label, true)] ∧
        label.span.start + label.span.length ≤ text.utf8ByteSize ∧
        ∃ code help, trouble.report.code = some code ∧ trouble.report.help = some help := by
  have outcome : (Preferences.compile default
      "#title: none\n  [A] ->\n// [B]").toOption.isSome = false := by decide +kernel
  cases rejected : Preferences.compile default "#title: none\n  [A] ->\n// [B]" with
  | ok diagram =>
      rw [rejected] at outcome
      cases outcome
  | error trouble =>
      exact ⟨trouble, rfl, Preferences.compile_error_located default _ rejected⟩

end ClassDiagram
