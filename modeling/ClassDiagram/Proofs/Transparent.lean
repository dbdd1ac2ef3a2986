import ClassDiagram.Diagram
import ClassDiagram.Proofs.Draft.Padded
import ClassDiagram.Proofs.Source.Lines

set_option autoImplicit false

namespace ClassDiagram

/-- Both refusals say the same, be it of different places. -/
structure Diagnostic.SaysSame (first second : Diagnostic) : Prop where
  code : first.code = second.code
  message : first.message = second.message
  help : first.help = second.help

namespace Draft

theorem Fault.saysSame {first second : Fault} (cause : first.cause = second.cause)
    (s t : List Char) : (first.toDiagnostic s).SaysSame (second.toDiagnostic t) :=
  ⟨congrArg (fun c => some (Cause.code c)) cause, congrArg Cause.message cause,
    congrArg (fun c => some (Cause.help c)) cause⟩

/-- Texts that are one document, or are refused for one cause, are read alike. -/
theorem ofText?_alike {s t : String}
    (alike : (document s.toList).mapError Fault.cause = (document t.toList).mapError Fault.cause) :
    (∃ root, ofText? s = .ok root ∧ ofText? t = .ok root) ∨
      ∃ first second, ofText? s = .error first ∧ ofText? t = .error second ∧
        first.SaysSame second := by
  rw [ofText?, ofText?]
  cases hs : document s.toList with
  | ok root =>
      cases ht : document t.toList with
      | ok other =>
          rw [hs, ht] at alike
          cases alike
          exact .inl ⟨root, rfl, rfl⟩
      | error fault =>
          rw [hs, ht] at alike
          cases alike
  | error fault =>
      cases ht : document t.toList with
      | ok other =>
          rw [hs, ht] at alike
          cases alike
      | error other =>
          rw [hs, ht] at alike
          exact .inr ⟨_, _, rfl, rfl, Fault.saysSame (Except.error.inj alike) _ _⟩

end Draft

namespace Source

/-- The source with one line more, in front of the line with index `place` or behind all. -/
def insertLine (source : String) (place : Nat) (text : String) : String :=
  let texts := Text.pieces '\n' source.toList
  String.ofList (Text.join '\n' (texts.take place ++ text.toList :: texts.drop place))

def lineText? (source : String) (number : Nat) : Option (List Char) :=
  (Text.pieces '\n' source.toList)[number - 1]?

/-- After white space the text begins with two slashes. -/
def IsRemark (text : String) : Prop := ∃ rest, Text.trim text.toList = '/' :: '/' :: rest

theorem Line.isComment_iff (line : Line) : line.isComment = true ↔ IsRemark line.text := by
  rw [Line.isComment, IsRemark]
  split
  · next rest shape => exact iff_of_true rfl ⟨rest, shape⟩
  · next other => exact iff_of_false Bool.false_ne_true fun ⟨rest, shape⟩ => other rest shape

/-- The same line is malformed in `source` and in `longer`, which has a line more in front of the
line with index `place`. -/
structure MalformedDirective.Follows (source longer : String) (place : Nat)
    (before after : MalformedDirective) : Prop where
  line : after.line = if before.line ≤ place then before.line else before.line + 1
  text : ∃ text, lineText? source before.line = some text ∧ lineText? longer after.line = some text
  length : after.span.length = before.span.length

theorem pieces_insertLine (source : String) {text : String} (place : Nat)
    (oneLine : '\n' ∉ text.toList) :
    Text.pieces '\n' (insertLine source place text).toList =
      (Text.pieces '\n' source.toList).take place ++
        text.toList :: (Text.pieces '\n' source.toList).drop place := by
  rw [insertLine, String.toList_ofList]
  apply Text.pieces_join (by simp)
  intro piece mem
  rcases List.mem_append.1 mem with mem | mem
  · exact Text.not_mem_of_mem_pieces (List.mem_of_mem_take mem)
  · rcases List.mem_cons.1 mem with rfl | mem
    · exact oneLine
    · exact Text.not_mem_of_mem_pieces (List.mem_of_mem_drop mem)

theorem wellFormed_insert {texts : List (List Char)} {text : List Char} (place : Nat)
    (fine : isMalformed text = false) (others : ∀ other ∈ texts, isMalformed other = false) :
    ∀ other ∈ texts.take place ++ text :: texts.drop place, isMalformed other = false := by
  intro other mem
  rcases List.mem_append.1 mem with mem | mem
  · exact others other (List.mem_of_mem_take mem)
  · rcases List.mem_cons.1 mem with rfl | mem
    · exact fine
    · exact others other (List.mem_of_mem_drop mem)

theorem lineText?_eq {source : String} {front back : List (List Char)} {text : List Char}
    (split : Text.pieces '\n' source.toList = front ++ text :: back) :
    lineText? source (front.length + 1) = some text := by
  rw [lineText?, split, Nat.add_sub_cancel]
  simp

/-- A line that is fine itself does not hide the first malformed one. -/
theorem prepare_insertLine_of_malformed {source text : String} (place : Nat)
    (oneLine : '\n' ∉ text.toList) (fine : isMalformed text.toList = false)
    {front back : List (List Char)} {bad : List Char}
    (split : Text.pieces '\n' source.toList = front ++ bad :: back)
    (fineFront : ∀ other ∈ front, isMalformed other = false) (malformed : isMalformed bad = true) :
    ∃ before after, prepare source = .error before ∧
      prepare (insertLine source place text) = .error after ∧
      before.Follows source (insertLine source place text) place after := by
  have longer := pieces_insertLine source place oneLine
  rcases Nat.lt_or_ge front.length place with behind | ahead
  · obtain ⟨n, rfl⟩ : ∃ n, place = front.length + (n + 1) := ⟨place - front.length - 1, by omega⟩
    have shape : Text.pieces '\n' (insertLine source (front.length + (n + 1)) text).toList =
        front ++ bad :: (back.take n ++ text.toList :: back.drop n) := by
      rw [longer, split, List.take_length_add_append, List.drop_length_add_append]
      simp
    refine ⟨_, _, prepare_of_malformed split fineFront malformed,
      prepare_of_malformed shape fineFront malformed, ?_, ?_, rfl⟩
    · rw [if_pos (by simp only; omega)]
    · exact ⟨bad, lineText?_eq split, lineText?_eq shape⟩
  · have shape : Text.pieces '\n' (insertLine source place text).toList =
        (front.take place ++ text.toList :: front.drop place) ++ bad :: back := by
      rw [longer, split, List.take_append_of_le_length ahead, List.drop_append_of_le_length ahead]
      simp
    refine ⟨_, _, prepare_of_malformed split fineFront malformed,
      prepare_of_malformed shape (wellFormed_insert place fine fineFront) malformed, ?_, ?_, ?_⟩
    · rw [if_neg (by simp only; omega)]
      simp only [List.length_append, List.length_cons, List.length_take, List.length_drop]
      omega
    · exact ⟨bad, lineText?_eq split, lineText?_eq shape⟩
    · rw [Line.span_length, Line.span_length]

theorem contentOf_remark {text : String} (remark : IsRemark text) : contentOf text.toList = [] := by
  have comment : Line.isComment ⟨0, 0, text⟩ = true := (Line.isComment_iff _).2 remark
  rw [contentOf, String.ofList_toList, Line.content, comment, Bool.or_true, if_pos rfl]

theorem contentOf_blank {text : String} (blank : Text.isBlank text.toList = true) :
    contentOf text.toList = [] := by
  rw [contentOf, Line.content]
  simp only [String.ofList_toList, (Text.trim_eq_nil_iff _).2 blank, ite_self]

theorem contentOf_hash (r : List Char) : contentOf ('#' :: r) = [] := by
  simp [contentOf, Line.content, Line.isDirective]

/-- No hash sign stands in front of a blank line or a remark. -/
theorem head?_ne_hash {text : String} (kind : Text.isBlank text.toList = true ∨ IsRemark text) :
    text.toList.head? ≠ some '#' := by
  intro hash
  obtain ⟨r, shape⟩ := List.head?_eq_some_iff.1 hash
  have dark : Text.isWhite '#' = false := by decide
  rcases kind with blank | ⟨rest, remark⟩
  · simp [shape, Text.isBlank, dark] at blank
  · simp [shape, Text.trim, Text.trimStart, Text.trimEnd, dark] at remark

/-- The entry of a directive line: the trimmed texts in front of its first colon and from there up
to the next one. -/
def entryOf (key value : String) : String × String :=
  (Text.trimmed key, String.ofList (Text.trim (value.toList.takeWhile fun c => c != ':')))

theorem directive?_colon {key : String} (first : ':' ∉ key.toList) (value : String) :
    directive? ('#' :: (key.toList ++ ':' :: value.toList)) = some (entryOf key value) :=
  directive?_cut first value.toList

end Source

namespace Compiler

open Source

/-- What a line more does to the result of compiling `source`: the tree stays and the settings
change as `changed` says, or the refusal says the same, or the same line is malformed. -/
inductive Undisturbed (source longer : String) (place : Nat)
    (changed : Settings → Settings → Prop) :
    Except (CompileError Diagnostic) Diagram → Except (CompileError Diagnostic) Diagram → Prop
  | compiled (root : Tree.Compartment) {before after : Settings} (settings : changed before after) :
      Undisturbed source longer place changed (.ok ⟨root, before⟩) (.ok ⟨root, after⟩)
  | refused {before after : Diagnostic} (same : before.SaysSame after) :
      Undisturbed source longer place changed (.error (.refused before)) (.error (.refused after))
  | malformed {before after : MalformedDirective}
      (same : before.Follows source longer place after) :
      Undisturbed source longer place changed (.error (.malformedDirective before))
        (.error (.malformedDirective after))

theorem Undisturbed.imp {source longer : String} {place : Nat}
    {changed weaker : Settings → Settings → Prop}
    {before after : Except (CompileError Diagnostic) Diagram}
    (undisturbed : Undisturbed source longer place changed before after)
    (implies : ∀ first second, changed first second → weaker first second) :
    Undisturbed source longer place weaker before after := by
  cases undisturbed with
  | compiled root settings => exact .compiled root (implies _ _ settings)
  | refused same => exact .refused same
  | malformed same => exact .malformed same

/-- The settings of a compiler before and after `entries` are put between the directives in front
of a place in the source and those behind it. -/
def SettingsChange (compiler : Compiler Diagnostic) (source : String) (place : Nat)
    (entries : List (String × String)) (before after : Settings) : Prop :=
  ∃ first last, directiveEntries ((lines source).take place) = .ok first ∧
    directiveEntries ((lines source).drop place) = .ok last ∧
    before = compiler.settings (.ofList (first ++ last)) ∧
    after = compiler.settings (.ofList (first ++ (entries ++ last)))

theorem directiveEntries_split {source : String} (place : Nat)
    (fine : ∀ text ∈ Text.pieces '\n' source.toList, isMalformed text = false) :
    directiveEntries ((lines source).take place) =
        .ok (((Text.pieces '\n' source.toList).take place).filterMap directive?) ∧
      directiveEntries ((lines source).drop place) =
        .ok (((Text.pieces '\n' source.toList).drop place).filterMap directive?) := by
  obtain ⟨index, offset, behind⟩ := numbered_drop 0 0 place (Text.pieces '\n' source.toList)
  rw [lines, numbered_take, behind]
  exact ⟨directiveEntries_of_wellFormed _ _ fun text mem => fine text (List.mem_of_mem_take mem),
    directiveEntries_of_wellFormed _ _ fun text mem => fine text (List.mem_of_mem_drop mem)⟩

/-- Two sources that differ by a line without content have the same tree, or are refused alike. -/
theorem compile_alike (styles : StyleTable) (defaults : Directives) {short long : String}
    {front back : List (List Char)} {text : List Char}
    (shortShape : Text.pieces '\n' short.toList = front ++ back)
    (longShape : Text.pieces '\n' long.toList = front ++ text :: back)
    (fine : ∀ other ∈ front ++ text :: back, isMalformed other = false)
    (empty : contentOf text = []) :
    let compiler : Compiler Diagnostic := { Compiler.standard with styles, defaults }
    (∃ root,
      compiler.compile short =
          .ok ⟨root, compiler.settings (.ofList ((front ++ back).filterMap directive?))⟩ ∧
        compiler.compile long =
          .ok ⟨root, compiler.settings (.ofList ((front ++ text :: back).filterMap directive?))⟩) ∨
      ∃ before after, compiler.compile short = .error (.refused before) ∧
        compiler.compile long = .error (.refused after) ∧ before.SaysSame after := by
  intro compiler
  have nonempty : front.map contentOf ++ back.map contentOf ≠ [] := by
    rw [← List.map_append, ← shortShape]
    simp [Text.pieces_ne_nil]
  have inside : front ++ back ⊆ front ++ text :: back :=
    ((List.sublist_cons_self text back).append_left front).subset
  have shorter : prepare short = _ := prepare_of_wellFormed <| by
    rw [shortShape]
    exact fun other mem => fine other (inside mem)
  have longer : prepare long = _ := prepare_of_wellFormed (by rwa [longShape])
  rw [shortShape, List.map_append] at shorter
  rw [longShape, List.map_append, List.map_cons, empty] at longer
  have white := Draft.all_join_insert nonempty
  have alike := Draft.ofText?_alike (s := .ofList _) (t := .ofList _) <| by
    simpa only [String.toList_ofList] using (Draft.document_join_insert nonempty).symm
  simp only [compile, shorter, longer, Prepared.isEmpty, String.toList_ofList, white]
  split
  · exact .inl ⟨.empty, rfl, rfl⟩
  · rcases alike with ⟨draft, hs, hl⟩ | ⟨before, after, hs, hl, same⟩
    · refine .inl ⟨Tree.ofDraft draft, ?_, ?_⟩
      · simp only [compiler, standard, hs]
      · simp only [compiler, standard, hl]
    · refine .inr ⟨before, after, ?_, ?_, same⟩
      · simp only [compiler, standard, hs]
      · simp only [compiler, standard, hl]

/-- A line without content of its own adds its directive, if it is one, and nothing else. -/
theorem compile_insertLine_of_empty (styles : StyleTable) (defaults : Directives)
    (source text : String) (place : Nat) (oneLine : '\n' ∉ text.toList)
    (fine : isMalformed text.toList = false) (empty : contentOf text.toList = []) :
    let compiler : Compiler Diagnostic := { Compiler.standard with styles, defaults }
    Undisturbed source (insertLine source place text) place
      (compiler.SettingsChange source place (directive? text.toList).toList)
      (compiler.compile source) (compiler.compile (insertLine source place text)) := by
  intro compiler
  rcases wellFormed_or_malformed (Text.pieces '\n' source.toList) with
    fineAll | ⟨front, bad, back, split, fineFront, malformed⟩
  · obtain ⟨first, last⟩ := directiveEntries_split place fineAll
    have longShape := pieces_insertLine source place oneLine
    have shortShape := (List.take_append_drop place (Text.pieces '\n' source.toList)).symm
    have fineLong := wellFormed_insert place fine fineAll
    rcases compile_alike styles defaults shortShape longShape fineLong empty with
      ⟨root, hs, hl⟩ | ⟨before, after, hs, hl, same⟩
    · rw [hs, hl]
      refine .compiled root ⟨_, _, first, last, ?_, ?_⟩
      · rw [List.filterMap_append]
      · rw [List.filterMap_append, List.filterMap_cons]
        cases directive? text.toList <;> rfl
    · rw [hs, hl]
      exact .refused same
  · obtain ⟨before, after, hb, ha, follows⟩ :=
      prepare_insertLine_of_malformed place oneLine fine split fineFront malformed
    simp only [compile, hb, ha]
    exact .malformed follows

end Compiler

open Source in
/-- A line that is blank or a remark leaves everything as it is. A directive leaves the tree as it
is, and the settings are those with its entry among the others, at its place. -/
theorem compile_insertLine (styles : StyleTable) (defaults : Directives) (source text : String)
    (place : Nat) (oneLine : '\n' ∉ text.toList) :
    let compiler : Compiler Diagnostic := { Compiler.standard with styles, defaults }
    (Text.isBlank text.toList = true ∨ IsRemark text →
      Compiler.Undisturbed source (insertLine source place text) place Eq
        (compiler.compile source) (compiler.compile (insertLine source place text))) ∧
    ∀ key value, text = "#" ++ key ++ ":" ++ value → ':' ∉ key.toList →
      Compiler.Undisturbed source (insertLine source place text) place
        (compiler.SettingsChange source place [entryOf key value])
        (compiler.compile source) (compiler.compile (insertLine source place text)) := by
  intro compiler
  refine ⟨fun kind => ?_, fun key value shape plain => ?_⟩
  · have hashless := head?_ne_hash kind
    have empty : contentOf text.toList = [] := kind.elim contentOf_blank contentOf_remark
    have general := Compiler.compile_insertLine_of_empty styles defaults source text place oneLine
      (isMalformed_of_head?_ne hashless) empty
    rw [directive?_of_head?_ne hashless] at general
    apply general.imp
    rintro before after ⟨first, last, -, -, rfl, rfl⟩
    rfl
  · have letters : text.toList = '#' :: (key.toList ++ ':' :: value.toList) := by
      simp [shape]
    have entry := directive?_colon plain value
    have general := Compiler.compile_insertLine_of_empty styles defaults source text place oneLine
      (by simp [letters, isMalformed]) (by rw [letters, contentOf_hash])
    rw [letters, entry] at general
    exact general

open Source in
/-- Both kinds of lines can stand inside a classifier that is open. -/
theorem compile_insertLine_in_classifier :
    Compiler.Undisturbed "[A|\n[B]\n]" (insertLine "[A|\n[B]\n]" 1 " // inner") 1 Eq
        (Compiler.standard.compile "[A|\n[B]\n]")
        (Compiler.standard.compile (insertLine "[A|\n[B]\n]" 1 " // inner")) ∧
      Compiler.Undisturbed "[A|\n[B]\n]" (insertLine "[A|\n[B]\n]" 1 "#title: inner") 1
        (Compiler.standard.SettingsChange "[A|\n[B]\n]" 1 [("title", "inner")])
        (Compiler.standard.compile "[A|\n[B]\n]")
        (Compiler.standard.compile (insertLine "[A|\n[B]\n]" 1 "#title: inner")) := by
  have remark : IsRemark " // inner" := ⟨" inner".toList, by decide⟩
  have entry : entryOf "title" " inner" = ("title", "inner") := by decide
  refine ⟨(compile_insertLine .builtin .empty _ " // inner" 1 (by decide)).1 (.inr remark), ?_⟩
  rw [← entry]
  exact (compile_insertLine .builtin .empty _ "#title: inner" 1 (by decide)).2 "title" " inner"
    (by decide) (by decide)

end ClassDiagram
