import ClassDiagram.Proofs.Draft.Widened.CarriageReturns
import ClassDiagram.Proofs.Located

set_option autoImplicit false

/-!
A carriage return at the end of a line is white, so it is trimmed off wherever the line is read.
-/
namespace ClassDiagram

namespace Source

open Draft (crlf crlf_feed crlf_cons)

/-- The source with a carriage return in front of every line feed. -/
def withReturns (source : String) : String := String.ofList (crlf source.toList)

theorem isBlank_return : Text.isBlank ['\r'] = true := by decide

theorem beq_head?_return (text : List Char) :
    ((text ++ ['\r']).head? == some '#') = (text.head? == some '#') := by
  cases text <;> rfl

theorem isMalformed_return (text : List Char) :
    isMalformed (text ++ ['\r']) = isMalformed text := by
  have colon : (text ++ ['\r']).contains ':' = text.contains ':' := by simp
  rw [isMalformed, isMalformed, beq_head?_return, colon]

theorem contentOf_return (text : List Char) : contentOf (text ++ ['\r']) = contentOf text := by
  have trimmed := Text.trim_append_blank text isBlank_return
  simp only [contentOf, Line.content, Line.isDirective, Line.isComment, String.toList_ofList,
    trimmed, beq_head?_return]

theorem directive?_return (text : List Char) :
    directive? (text ++ ['\r']) = directive? text := by
  cases malformed : isMalformed text with
  | true =>
      have longer := (isMalformed_return text).trans malformed
      rw [directive?_of_isMalformed malformed, directive?_of_isMalformed longer]
  | false =>
      by_cases hash : text.head? = some '#'
      · obtain ⟨before, after, rfl, first⟩ := exists_cut hash malformed
        have longer := directive?_cut first (after ++ ['\r'])
        rw [Text.trim_takeWhile_append_blank _ after isBlank_return, ← directive?_cut first] at longer
        simpa using longer
      · have longer : (text ++ ['\r']).head? ≠ some '#' := by
          rw [← beq_eq_false_iff_ne, beq_head?_return, beq_eq_false_iff_ne]
          exact hash
        rw [directive?_of_head?_ne hash, directive?_of_head?_ne longer]

/-- Lines with a carriage return behind each but the last. -/
def returned : List (List Char) → List (List Char)
  | [] => []
  | [last] => [last]
  | text :: next :: rest => (text ++ ['\r']) :: returned (next :: rest)

theorem returned_cons (text : List Char) {rest : List (List Char)} (more : rest ≠ []) :
    returned (text :: rest) = (text ++ ['\r']) :: returned rest := by
  cases rest with
  | nil => exact absurd rfl more
  | cons next rest => rfl

theorem pieces_crlf (s : List Char) :
    Text.pieces '\n' (crlf s) = returned (Text.pieces '\n' s) := by
  induction s with
  | nil => rfl
  | cons c r ih =>
      by_cases feed : c = '\n'
      · subst feed
        rw [crlf_feed, Text.pieces_mark, returned_cons [] (Text.pieces_ne_nil '\n' r), ← ih]
        have clean : '\n' ∉ ['\r'] := by decide
        exact Text.pieces_append_mark clean (crlf r)
      · obtain ⟨first, rest, inner, shape⟩ := Text.pieces_cons_of_ne feed r
        obtain ⟨first', rest', inner', shape'⟩ := Text.pieces_cons_of_ne feed (crlf r)
        rw [crlf_cons feed, shape, shape']
        rw [inner, inner'] at ih
        cases rest <;> simp_all [returned]

/-- What does not see a carriage return at the end of a line is the same for all lines. -/
theorem map_returned {α : Type} {f : List Char → α} (unseen : ∀ text, f (text ++ ['\r']) = f text)
    (texts : List (List Char)) : (returned texts).map f = texts.map f := by
  induction texts with
  | nil => rfl
  | cons text rest ih =>
      cases rest with
      | nil => rfl
      | cons next rest =>
          rw [returned, List.map_cons, unseen, ih]
          rfl

theorem returned_append_cons (front back : List (List Char)) (text : List Char) :
    ∃ text' more, (text' = text ∨ text' = text ++ ['\r']) ∧
      returned (front ++ text :: back) =
        front.map (fun other => other ++ ['\r']) ++ text' :: more := by
  induction front with
  | nil =>
      cases back with
      | nil => exact ⟨text, [], .inl rfl, rfl⟩
      | cons next back => exact ⟨text ++ ['\r'], returned (next :: back), .inr rfl, rfl⟩
  | cons other front ih =>
      obtain ⟨text', more, same, shape⟩ := ih
      refine ⟨text', more, same, ?_⟩
      rw [List.cons_append, returned_cons other (by simp), shape]
      rfl

/-- A carriage return takes one byte of every line in front. -/
theorem width_returns (front : List (List Char)) :
    width (front.map fun other => other ++ ['\r']) = width front + front.length := by
  have one : Text.byteLength ['\r'] = 1 := rfl
  induction front with
  | nil => rfl
  | cons text rest ih =>
      rw [List.map_cons, width_cons, width_cons, ih, Text.byteLength_append, one, List.length_cons]
      omega

theorem pieces_withReturns (source : String) :
    Text.pieces '\n' (withReturns source).toList = returned (Text.pieces '\n' source.toList) := by
  rw [withReturns, String.toList_ofList, pieces_crlf]

theorem prepare_withReturns {source : String}
    (fine : ∀ text ∈ Text.pieces '\n' source.toList, isMalformed text = false) :
    prepare (withReturns source) = prepare source := by
  have texts := pieces_withReturns source
  have fine' : ∀ text ∈ Text.pieces '\n' (withReturns source).toList, isMalformed text = false := by
    intro text mem
    have inside := List.mem_map_of_mem (f := isMalformed) mem
    rw [texts, map_returned isMalformed_return] at inside
    obtain ⟨other, mem, same⟩ := List.mem_map.1 inside
    rw [← same, fine other mem]
  have directives : (returned (Text.pieces '\n' source.toList)).filterMap directive? =
      (Text.pieces '\n' source.toList).filterMap directive? := by
    have same := map_returned directive?_return (Text.pieces '\n' source.toList)
    simpa only [List.filterMap_map, Function.id_comp] using congrArg (List.filterMap id) same
  rw [prepare_of_wellFormed fine, prepare_of_wellFormed fine', texts, directives,
    map_returned contentOf_return]

/-- The same line is malformed in both sources. The second one has as many bytes more in front of
it as there are lines. -/
structure MalformedDirective.SameLine (before after : MalformedDirective) : Prop where
  line : after.line = before.line
  length : after.span.length = before.span.length
  start : after.span.start = before.span.start + (before.line - 1)

theorem prepare_withReturns_of_malformed {source : String} {front back : List (List Char)}
    {bad : List Char} (split : Text.pieces '\n' source.toList = front ++ bad :: back)
    (fine : ∀ other ∈ front, isMalformed other = false) (malformed : isMalformed bad = true) :
    ∃ before after, prepare source = .error before ∧
      prepare (withReturns source) = .error after ∧ before.SameLine after := by
  obtain ⟨bad', more, kind, shape⟩ := returned_append_cons front back bad
  rw [← split, ← pieces_withReturns] at shape
  have fine' : ∀ other ∈ front.map fun other => other ++ ['\r'], isMalformed other = false := by
    intro other mem
    obtain ⟨text, inside, rfl⟩ := List.mem_map.1 mem
    rw [isMalformed_return, fine text inside]
  obtain ⟨malformed', trimmed⟩ :
      isMalformed bad' = true ∧ Text.trimEnd bad' = Text.trimEnd bad := by
    rcases kind with rfl | rfl
    · exact ⟨malformed, rfl⟩
    · exact ⟨(isMalformed_return bad).trans malformed, Text.trimEnd_append_blank bad isBlank_return⟩
  refine ⟨_, _, prepare_of_malformed split fine malformed,
    prepare_of_malformed shape fine' malformed', ?_, ?_, ?_⟩
  · rw [List.length_map]
  · rw [Line.span_length, Line.span_length, trimmed]
  · rw [Line.span, Line.span, Span.between_start, Span.between_start, width_returns]
    rfl

end Source

namespace Compiler

open Source

variable {ε : Type}

/-- What compiling a source without carriage returns and one with them come to. -/
inductive SameButReturns :
    Except (CompileError ε) Diagram → Except (CompileError ε) Diagram → Prop
  | compiled (diagram : Diagram) : SameButReturns (.ok diagram) (.ok diagram)
  | refused (reason : ε) : SameButReturns (.error (.refused reason)) (.error (.refused reason))
  | malformed {before after : MalformedDirective} (same : before.SameLine after) :
      SameButReturns (.error (.malformedDirective before)) (.error (.malformedDirective after))

end Compiler

open Source in
/-- Carriage returns in front of the line feeds change nothing but where a malformed line begins.
What the reader of a compiler gets to read is the same text. -/
theorem compile_withReturns {ε : Type} (compiler : Compiler ε) (source : String) :
    Compiler.textRead? (withReturns source) = Compiler.textRead? source ∧
      Compiler.SameButReturns (compiler.compile source) (compiler.compile (withReturns source)) := by
  rcases wellFormed_or_malformed (Text.pieces '\n' source.toList) with
    fine | ⟨front, bad, back, split, fineFront, malformed⟩
  · have same := prepare_withReturns fine
    refine ⟨by rw [Compiler.textRead?, same, ← Compiler.textRead?], ?_⟩
    have equal : compiler.compile (withReturns source) = compiler.compile source := by
      rw [Compiler.compile, same, ← Compiler.compile]
    rw [equal]
    cases outcome : compiler.compile source with
    | ok diagram => exact .compiled diagram
    | error reason =>
        rcases Compiler.compile_error outcome with ⟨bad, -, refused⟩ | ⟨-, why, rfl, -⟩
        · rw [prepare_of_wellFormed fine] at refused
          cases refused
        · exact .refused why
  · obtain ⟨before, after, hb, ha, same⟩ :=
      prepare_withReturns_of_malformed split fineFront malformed
    refine ⟨by simp only [Compiler.textRead?, hb, ha], ?_⟩
    simp only [Compiler.compile, hb, ha]
    exact .malformed same

end ClassDiagram
