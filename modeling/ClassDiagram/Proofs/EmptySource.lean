import ClassDiagram.Proofs.Source.Sorted
import ClassDiagram.Proofs.StandingDirectives

set_option autoImplicit false

namespace ClassDiagram

theorem Text.all_mark_iff (mark : Char) (s : List Char) :
    (s.all fun c => c == mark) = true ↔ ∀ piece ∈ pieces mark s, piece = [] := by
  induction s with
  | nil => simp [pieces]
  | cons c r ih =>
      rw [List.all_cons, Bool.and_eq_true, beq_iff_eq, ih]
      by_cases same : c = mark
      · subst same
        simp
      · obtain ⟨first, rest, -, shape⟩ := pieces_cons_of_ne same r
        rw [shape]
        simp [same]

namespace Source

theorem Line.content_eq_nil_iff (line : Line) :
    line.content = [] ↔
      line.isDirective = true ∨ line.isComment = true ∨ Text.isBlank line.text.toList = true := by
  rw [content, ← or_assoc, ← Bool.or_eq_true]
  split
  · next noContent => exact iff_of_true rfl (.inl noContent)
  · next shown => rw [Text.trim_eq_nil_iff, or_iff_right shown]

/-- The text of the diagram is empty exactly when no line adds anything to it. -/
theorem Prepared.isEmpty_iff {source : String} {prepared : Prepared}
    (ready : prepare source = .ok prepared) :
    prepared.isEmpty = true ↔ ∀ line ∈ lines source, line.content = [] := by
  rw [isEmpty, Text.all_mark_iff, pieces_code ready,
    ← numbered_texts 0 0 (Text.pieces '\n' source.toList), ← lines]
  simp only [List.mem_map, forall_exists_index, and_imp, forall_apply_eq_imp_iff₂, contentOf_line]

/-- A source is prepared exactly when every directive in it has a colon. -/
theorem exists_prepared_iff (source : String) :
    (∃ prepared, prepare source = .ok prepared) ↔
      ∀ line ∈ lines source, line.isDirective = true → ':' ∈ line.text.toList := by
  have refused := prepare_eq_error_iff source
  constructor
  · rintro ⟨prepared, ready⟩ line mem directive
    apply Decidable.byContradiction
    intro colonless
    obtain ⟨malformed, bad⟩ := refused.2 ⟨line, mem, beq_iff_eq.1 directive, colonless⟩
    rw [ready] at bad
    cases bad
  · intro fine
    cases outcome : prepare source with
    | ok prepared => exact ⟨prepared, rfl⟩
    | error malformed =>
        obtain ⟨line, mem, hash, colonless⟩ := refused.1 ⟨malformed, outcome⟩
        exact absurd (fine line mem (beq_iff_eq.2 hash)) colonless

end Source

/-- Line feeds alone are read as a compartment in which nothing stands. -/
theorem Draft.ofText?_of_feeds {text : String}
    (feeds : (text.toList.all fun c => c == '\n') = true) : ofText? text = .ok .empty := by
  have shape : text.toList = List.replicate text.toList.length '\n' :=
    List.eq_replicate_iff.2 ⟨rfl, fun c mem => beq_iff_eq.1 (List.all_eq_true.1 feeds c mem)⟩
  have read := document_replicate_feed text.toList.length []
  have nothing : document [] = .ok .empty := document_end (slots_end rfl) rfl
  rw [List.append_nil, ← shape, nothing] at read
  rw [ofText?, read]

/-- The final form of nothing is nothing. -/
theorem Tree.ofDraft_empty : ofDraft .empty = .empty := by
  simp [ofDraft, Draft.Compartment.empty, Compartment.ofDraft, classifiersOfDraft, richestFirst,
    number, firstBy, Compartment.empty]

namespace Compiler

variable {ε : Type}

/-- Turns a source into a diagram, and reads its text even if there is nothing in it. -/
def compileInFull (compiler : Compiler ε) (source : String) :
    Except (CompileError ε) Diagram :=
  match Source.prepare source with
  | .error malformed => .error (.malformedDirective malformed)
  | .ok prepared =>
      match compiler.read prepared.code with
      | .error reason => .error (.refused reason)
      | .ok draft => .ok ⟨Tree.ofDraft draft, compiler.settings prepared.directives⟩

/-- Leaving out what would be read as nothing makes no difference. -/
theorem compile_eq_of_reads_feeds {compiler : Compiler ε}
    (reads : ∀ text : String, (text.toList.all fun c => c == '\n') = true →
      compiler.read text = .ok .empty) (source : String) :
    compiler.compile source = compiler.compileInFull source := by
  rw [compile, compileInFull]
  cases Source.prepare source with
  | error malformed => rfl
  | ok prepared =>
      simp only
      split
      · next feeds =>
          simp only [reads prepared.code feeds, Tree.ofDraft_empty]
      · rfl

end Compiler

open Source in
/-- That sources without content are not read is not seen in what they compile to. They are those
without a malformed directive in which every line is a directive, a comment or white. -/
theorem compile_eq_compileInFull (styles : StyleTable) (defaults : Directives) (source : String) :
    let compiler : Compiler Diagnostic := { Compiler.standard with styles, defaults }
    compiler.compile source = compiler.compileInFull source ∧
      ((∃ prepared, prepare source = .ok prepared ∧ prepared.isEmpty = true) ↔
        (∀ line ∈ lines source, line.isDirective = true → ':' ∈ line.text.toList) ∧
          ∀ line ∈ lines source, line.isDirective = true ∨ line.isComment = true ∨
            Text.isBlank line.text.toList = true) := by
  intro compiler
  refine ⟨Compiler.compile_eq_of_reads_feeds (fun _ => Draft.ofText?_of_feeds) source, ?_⟩
  simp only [← Line.content_eq_nil_iff]
  rw [← exists_prepared_iff]
  constructor
  · rintro ⟨prepared, ready, empty⟩
    exact ⟨⟨prepared, ready⟩, (Prepared.isEmpty_iff ready).1 empty⟩
  · rintro ⟨⟨prepared, ready⟩, contentless⟩
    exact ⟨prepared, ready, (Prepared.isEmpty_iff ready).2 contentless⟩

end ClassDiagram
