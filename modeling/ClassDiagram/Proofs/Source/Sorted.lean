import ClassDiagram.Proofs.Located
import ClassDiagram.Proofs.OrderedMap
import ClassDiagram.Proofs.Transparent
import Mathlib.Data.List.Forall2

set_option autoImplicit false

namespace ClassDiagram.Source

/-- `shown` is what is left of `line` in the text of the diagram. -/
structure Line.Leaves (line shown : Line) : Prop where
  blank : line.text.toList.head? = some '#' ∨ IsRemark line.text → shown.text = ""
  kept : line.text.toList.head? ≠ some '#' → ¬ IsRemark line.text →
    shown.text = Text.trimmed line.text

theorem Line.leaves_content {line shown : Line} (same : shown.text = String.ofList line.content) :
    line.Leaves shown := by
  have directive : line.isDirective = true ↔ line.text.toList.head? = some '#' := beq_iff_eq
  rw [Line.content] at same
  constructor
  · intro kind
    rw [if_pos] at same
    · exact same
    · rwa [Bool.or_eq_true, directive, isComment_iff]
  · intro hashless noRemark
    rw [if_neg] at same
    · exact same
    · rw [Bool.or_eq_true, directive, isComment_iff]
      exact not_or.2 ⟨hashless, noRemark⟩

theorem numbered_leaves (index offset place : Nat) (texts : List (List Char)) :
    List.Forall₂ Line.Leaves (numbered index offset texts)
      (numbered index place (texts.map contentOf)) := by
  induction texts generalizing index offset place with
  | nil => exact .nil
  | cons text rest ih => exact .cons (Line.leaves_content rfl) (ih _ _ _)

def directiveLines (source : String) : List Line := (lines source).filter Line.isDirective

/-- The trimmed text between the hash sign and the first colon. -/
def Line.key (line : Line) : String :=
  String.ofList (Text.trim (line.text.toList.tail.takeWhile fun c => c != ':'))

/-- The trimmed text between the first colon and the next one, or the end of the line. -/
def Line.value (line : Line) : String :=
  String.ofList (Text.trim ((line.text.toList.tail.dropWhile fun c => c != ':').tail.takeWhile
    fun c => c != ':'))

theorem Line.directive?_eq {line : Line} (directive : line.isDirective = true)
    (fine : isMalformed line.text.toList = false) :
    directive? line.text.toList = some (line.key, line.value) := by
  obtain ⟨before, after, shape, first⟩ := exists_cut (beq_iff_eq.1 directive) fine
  have plain : ∀ c ∈ before, (c != ':') = true := fun c mem => by
    simpa using fun same : c = ':' => first (same ▸ mem)
  have stop : ∀ c ∈ (':' :: after).head?, (c != ':') = false := by simp
  rw [key, value, shape, directive?_cut first, List.tail_cons, Text.takeWhile_run plain stop,
    Text.dropWhile_run plain stop, List.tail_cons]

theorem filterMap_directive? {given : List Line}
    (fine : ∀ line ∈ given, isMalformed line.text.toList = false) :
    given.filterMap (fun line => directive? line.text.toList) =
      (given.filter Line.isDirective).map fun line => (line.key, line.value) := by
  induction given with
  | nil => rfl
  | cons line rest ih =>
      have others := ih fun other mem => fine other (List.mem_cons_of_mem _ mem)
      cases directive : line.isDirective with
      | true =>
          have entry := Line.directive?_eq directive (fine line List.mem_cons_self)
          rw [List.filterMap_cons, entry, others, List.filter_cons_of_pos directive]
          rfl
      | false =>
          have none := directive?_of_head?_ne (beq_eq_false_iff_ne.1 directive)
          rw [List.filterMap_cons, none, others, List.filter_cons_of_neg (by simp [directive])]

/-- Every line of the source has its place in what is prepared from it. -/
structure Prepared.Sorts (prepared : Prepared) (source : String) : Prop where
  shown : List.Forall₂ Line.Leaves (lines source) (lines prepared.code)
  /-- Keys stand in the order in which they first occur. -/
  keys : prepared.directives.keys = ((directiveLines source).map Line.key).eraseDups
  /-- The last line with a key gives its value. -/
  values : ∀ key, prepared.directives.get? key =
    ((directiveLines source).filter fun line => line.key == key).getLast?.map Line.value

theorem prepare_eq_error_iff (source : String) :
    (∃ malformed, prepare source = .error malformed) ↔
      ∃ line ∈ lines source, line.text.toList.head? = some '#' ∧ ':' ∉ line.text.toList := by
  constructor
  · rintro ⟨malformed, refused⟩
    obtain ⟨front, line, back, shape, -, directive, colonless, -⟩ := prepare_error_located refused
    refine ⟨line, ?_, beq_iff_eq.1 directive, colonless⟩
    rw [shape]
    exact List.mem_append_right _ List.mem_cons_self
  · rintro ⟨line, mem, hash, colonless⟩
    have malformed : isMalformed line.text.toList = true := by simp [isMalformed, hash, colonless]
    rcases wellFormed_or_malformed (Text.pieces '\n' source.toList) with
      fine | ⟨front, bad, back, split, fineFront, isBad⟩
    · rw [fine _ (text_mem_pieces mem)] at malformed
      cases malformed
    · exact ⟨_, prepare_of_malformed split fineFront isBad⟩

theorem prepare_eq_error_iff_located {source : String} {malformed : MalformedDirective} :
    prepare source = .error malformed ↔ malformed.Located source := by
  constructor
  · exact prepare_error_located
  · intro located
    have ⟨front, line, back, shape, _, directive, colonless, _⟩ := located
    have mem : line ∈ lines source := by
      rw [shape]
      exact List.mem_append_right front List.mem_cons_self
    obtain ⟨reported, refused⟩ :=
      (prepare_eq_error_iff source).2 ⟨line, mem, beq_iff_eq.1 directive, colonless⟩
    rw [located.unique (prepare_error_located refused), refused]

theorem Prepared.sorts {source : String} {prepared : Prepared}
    (ready : prepare source = .ok prepared) : prepared.Sorts source := by
  rcases wellFormed_or_malformed (Text.pieces '\n' source.toList) with
    fine | ⟨front, bad, back, split, fineFront, isBad⟩
  · have entries : (Text.pieces '\n' source.toList).filterMap directive? =
        (directiveLines source).map fun line => (line.key, line.value) := by
      rw [← numbered_texts 0 0 (Text.pieces '\n' source.toList), List.filterMap_map]
      exact filterMap_directive? fun line mem => fine _ (text_mem_pieces mem)
    have code := pieces_code ready
    rw [prepare_of_wellFormed fine] at ready
    cases ready
    refine ⟨?_, ?_, fun key => ?_⟩
    · rw [lines, lines, code]
      exact numbered_leaves 0 0 0 _
    · rw [OrderedMap.keys_ofList, entries, List.map_map]
      rfl
    · rw [OrderedMap.get?_ofList, entries, OrderedMap.last?_eq_getLast?, List.filter_map,
        List.getLast?_map, Option.map_map]
      rfl
  · rw [prepare_of_malformed split fineFront isBad] at ready
    cases ready

/-- Preparing a source is refused exactly for a line with a hash sign in front and no colon, and
reports the first one; otherwise it puts every line into its place. -/
theorem prepare_sorted (source : String) :
    ((∃ malformed, prepare source = .error malformed) ↔
        ∃ line ∈ lines source, line.text.toList.head? = some '#' ∧ ':' ∉ line.text.toList) ∧
      (∀ malformed, prepare source = .error malformed ↔ malformed.Located source) ∧
      ∀ prepared, prepare source = .ok prepared → prepared.Sorts source := by
  refine ⟨prepare_eq_error_iff source, ?_, ?_⟩
  · intro malformed
    exact prepare_eq_error_iff_located
  · intro prepared ready
    exact Prepared.sorts ready

/-- Keys are alike only when they are trimmed, and what stands behind a second colon is dropped. -/
example :
    (prepare "# a :1\n  [A] \n#b:2:3\n // c\n#a: 4").toOption.map
        (fun prepared => (prepared.directives.entries, prepared.code)) =
      some ([("a", "4"), ("b", "2")], "\n[A]\n\n\n") := by decide +kernel

end ClassDiagram.Source
