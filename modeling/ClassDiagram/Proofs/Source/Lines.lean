import ClassDiagram.Proofs.Text.Pieces
import ClassDiagram.Source.Prepared

set_option autoImplicit false

/-!
What a line adds to the directives or to the text of the diagram depends on its text alone; where it
stands decides only which place is reported.
-/
namespace ClassDiagram.Source

/-- How many bytes lines take with the line feeds behind them. -/
def width (texts : List (List Char)) : Nat := Text.byteLength (Text.closedBy '\n' texts)

theorem width_cons (text : List Char) (rest : List (List Char)) :
    width (text :: rest) = Text.byteLength text + 1 + width rest := by
  have feed : Text.byteLength ['\n'] = 1 := rfl
  rw [width, Text.closedBy, List.flatMap_cons, ← Text.closedBy, Text.byteLength_append,
    Text.byteLength_append, feed, width]

theorem numbered_append (index offset : Nat) (front back : List (List Char)) :
    numbered index offset (front ++ back) =
      numbered index offset front ++
        numbered (index + front.length) (offset + width front) back := by
  induction front generalizing index offset with
  | nil => rfl
  | cons text rest ih =>
      have hi : index + 1 + rest.length = index + (text :: rest).length := by
        simp only [List.length_cons]
        omega
      have ho : offset + (Text.byteLength text + 1) + width rest =
          offset + width (text :: rest) := by
        rw [width_cons, Nat.add_assoc]
      simp only [List.cons_append, numbered, ih, hi, ho]

theorem numbered_take (index offset n : Nat) (texts : List (List Char)) :
    (numbered index offset texts).take n = numbered index offset (texts.take n) := by
  induction texts generalizing index offset n with
  | nil => simp [numbered]
  | cons text rest ih => cases n <;> simp [numbered, ih]

theorem numbered_drop (index offset n : Nat) (texts : List (List Char)) :
    ∃ later further,
      (numbered index offset texts).drop n = numbered later further (texts.drop n) := by
  induction texts generalizing index offset n with
  | nil => exact ⟨index, offset, by simp [numbered]⟩
  | cons text rest ih =>
      cases n with
      | zero => exact ⟨index, offset, rfl⟩
      | succ n => exact ih _ _ n

theorem Line.span_length (index offset : Nat) (text : List Char) :
    (Line.span ⟨index, offset, String.ofList text⟩).length =
      Text.byteLength (Text.trimEnd text) := by
  rw [Line.span, Span.length, Span.between_stop (Nat.le_add_right _ _), Span.between_start,
    String.toList_ofList]
  exact Nat.add_sub_cancel_left _ _

/-- A line that begins with `#` and has no colon. -/
def isMalformed (text : List Char) : Bool := text.head? == some '#' && !text.contains ':'

/-- The key and the value that a line gives, if it is a directive with a colon. -/
def directive? : List Char → Option (String × String)
  | '#' :: r =>
      match Text.pieces ':' r with
      | key :: value :: _ => some (String.ofList (Text.trim key), String.ofList (Text.trim value))
      | _ => none
  | _ => none

theorem directive?_isNone (r : List Char) :
    (directive? ('#' :: r)).isNone = isMalformed ('#' :: r) := by
  have count := Text.pieces_length ':' r
  rw [directive?]
  by_cases colon : ':' ∈ r
  · have positive := List.count_pos_iff.2 colon
    rcases shape : Text.pieces ':' r with _ | ⟨key, _ | ⟨value, more⟩⟩
    · rw [shape, List.length_nil] at count
      omega
    · rw [shape, List.length_singleton] at count
      omega
    · simp [isMalformed, colon]
  · rw [Text.pieces_of_not_mem colon]
    simp [isMalformed, colon]

theorem directive?_of_isMalformed {text : List Char} (malformed : isMalformed text = true) :
    directive? text = none := by
  obtain ⟨hash, -⟩ : text.head? = some '#' ∧ ':' ∉ text := by simpa [isMalformed] using malformed
  obtain ⟨r, rfl⟩ := List.head?_eq_some_iff.1 hash
  rwa [← directive?_isNone, Option.isNone_iff_eq_none] at malformed

theorem directive?_cut {before : List Char} (first : ':' ∉ before) (after : List Char) :
    directive? ('#' :: (before ++ ':' :: after)) =
      some (String.ofList (Text.trim before),
        String.ofList (Text.trim (after.takeWhile fun c => c != ':'))) := by
  obtain ⟨more, shape⟩ := Text.pieces_eq_takeWhile_cons ':' after
  rw [directive?, Text.pieces_append_mark first, shape]

/-- A directive line that is not malformed has a first colon. -/
theorem exists_cut {text : List Char} (hash : text.head? = some '#')
    (fine : isMalformed text = false) :
    ∃ before after, text = '#' :: (before ++ ':' :: after) ∧ ':' ∉ before := by
  obtain ⟨r, rfl⟩ := List.head?_eq_some_iff.1 hash
  have colon : ':' ∈ r := by simpa [isMalformed] using fine
  obtain ⟨before, after, rfl, first⟩ := List.eq_append_cons_of_mem colon
  exact ⟨before, after, rfl, first⟩

theorem directive?_of_head?_ne {text : List Char} (plain : text.head? ≠ some '#') :
    directive? text = none := by
  cases text with
  | nil => rfl
  | cons c r =>
      have other : c ≠ '#' := fun same => plain (congrArg some same)
      simp [directive?, other]

theorem isMalformed_of_head?_ne {text : List Char} (plain : text.head? ≠ some '#') :
    isMalformed text = false := by
  simp [isMalformed, plain]

theorem directiveEntries_cons (index offset : Nat) (text : List Char) (rest : List Line) :
    directiveEntries (⟨index, offset, String.ofList text⟩ :: rest) =
      if isMalformed text then
        .error ⟨index + 1, Line.span ⟨index, offset, String.ofList text⟩⟩
      else (directiveEntries rest).map ((directive? text).toList ++ ·) := by
  rw [directiveEntries]
  by_cases hash : text.head? = some '#'
  · obtain ⟨r, rfl⟩ := List.head?_eq_some_iff.1 hash
    have directive : Line.isDirective ⟨index, offset, String.ofList ('#' :: r)⟩ = true := by
      simp [Line.isDirective]
    rw [if_pos directive, ← directive?_isNone, Line.directive, String.toList_ofList, List.tail_cons,
      directive?]
    rcases Text.pieces ':' r with _ | ⟨key, _ | ⟨value, more⟩⟩
    · rfl
    · rfl
    · cases directiveEntries rest <;> rfl
  · have other : Line.isDirective ⟨index, offset, String.ofList text⟩ = false := by
      simp [Line.isDirective, hash]
    rw [directive?_of_head?_ne hash, other, isMalformed_of_head?_ne hash]
    cases directiveEntries rest <;> rfl

/-- Lines of which none is malformed put their directives in front of those that follow. -/
theorem directiveEntries_append (index offset : Nat) {front : List (List Char)}
    (fine : ∀ text ∈ front, isMalformed text = false) (back : List Line) :
    directiveEntries (numbered index offset front ++ back) =
      (directiveEntries back).map (front.filterMap directive? ++ ·) := by
  induction front generalizing index offset with
  | nil => cases h : directiveEntries back <;> simp [numbered, h, Except.map]
  | cons text rest ih =>
      rw [numbered, List.cons_append, directiveEntries_cons, fine text List.mem_cons_self,
        ih _ _ fun other mem => fine other (List.mem_cons_of_mem _ mem)]
      cases directiveEntries back with
      | error malformed => rfl
      | ok entries => cases he : directive? text <;> simp [he, Except.map]

theorem directiveEntries_of_wellFormed (index offset : Nat) {texts : List (List Char)}
    (fine : ∀ text ∈ texts, isMalformed text = false) :
    directiveEntries (numbered index offset texts) = .ok (texts.filterMap directive?) := by
  have all := directiveEntries_append index offset fine []
  rw [List.append_nil] at all
  rw [all]
  simp [directiveEntries, Except.map]

/-- The first malformed line is the one that is reported. -/
theorem directiveEntries_of_malformed (index offset : Nat) {front : List (List Char)}
    {text : List Char} (fine : ∀ other ∈ front, isMalformed other = false)
    (malformed : isMalformed text = true) (back : List (List Char)) :
    directiveEntries (numbered index offset (front ++ text :: back)) =
      .error ⟨index + front.length + 1,
        Line.span ⟨index + front.length, offset + width front, String.ofList text⟩⟩ := by
  rw [numbered_append, directiveEntries_append index offset fine, numbered, directiveEntries_cons,
    if_pos malformed]
  rfl

theorem wellFormed_or_malformed (texts : List (List Char)) :
    (∀ text ∈ texts, isMalformed text = false) ∨
      ∃ front text back, texts = front ++ text :: back ∧
        (∀ other ∈ front, isMalformed other = false) ∧ isMalformed text = true := by
  cases h : texts.find? isMalformed with
  | none => exact .inl fun text mem => by simpa using List.find?_eq_none.1 h text mem
  | some text =>
      obtain ⟨malformed, front, back, split, fine⟩ := List.find?_eq_some_iff_append.1 h
      exact .inr
        ⟨front, text, back, split, fun other mem => by simpa using fine other mem, malformed⟩

def contentOf (text : List Char) : List Char := Line.content ⟨0, 0, String.ofList text⟩

theorem numbered_contents (index offset : Nat) (texts : List (List Char)) :
    (numbered index offset texts).map Line.content = texts.map contentOf := by
  induction texts generalizing index offset with
  | nil => rfl
  | cons text rest ih =>
      rw [numbered, List.map_cons, List.map_cons, ih]
      rfl

theorem codeOf_numbered (index offset : Nat) (texts : List (List Char)) :
    codeOf (numbered index offset texts) =
      String.ofList (Text.join '\n' (texts.map contentOf)) := by
  rw [codeOf, numbered_contents]

theorem contentOf_line (line : Line) : contentOf line.text.toList = line.content := by
  rw [contentOf, String.ofList_toList]
  rfl

/-- Only lines of the diagram have content, and it is the trimmed line. -/
theorem content_of_ne_nil {line : Line} (nonempty : line.content ≠ []) :
    line.isDirective = false ∧ line.isComment = false ∧
      line.content = Text.trim line.text.toList := by
  rw [Line.content] at nonempty ⊢
  cases directive : line.isDirective <;> cases comment : line.isComment <;> simp_all

theorem contentOf_subset (text : List Char) : contentOf text ⊆ text := by
  intro c mem
  rw [contentOf, Line.content] at mem
  split at mem
  · cases mem
  · obtain ⟨w, -, whole⟩ := Text.trimEnd_append (Text.trimStart text)
    rw [String.toList_ofList, Text.trim] at mem
    have started : c ∈ Text.trimStart text := by
      rw [← whole]
      exact List.mem_append_left w mem
    exact (List.dropWhile_suffix (p := Text.isWhite)).subset started

theorem source_eq_closedBy_append {source : String} {front back : List (List Char)}
    {text : List Char} (split : Text.pieces '\n' source.toList = front ++ text :: back) :
    ∃ rest, source.toList = Text.closedBy '\n' front ++ (text ++ rest) := by
  rw [← Text.join_pieces '\n' source.toList, split,
    Text.join_eq_closedBy_append '\n' front (List.cons_ne_nil text back)]
  cases back with
  | nil => exact ⟨[], by rw [List.append_nil]; rfl⟩
  | cons next back => exact ⟨_, rfl⟩

theorem text_mem_pieces {source : String} {line : Line} (mem : line ∈ lines source) :
    line.text.toList ∈ Text.pieces '\n' source.toList := by
  rw [← numbered_texts 0 0 (Text.pieces '\n' source.toList)]
  exact List.mem_map_of_mem (f := fun line => line.text.toList) mem

theorem feedless_front {source : String} {front back : List (List Char)} {text : List Char}
    (split : Text.pieces '\n' source.toList = front ++ text :: back) :
    ∀ piece ∈ front, '\n' ∉ piece := by
  intro piece mem
  apply Text.not_mem_of_mem_pieces (s := source.toList)
  rw [split]
  exact List.mem_append_left _ mem

theorem exists_line {source : String} {index : Nat} {text : List Char}
    (found : (Text.pieces '\n' source.toList)[index]? = some text) :
    ∃ line, (lines source)[index]? = some line ∧ line.text.toList = text := by
  rw [← numbered_texts 0 0 (Text.pieces '\n' source.toList), List.getElem?_map] at found
  exact Option.map_eq_some_iff.1 found

/-- The lines of the diagram's text are the contents of the lines of the source. -/
theorem pieces_code {source : String} {prepared : Prepared}
    (ready : prepare source = .ok prepared) :
    Text.pieces '\n' prepared.code.toList =
      (Text.pieces '\n' source.toList).map contentOf := by
  rw [prepare] at ready
  split at ready
  · cases ready
  · cases ready
    rw [lines, codeOf_numbered, String.toList_ofList]
    apply Text.pieces_join (by simp [Text.pieces_ne_nil])
    intro piece mem feed
    obtain ⟨text, inside, rfl⟩ := List.mem_map.1 mem
    exact Text.not_mem_of_mem_pieces inside (contentOf_subset text feed)

/-- Of lines of which none is malformed the directives and the contents are taken, in order. -/
theorem prepare_of_wellFormed {source : String}
    (fine : ∀ text ∈ Text.pieces '\n' source.toList, isMalformed text = false) :
    prepare source = .ok
      ⟨OrderedMap.ofList ((Text.pieces '\n' source.toList).filterMap directive?),
        String.ofList (Text.join '\n' ((Text.pieces '\n' source.toList).map contentOf))⟩ := by
  rw [prepare, lines, directiveEntries_of_wellFormed 0 0 fine, codeOf_numbered]

theorem prepare_of_malformed {source : String} {front back : List (List Char)} {text : List Char}
    (split : Text.pieces '\n' source.toList = front ++ text :: back)
    (fine : ∀ other ∈ front, isMalformed other = false) (malformed : isMalformed text = true) :
    prepare source = .error
      ⟨front.length + 1, Line.span ⟨front.length, width front, String.ofList text⟩⟩ := by
  rw [prepare, lines, split, directiveEntries_of_malformed 0 0 fine malformed]
  simp only [Nat.zero_add]

end ClassDiagram.Source
