import ClassDiagram.Proofs.Source.Lines
import ClassDiagram.Proofs.Text.Bytes

set_option autoImplicit false

namespace ClassDiagram.Source

/-- The line stands in the source behind `feeds` line feeds. -/
structure Line.StandsBehind (line : Line) (source : String) (feeds : Nat) : Prop where
  index : line.index = feeds
  number : line.number = feeds + 1
  /-- As many line feeds as its index says stand in front of the first byte of its span. -/
  counted : ∃ before after, source = before ++ after ∧
    before.utf8ByteSize = line.span.start ∧ before.toList.count '\n' = feeds
  startValid : (⟨line.span.start⟩ : String.Pos.Raw).IsValid source
  stopValid : (⟨line.span.stop⟩ : String.Pos.Raw).IsValid source
  bytes : source.toByteArray.extract line.span.start line.span.stop =
    (String.ofList (Text.trimEnd line.text.toList)).toByteArray

theorem numbered_getElem? (index offset k : Nat) (texts : List (List Char)) :
    (numbered index offset texts)[k]? =
      texts[k]?.map fun text => ⟨index + k, offset + width (texts.take k), String.ofList text⟩ := by
  induction texts generalizing index offset k with
  | nil => rfl
  | cons text rest ih =>
      cases k with
      | zero => rfl
      | succ k =>
          have hi : index + 1 + k = index + (k + 1) := by omega
          have ho : offset + (Text.byteLength text + 1) + width (rest.take k) =
              offset + width ((text :: rest).take (k + 1)) := by
            rw [List.take_succ_cons, width_cons, Nat.add_assoc]
          rw [numbered, List.getElem?_cons_succ, ih, hi, ho, List.getElem?_cons_succ]

/-- A line has its index and its offset from the lines in front of it. -/
theorem exists_split {source : String} {k : Nat} {line : Line}
    (found : (lines source)[k]? = some line) :
    ∃ front text back, Text.pieces '\n' source.toList = front ++ text :: back ∧
      front.length = k ∧ line = ⟨k, width front, String.ofList text⟩ := by
  rw [lines, numbered_getElem?, Option.map_eq_some_iff] at found
  obtain ⟨text, here, rfl⟩ := found
  obtain ⟨inside, same⟩ := List.getElem?_eq_some_iff.1 here
  refine ⟨(Text.pieces '\n' source.toList).take k, text,
    (Text.pieces '\n' source.toList).drop (k + 1), ?_, ?_, ?_⟩
  · rw [← same, ← List.drop_eq_getElem_cons inside, List.take_append_drop]
  · exact List.length_take_of_le (Nat.le_of_lt inside)
  · rw [Nat.zero_add, Nat.zero_add]

theorem Line.span_start (line : Line) : line.span.start = line.offset := rfl

theorem Line.span_stop (index offset : Nat) (text : List Char) :
    (Line.span ⟨index, offset, String.ofList text⟩).stop =
      offset + Text.byteLength (Text.trimEnd text) := by
  rw [← Span.start_add_length, Line.span_length]
  rfl

theorem Line.span_stop_le (index offset : Nat) (text : List Char) :
    (Line.span ⟨index, offset, String.ofList text⟩).stop ≤ offset + Text.byteLength text := by
  obtain ⟨white, -, kept⟩ := Text.trimEnd_append text
  have sum := congrArg Text.byteLength kept
  rw [Text.byteLength_append] at sum
  rw [Line.span_stop]
  omega

theorem Line.standsBehind {source : String} {front back : List (List Char)} {text : List Char}
    (split : Text.pieces '\n' source.toList = front ++ text :: back) :
    Line.StandsBehind ⟨front.length, width front, String.ofList text⟩ source front.length := by
  obtain ⟨rest, whole⟩ := source_eq_closedBy_append split
  obtain ⟨white, -, kept⟩ := Text.trimEnd_append text
  have cut : source.toList =
      Text.closedBy '\n' front ++ (Text.trimEnd text ++ (white ++ rest)) := by
    rw [whole, ← List.append_assoc (Text.trimEnd text), kept]
  have stop := Line.span_stop front.length (width front) text
  refine ⟨rfl, rfl, ⟨.ofList (Text.closedBy '\n' front), .ofList (text ++ rest), ?_, ?_, ?_⟩,
    ?_, ?_, ?_⟩
  · rw [← String.ofList_append, ← whole, String.ofList_toList]
  · rw [← Text.byteLength_eq]
    rfl
  · rw [String.toList_ofList, Text.closedBy_count (feedless_front split)]
  · exact Text.isValid_iff.2 ⟨_, _, cut, rfl⟩
  · refine Text.isValid_iff.2
      ⟨Text.closedBy '\n' front ++ Text.trimEnd text, white ++ rest, ?_, ?_⟩
    · rw [cut, List.append_assoc]
    · rw [Text.byteLength_append, stop, width]
  · rw [stop, String.toList_ofList]
    exact Text.extract_between cut

theorem offset_le_of_mem_numbered {index offset : Nat} {texts : List (List Char)} {line : Line}
    (mem : line ∈ numbered index offset texts) : offset ≤ line.offset := by
  induction texts generalizing index offset with
  | nil => cases mem
  | cons text rest ih =>
      rcases List.mem_cons.1 mem with rfl | mem
      · exact Nat.le_refl offset
      · have behind := ih mem
        omega

/-- At least the line feed stands between the spans of two lines. -/
theorem numbered_apart (index offset : Nat) (texts : List (List Char)) :
    (numbered index offset texts).Pairwise fun first second =>
      first.span.stop < second.span.start := by
  induction texts generalizing index offset with
  | nil => exact List.Pairwise.nil
  | cons text rest ih =>
      refine List.Pairwise.cons (fun line mem => ?_) (ih _ _)
      have behind := offset_le_of_mem_numbered mem
      have ahead := Line.span_stop_le index offset text
      rw [line.span_start]
      omega

theorem intercalate_lines (source : String) :
    "\n".intercalate ((lines source).map Line.text) = source := by
  apply String.toList_injective
  rw [String.toList_intercalate, List.map_map, ← join_lines source, Text.join_eq_intercalate]
  rfl

/-- The lines are what the line feeds of the source separate, each of them in its place. -/
structure Positioned (source : String) (lines : List Line) : Prop where
  whole : "\n".intercalate (lines.map Line.text) = source
  oneLine : ∀ line ∈ lines, '\n' ∉ line.text.toList
  places : ∀ (k : Nat) (line : Line), lines[k]? = some line → line.StandsBehind source k
  apart : lines.Pairwise fun first second => first.span.stop < second.span.start
  inside : ∀ line ∈ lines, line.span.stop ≤ source.utf8ByteSize

/-- Numbers and spans say of every line where it stands in the source. -/
theorem lines_positioned (source : String) : Positioned source (lines source) := by
  have places (k : Nat) (line : Line) (found : (lines source)[k]? = some line) :
      line.StandsBehind source k := by
    obtain ⟨front, text, back, split, rfl, rfl⟩ := exists_split found
    exact Line.standsBehind split
  refine ⟨intercalate_lines source, fun line mem => ?_, places, numbered_apart _ _ _,
    fun line mem => ?_⟩
  · exact Text.not_mem_of_mem_pieces (text_mem_pieces mem)
  · obtain ⟨k, found⟩ := List.mem_iff_getElem?.1 mem
    exact (places k line found).stopValid.le_utf8ByteSize

/-- An ideographic space takes three bytes and is in no span, nor is a line feed. -/
example : ((lines "é\u3000\n\nb").map fun line => (line.number, line.span.start, line.span.stop)) =
    [(1, 0, 2), (2, 6, 6), (3, 7, 8)] := by decide +kernel

end ClassDiagram.Source
