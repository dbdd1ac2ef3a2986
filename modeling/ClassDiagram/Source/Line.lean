import ClassDiagram.Span
import ClassDiagram.Text.Blank
import ClassDiagram.Text.Bytes
import ClassDiagram.Text.Pieces
set_option autoImplicit false

namespace ClassDiagram.Source

/-- A line and where it stands: its index from zero and the offset of its first byte. -/
structure Line where
  index : Nat
  offset : Nat
  text : String
deriving DecidableEq, Repr

/-- A directive line without a colon. -/
structure MalformedDirective where
  line : Nat
  span : Span
deriving DecidableEq, Repr

def MalformedDirective.message (malformed : MalformedDirective) : String :=
  "line " ++ toString malformed.line ++ ": Malformed directive"

namespace Line

/-- The number of the line, counted from one. -/
def number (line : Line) : Nat := line.index + 1

/-- Where the line stands in the source, without the white characters at its end. -/
def span (line : Line) : Span :=
  Span.between line.offset (line.offset + Text.byteLength (Text.trimEnd line.text.toList))

/-- Whether the line gives a directive. -/
def isDirective (line : Line) : Bool := line.text.toList.head? == some '#'

/-- Whether the line is a remark. -/
def isComment (line : Line) : Bool :=
  match Text.trim line.text.toList with
  | '/' :: '/' :: _ => true
  | _ => false

/-- What the line contributes to the text of the diagram. -/
def content (line : Line) : List Char :=
  if line.isDirective || line.isComment then [] else Text.trim line.text.toList

/-- The key and the value of a directive line: the first two fields between colons, trimmed. -/
def directive (line : Line) : Except MalformedDirective (String × String) :=
  match Text.pieces ':' line.text.toList.tail with
  | key :: value :: _ => .ok (String.ofList (Text.trim key), String.ofList (Text.trim value))
  | _ => .error ⟨line.number, line.span⟩

end Line

/-- The given texts as successive lines, the first with the given index and offset. -/
def numbered (index offset : Nat) : List (List Char) → List Line
  | [] => []
  | text :: rest =>
      ⟨index, offset, String.ofList text⟩ ::
        numbered (index + 1) (offset + (Text.byteLength text + 1)) rest

/-- The lines of a source; a source without line feeds is one line. -/
def lines (source : String) : List Line := numbered 0 0 (Text.pieces '\n' source.toList)

theorem numbered_length (index offset : Nat) (texts : List (List Char)) :
    (numbered index offset texts).length = texts.length := by
  induction texts generalizing index offset with
  | nil => rfl
  | cons text rest ih => simp [numbered, ih]

theorem numbered_texts (index offset : Nat) (texts : List (List Char)) :
    (numbered index offset texts).map (fun line => line.text.toList) = texts := by
  induction texts generalizing index offset with
  | nil => rfl
  | cons text rest ih => simp [numbered, ih]

/-- The texts of the lines with line feeds between them are the source. -/
theorem join_lines (source : String) :
    Text.join '\n' ((lines source).map fun line => line.text.toList) = source.toList := by
  rw [lines, numbered_texts, Text.join_pieces]

end ClassDiagram.Source
