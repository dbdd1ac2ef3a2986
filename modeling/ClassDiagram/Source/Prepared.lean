import ClassDiagram.OrderedMap
import ClassDiagram.Source.Line
set_option autoImplicit false

/-!
Directives and comments leave empty lines behind, so that the text of the diagram has the same
lines, by number, as the source.
-/
namespace ClassDiagram

/-- The directives of a document: trimmed keys and values, in the order of first occurrence. -/
abbrev Directives := OrderedMap String

namespace Source

structure Prepared where
  directives : Directives
  code : String
deriving DecidableEq

def Prepared.isEmpty (prepared : Prepared) : Bool :=
  prepared.code.toList.all fun c => c == '\n'

/-- The directives among the lines, in order, or the first that is malformed. -/
def directiveEntries : List Line → Except MalformedDirective (List (String × String))
  | [] => .ok []
  | line :: rest =>
      if line.isDirective then
        match line.directive with
        | .error malformed => .error malformed
        | .ok entry =>
            match directiveEntries rest with
            | .error malformed => .error malformed
            | .ok entries => .ok (entry :: entries)
      else directiveEntries rest

/-- The text of the diagram, with one line for each of the given lines. -/
def codeOf (lines : List Line) : String :=
  String.ofList (Text.join '\n' (lines.map Line.content))

/-- Takes the directives out of a source, unless one of them is malformed. -/
def prepare (source : String) : Except MalformedDirective Prepared :=
  match directiveEntries (lines source) with
  | .error malformed => .error malformed
  | .ok entries => .ok ⟨OrderedMap.ofList entries, codeOf (lines source)⟩

end Source
end ClassDiagram
