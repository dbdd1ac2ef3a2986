import ClassDiagram.Export
import ClassDiagram.Toml.Reader
import ClassDiagram.Trouble
set_option autoImplicit false

namespace ClassDiagram

/-- Standing directives and the layout of exported text. -/
structure Preferences where
  directives : Directives := .empty
  layout : Json.Layout := .indented
deriving DecidableEq

namespace Preferences

instance : Inhabited Preferences := ⟨{}⟩

/-- The compiler for class diagrams under the standing directives. -/
def compiler (preferences : Preferences) : Compiler Diagnostic :=
  { Compiler.standard with defaults := preferences.directives }

def exportText (preferences : Preferences) (diagram : Diagram) : String :=
  diagram.toJson.render preferences.layout

def compile (preferences : Preferences) (source : String) : Except Trouble Diagram :=
  match preferences.compiler.compile source with
  | .error reason => .error (.source reason (reason.textOf source))
  | .ok diagram => .ok diagram

def textOf? : Toml.Value → Option String
  | .text value => some value
  | _ => none

/-- The standing directives: a table of texts, taken in the order of the keys. A date or a time in
its place gives none. -/
def directivesOf? : Option Toml.Value → Option Directives
  | none | some (.moment _) => some .empty
  | some (.table _ entries) =>
      (entries.mapM fun entry => (textOf? entry.2).map fun text => (entry.1, text)).map
        fun pairs => OrderedMap.ofList (pairs.mergeSort fun first second => first.1 ≤ second.1)
  | some _ => none

/-- The layout that a truth value stands for; indented if there is none. -/
def layoutOf? : Option Toml.Value → Option Json.Layout
  | none => some .indented
  | some (.bool true) => some .indented
  | some (.bool false) => some .compact
  | some _ => none

/-- The layout in the settings for exports: a table with the key `pretty`, or an array that has its
value in the first place. The other items of an array are not looked at. A date or a time in place
of the table says nothing. -/
def exportOf? : Option Toml.Value → Option Json.Layout
  | none | some (.moment _) => some .indented
  | some (.table _ entries) =>
      if Toml.Value.entriesSound entries then layoutOf? (entries.lookup "pretty") else none
  | some (.array items) => layoutOf? items.head?
  | some _ => none

/-- Reads preferences. Keys and tables that are not known are ignored, but their numbers have to
have values. -/
def ofToml? (text : String) : Option Preferences :=
  match Toml.document? text with
  | none => none
  | some root =>
      let unknown := root.filter fun entry => entry.1 != "directives" && entry.1 != "export"
      match directivesOf? (root.lookup "directives"), exportOf? (root.lookup "export") with
      | some directives, some layout =>
          if Toml.Value.entriesSound unknown then some ⟨directives, layout⟩ else none
      | _, _ => none

end Preferences
end ClassDiagram
