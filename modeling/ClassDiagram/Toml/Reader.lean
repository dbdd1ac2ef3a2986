import ClassDiagram.Toml.Lexical
import ClassDiagram.Toml.Scalar
set_option autoImplicit false

/-!
Only arrays and tables between braces nest, and at most `nestingLimit` deep, so values are read by
recursion on the levels that are still allowed. A document that is not well formed, or that gives a
key twice, is refused.
-/
namespace ClassDiagram.Toml

/-- How many arrays and tables between braces may be open at once. -/
def nestingLimit : Nat := 80

abbrev ValueReader := List Char → Option (Value × List Char)

/-- The items of an array whose bracket has been read. A comma may follow the last one. -/
def items? (item? : ValueReader) (s : List Char) : Option (List Value × List Char) :=
  match skipFiller? false s with
  | none | some [] => none
  | some (']' :: rest) => some ([], rest)
  | some start =>
      match item? start with
      | none => none
      | some (item, rest) =>
          match skipFiller? false rest with
          | some (']' :: left) => some ([item], left)
          | some (',' :: next) =>
              if next.length < s.length then
                (items? item? next).map fun (more, left) => (item :: more, left)
              else none
          | _ => none
termination_by s.length

/-- A key, an equals sign and a value, with what `skip?` skips around the equals sign. -/
def assignment? (skip? : List Char → Option (List Char)) (item? : ValueReader) (s : List Char) :
    Option (List String × Value × List Char) :=
  match cutKey? s with
  | none => none
  | some (keys, rest) =>
      match skip? rest with
      | some ('=' :: next) =>
          match skip? next with
          | none => none
          | some start => (item? start).map fun (value, left) => (keys, value, left)
      | _ => none

/-- The entries of a table whose brace has been read, put into those there are. Line ends may stand
anywhere but inside a key, and a comma may follow the last entry. -/
def members? (item? : ValueReader) (entries : Entries) (s : List Char) :
    Option (Entries × List Char) :=
  match skipFiller? false s with
  | none | some [] => none
  | some ('}' :: rest) => some (entries, rest)
  | some start =>
      match assignment? (skipFiller? false) item? start with
      | none => none
      | some (keys, value, rest) =>
          match entries.assign? keys value with
          | none => none
          | some entries =>
              match skipFiller? false rest with
              | some ('}' :: left) => some (entries, left)
              | some (',' :: next) =>
                  if next.length < s.length then members? item? entries next else none
              | _ => none
termination_by s.length

/-- A value, with so many levels of brackets and braces allowed. -/
def value? : Nat → ValueReader
  | levels, s =>
      match s with
      | '"' :: _ | '\'' :: _ =>
          (cutText? s).map fun (text, rest) => (.text (String.ofList text), rest)
      | '[' :: inner =>
          match levels with
          | 0 => none
          | levels + 1 =>
              (items? (value? levels) inner).map fun (items, rest) => (.array items, rest)
      | '{' :: inner =>
          match levels with
          | 0 => none
          | levels + 1 =>
              (members? (value? levels) [] inner).map fun (entries, rest) =>
                (.table .inline entries, rest)
      | _ =>
          let (word, rest) := cutScalar s
          (scalar? word).map fun value => (value, rest)

/-- What has been read of a document: its root table and the path of the table that the next lines
belong to. -/
structure State where
  root : Entries
  current : List String

/-- The path in a header and what follows its closing brackets. -/
def header? (closing : List Char) (s : List Char) : Option (List String × List Char) :=
  match cutKey? s with
  | none => none
  | some (keys, rest) =>
      if (skipSpaces rest).take closing.length = closing then
        some (keys, (skipSpaces rest).drop closing.length)
      else none

/-- Makes the table that a header names the current one. -/
def State.enter? (state : State) (keys : List String) (create : String → Entries → Option Entries) :
    Option State :=
  match keys.getLast? with
  | none => none
  | some last =>
      (state.root.modify? false keys.dropLast (create last)).map fun root => ⟨root, keys⟩

/-- Reads one header or assignment. -/
def line? (state : State) (s : List Char) : Option (State × List Char) :=
  match s with
  | '[' :: '[' :: r =>
      match header? [']', ']'] r with
      | none => none
      | some (keys, rest) =>
          (state.enter? keys Entries.openNext?).map fun state => (state, rest)
  | '[' :: r =>
      match header? [']'] r with
      | none => none
      | some (keys, rest) =>
          (state.enter? keys Entries.openTable?).map fun state => (state, rest)
  | s =>
      match assignment? (fun rest => some (skipSpaces rest)) (value? nestingLimit) s with
      | none => none
      | some (keys, value, rest) =>
          (state.root.modify? false state.current (Entries.assign? keys value)).map fun root =>
            ({ state with root := root }, rest)

def lines? (state : State) (s : List Char) : Option Entries :=
  match skipFiller? false s with
  | none => none
  | some [] => some state.root
  | some start =>
      match line? state start with
      | none => none
      | some (state, rest) =>
          match restOfLine? rest with
          | none => none
          | some next => if next.length < s.length then lines? state next else none
termination_by s.length

/-- The root table of a document; a byte order mark in front does not count. -/
def document? (text : String) : Option Entries :=
  match text.toList with
  | '\uFEFF' :: s => lines? ⟨[], []⟩ s
  | s => lines? ⟨[], []⟩ s

end ClassDiagram.Toml
