import ClassDiagram.Choice
import ClassDiagram.OrderedMap
set_option autoImplicit false

namespace ClassDiagram

structure Style where
  bold : Bool := false
  underline : Bool := false
  italic : Bool := false
  dashed : Bool := false
  empty : Bool := false
  center : Bool := false
  fill : Option String := none
  stroke : Option String := none
  visual : Visual := .classBox
  direction : Direction := .topToBottom
deriving DecidableEq, Repr

abbrev StyleTable := OrderedMap Style

namespace StyleTable

/-- The styles of the types that are known from the start, in alphabetical order. -/
def builtinEntries : List (String × Style) :=
  [("ABSTRACT", { italic := true, center := true }),
    ("ACTOR", { visual := .actor, center := true }),
    ("CHOICE", { visual := .rhomb, center := true }),
    ("CLASS", { bold := true, center := true }),
    ("DATABASE", { visual := .database, bold := true, center := true }),
    ("END", { visual := .endPoint, empty := true }),
    ("FRAME", { visual := .frame }),
    ("HIDDEN", { visual := .hidden, empty := true }),
    ("INPUT", { visual := .input, center := true }),
    ("INSTANCE", { underline := true, center := true }),
    ("LABEL", { visual := .noShape }),
    ("NOTE", { visual := .note }),
    ("PACKAGE", { visual := .package }),
    ("RECEIVER", { visual := .receiver }),
    ("REFERENCE", { dashed := true, center := true }),
    ("SENDER", { visual := .sender }),
    ("START", { visual := .startPoint, empty := true }),
    ("STATE", { visual := .roundrect, center := true }),
    ("TABLE", { visual := .table, center := true }),
    ("TRANSCEIVER", { visual := .transceiver }),
    ("USECASE", { visual := .ellipse, center := true })]

def builtin : StyleTable := ⟨builtinEntries, by decide⟩

end StyleTable
end ClassDiagram
