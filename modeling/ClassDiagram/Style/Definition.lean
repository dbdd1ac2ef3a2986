import ClassDiagram.Style.Basic
import ClassDiagram.Text.Search
set_option autoImplicit false

namespace ClassDiagram

inductive StyleFlag where
  | bold
  | underline
  | italic
  | dashed
  | empty
deriving DecidableEq, Repr

def StyleFlag.all : List StyleFlag := [.bold, .underline, .italic, .dashed, .empty]

def StyleFlag.name : StyleFlag → String
  | .bold => "bold"
  | .underline => "underline"
  | .italic => "italic"
  | .dashed => "dashed"
  | .empty => "empty"

inductive StyleKey where
  | align
  | fill
  | stroke
  | visual
  | direction
deriving DecidableEq, Repr

namespace StyleKey

def all : List StyleKey := [.align, .fill, .stroke, .visual, .direction]

def name : StyleKey → String
  | .align => "align"
  | .fill => "fill"
  | .stroke => "stroke"
  | .visual => "visual"
  | .direction => "direction"

def ofName? (name : String) : Option StyleKey := all.find? fun key => key.name == name

/-- The word and the equals sign in front of a value. -/
def marker (key : StyleKey) : List Char := key.name.toList ++ ['=']

end StyleKey

structure StyleDefinition where
  text : List Char
deriving DecidableEq, Repr

namespace StyleDefinition

/-- Whether the keyword of a flag occurs in the text. -/
def hasFlag (definition : StyleDefinition) (flag : StyleFlag) : Bool :=
  Text.occurs flag.name.toList definition.text

/-- What follows the last occurrence of a key, up to the next space. -/
def lastValue? (definition : StyleDefinition) (key : StyleKey) : Option (List Char) :=
  (Text.afterLast? key.marker definition.text).map fun rest => rest.takeWhile fun c => c != ' '

/-- The value of a key, unless it is empty. -/
def value? (definition : StyleDefinition) (key : StyleKey) : Option String :=
  match definition.lastValue? key with
  | none | some [] => none
  | some value => some (String.ofList value)

/-- The style that the text describes. Shapes and directions that are not known are the usual
ones, and everything is centred unless it is aligned to the left. -/
def toStyle (definition : StyleDefinition) : Style where
  bold := definition.hasFlag .bold
  underline := definition.hasFlag .underline
  italic := definition.hasFlag .italic
  dashed := definition.hasFlag .dashed
  empty := definition.hasFlag .empty
  center := definition.value? .align != some "left"
  fill := definition.value? .fill
  stroke := definition.value? .stroke
  visual := ((definition.value? .visual).bind Visual.vocabulary.read?).getD .classBox
  direction := ((definition.value? .direction).bind Direction.vocabulary.read?).getD .topToBottom

end StyleDefinition

def Style.ofText (text : String) : Style := StyleDefinition.toStyle ⟨text.toList⟩

namespace StyleDefinition

/-- A key has a last value exactly when it occurs with an equals sign. -/
theorem lastValue?_isSome (definition : StyleDefinition) (key : StyleKey) :
    (definition.lastValue? key).isSome = Text.occurs key.marker definition.text := by
  simp [lastValue?, Text.afterLast?_isSome]

end StyleDefinition
end ClassDiagram
