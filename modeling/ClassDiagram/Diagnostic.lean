import ClassDiagram.Span
set_option autoImplicit false

namespace ClassDiagram

inductive ErrorCode where
  | malformedDirective
  | unexpectedToken
  | unclosedClassifier
  | missingArrow
  | missingTarget
deriving DecidableEq, Repr

namespace ErrorCode

def all : List ErrorCode :=
  [.malformedDirective, .unexpectedToken, .unclosedClassifier, .missingArrow, .missingTarget]

/-- The number under which a kind is documented. -/
def name : ErrorCode → String
  | .malformedDirective => "E001"
  | .unexpectedToken => "E100"
  | .unclosedClassifier => "E101"
  | .missingArrow => "E102"
  | .missingTarget => "E103"

def description : ErrorCode → String
  | .malformedDirective => "malformed directive"
  | .unexpectedToken => "unexpected token"
  | .unclosedClassifier => "unclosed classifier"
  | .missingArrow => "association without arrow"
  | .missingTarget => "association without target"

def ofName? (name : String) : Option ErrorCode := all.find? fun code => code.name == name

end ErrorCode

/-- A stretch of the text and what is to be said about it. -/
structure Label where
  span : Span
  message : String
deriving DecidableEq, Repr

/-- A refusal as it is shown. -/
structure Diagnostic where
  message : String
  code : Option ErrorCode := none
  labels : List Label := []
  help : Option String := none
deriving DecidableEq, Repr

namespace Diagnostic

def withCode (diagnostic : Diagnostic) (code : ErrorCode) : Diagnostic :=
  { diagnostic with code := some code }

/-- The same refusal with one label more, after those it has. -/
def withLabel (diagnostic : Diagnostic) (span : Span) (message : String) : Diagnostic :=
  { diagnostic with labels := diagnostic.labels ++ [⟨span, message⟩] }

def withHelp (diagnostic : Diagnostic) (help : String) : Diagnostic :=
  { diagnostic with help := some help }

def headline (diagnostic : Diagnostic) : String :=
  match diagnostic.code with
  | none => "error: " ++ diagnostic.message
  | some code => "error[" ++ code.name ++ "]: " ++ diagnostic.message

end Diagnostic
end ClassDiagram
