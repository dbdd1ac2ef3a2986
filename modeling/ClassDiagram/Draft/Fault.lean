import ClassDiagram.Diagnostic
import ClassDiagram.Text.Bytes
set_option autoImplicit false

/-!
Why a text is no diagram. A fault remembers what was left of the text where the offending construct
begins and where reading stopped; offsets are counted only when it is shown.
-/
namespace ClassDiagram.Draft

inductive Cause where
  /-- Two slots of one compartment without a separator between them. -/
  | missingSeparator
  /-- More classifiers inside each other than are allowed. -/
  | nestedTooDeeply
  /-- A bracket that is never closed. -/
  | unclosedClassifier
  /-- Text between two classifiers that holds no arrow. -/
  | missingArrow
  /-- Text after a classifier that no other classifier follows. -/
  | missingTarget
  /-- A closing bracket or a bar outside of all classifiers. -/
  | unexpected (found : Char)
deriving DecidableEq, Repr

namespace Cause

def code : Cause → ErrorCode
  | missingSeparator | nestedTooDeeply | unexpected _ => .unexpectedToken
  | unclosedClassifier => .unclosedClassifier
  | missingArrow => .missingArrow
  | missingTarget => .missingTarget

def message : Cause → String
  | missingSeparator => "expected `;` or a line break"
  | nestedTooDeeply => "classifiers nested too deeply"
  | unclosedClassifier => "unclosed classifier"
  | missingArrow => "association has no arrow"
  | missingTarget => "association has no target classifier"
  | unexpected found => "unexpected `" ++ found.toString ++ "`"

def help : Cause → String
  | missingSeparator => "put each line, classifier and association in its own slot"
  | nestedTooDeeply => "flatten the diagram or split it into several documents"
  | unclosedClassifier => "add a closing `]`"
  | missingArrow => "connect the classifiers with an arrow such as `->`"
  | missingTarget => "end the association with a classifier such as `[Target]`"
  | unexpected found =>
      if found = '|' then "`|` separates compartments inside a classifier"
      else "remove it, or open a classifier with `[`"

end Cause

structure Fault where
  cause : Cause
  /-- The text from the beginning of the offending construct on. -/
  start : List Char
  /-- The text that was left when reading stopped. -/
  stop : List Char
deriving DecidableEq, Repr

namespace Fault

/-- Where in `text` a part `rest` at its end begins. -/
def offset (text rest : List Char) : Nat := Text.byteLength text - Text.byteLength rest

/-- From the beginning of the construct to where reading stopped; at least one byte, but not past
the end of the text. -/
def span (fault : Fault) (text : List Char) : Span :=
  let start := offset text fault.start
  Span.between start (min (max (offset text fault.stop) (start + 1)) (Text.byteLength text))

/-- The refusal of `text` that the fault stands for. -/
def toDiagnostic (fault : Fault) (text : List Char) : Diagnostic where
  message := fault.cause.message
  code := some fault.cause.code
  labels := [⟨fault.span text, fault.cause.code.description⟩]
  help := some fault.cause.help

end Fault

theorem offset_of_append (before rest : List Char) :
    Fault.offset (before ++ rest) rest = Text.byteLength before := by
  simp [Fault.offset]

end ClassDiagram.Draft
