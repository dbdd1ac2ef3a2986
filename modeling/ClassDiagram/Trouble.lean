import ClassDiagram.Command.Files
import ClassDiagram.Diagram
set_option autoImplicit false

namespace ClassDiagram

inductive Trouble where
  /-- The file of preferences that was asked for is not there. -/
  | preferencesMissing (path : String)
  /-- A file of preferences makes no sense. -/
  | preferencesUnreadable
  /-- A file cannot be used. -/
  | file (reason : Command.FileError)
  /-- A source makes no diagram. The text is the one that offsets point into. -/
  | source (reason : CompileError Diagnostic) (text : String)
deriving DecidableEq

/-- What is shown of trouble: a headline, a code, advice, labels on a text (the first one is the
main one) and the reason behind it. -/
structure Report where
  headline : String
  code : Option String
  help : Option String
  labels : List Label
  hasText : Bool
  cause : Option String
deriving DecidableEq, Repr

/-- The labels, each with whether it is the main one, if there are any. -/
def Report.marks? (report : Report) : Option (List (Label × Bool)) :=
  if report.labels.isEmpty then none
  else some (report.labels.zipIdx.map fun (label, index) => (label, index == 0))

def Diagnostic.report (diagnostic : Diagnostic) : Report where
  headline := diagnostic.message
  code := diagnostic.code.map ErrorCode.name
  help := diagnostic.help
  labels := diagnostic.labels
  hasText := true
  cause := none

def Source.MalformedDirective.toDiagnostic (malformed : Source.MalformedDirective) :
    Diagnostic where
  message := malformed.message
  code := some .malformedDirective
  labels := [⟨malformed.span, ErrorCode.malformedDirective.description⟩]
  help := some "write directives as `#key: value`"

def CompileError.toDiagnostic : CompileError Diagnostic → Diagnostic
  | .malformedDirective malformed => malformed.toDiagnostic
  | .refused diagnostic => diagnostic

/-- The text that the offsets of a refusal point into: the source for a malformed directive, else
what the reader was given. -/
def CompileError.textOf (reason : CompileError Diagnostic) (source : String) : String :=
  match reason with
  | .malformedDirective _ => source
  | .refused _ => (Compiler.textRead? source).getD source

namespace Trouble

/-- The reason for trouble with files, in words. -/
def fileReason? : Trouble → Option String
  | .preferencesMissing path => some ("Missing configuration file: " ++ path)
  | .preferencesUnreadable => some "Failed to parse TOML configuration"
  | .file reason => some reason.message
  | .source .. => none

def message : Trouble → String
  | .source reason _ => reason.message Diagnostic.headline
  | trouble => "I/O error: " ++ trouble.fileReason?.getD ""

def report : Trouble → Report
  | .source reason _ => reason.toDiagnostic.report
  | trouble => ⟨trouble.message, some "trellis::io", none, [], false, trouble.fileReason?⟩

end Trouble
end ClassDiagram
