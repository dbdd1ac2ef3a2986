import ClassDiagram.Draft.Reader
import ClassDiagram.Settings.OfDirectives
import ClassDiagram.Tree.OfDraft
set_option autoImplicit false

namespace ClassDiagram

structure Diagram where
  root : Tree.Compartment
  settings : Settings

/-- Why a source makes no diagram; the reader of the text has its own reasons. -/
inductive CompileError (ε : Type) where
  | malformedDirective (malformed : Source.MalformedDirective)
  | refused (reason : ε)
deriving DecidableEq

def CompileError.message {ε : Type} (reasonMessage : ε → String) : CompileError ε → String
  | .malformedDirective malformed => malformed.message
  | .refused reason => reasonMessage reason

/-- What turns a source into a diagram: a reader for the text, a table of styles to start from, and
directives that hold unless the source has its own. -/
structure Compiler (ε : Type) where
  read : String → Except ε Draft.Compartment
  styles : StyleTable := .builtin
  defaults : Directives := .empty

namespace Compiler

def standard : Compiler Diagnostic := { read := Draft.ofText? }

variable {ε : Type}

/-- The settings that a source with the given directives asks for. -/
def settings (compiler : Compiler ε) (directives : Directives) : Settings :=
  .ofDirectives (compiler.defaults.merge directives) compiler.styles

def compile (compiler : Compiler ε) (source : String) : Except (CompileError ε) Diagram :=
  match Source.prepare source with
  | .error malformed => .error (.malformedDirective malformed)
  | .ok prepared =>
      if prepared.isEmpty then .ok ⟨.empty, compiler.settings prepared.directives⟩
      else
        match compiler.read prepared.code with
        | .error reason => .error (.refused reason)
        | .ok draft => .ok ⟨Tree.ofDraft draft, compiler.settings prepared.directives⟩

/-- The text that is handed to the reader when a source is compiled, if any is. -/
def textRead? (source : String) : Option String :=
  match Source.prepare source with
  | .error _ => none
  | .ok prepared => if prepared.isEmpty then none else some prepared.code

end Compiler
end ClassDiagram
