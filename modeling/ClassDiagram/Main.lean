import ClassDiagram.Command.Run
set_option autoImplicit false

namespace ClassDiagram.Command

def FileError.ofSystem (failure : IO.Error) : FileError :=
  match failure with
  | .noFileOrDirectory .. => .notFound
  | .inappropriateType .. => .isDirectory
  | failure => .other (toString failure)

def systemFiles : FileAccess IO where
  present path := do
    try
      discard (IO.FS.realPath path)
      return true
    catch _ => return false
  readText path := do
    try
      let bytes ← IO.FS.readBinFile path
      match String.fromUTF8? bytes with
      | some text => return .ok text
      | none => return .error .notText
    catch failure => return .error (.ofSystem failure)
  writeText path text := do
    try
      IO.FS.writeFile path text
      return .ok ()
    catch failure => return .error (.ofSystem failure)

/-- Where the user's file of preferences is, if there is a place for it. -/
def userPreferences : IO (Option String) := do
  let inFolder (folder : String) : String := folder ++ "/trellis/config.toml"
  match ← IO.getEnv "XDG_CONFIG_HOME" with
  | some folder => if folder.startsWith "/" then return some (inFolder folder)
  | none => pure ()
  return (← IO.getEnv "HOME").map fun home => inFolder (home ++ "/.config")

def Refusal.message : Refusal → String
  | .missingInput => "error: the input is missing"
  | .unknownArgument => "error: unexpected argument found"
  | .missingValue => "error: an option has no value"
  | .repeatedOption => "error: an option is given twice"
  | .needlessValue => "error: an option that takes no value has one"
  | .helpAsked =>
      "Usage: trellis [-o OUTPUT] [-c CONFIG] [--log-level LEVEL] INPUT"
  | .versionAsked => "trellis 0.1.0"

def printReport (report : Report) : IO Unit := do
  let code := match report.code with
    | some code => "[" ++ code ++ "] "
    | none => ""
  IO.eprintln (code ++ report.headline)
  for label in report.labels do
    IO.eprintln (toString label.span.start ++ "-" ++ toString label.span.stop ++ ": " ++
      label.message)
  match report.help with
  | some help => IO.eprintln ("help: " ++ help)
  | none => pure ()

end ClassDiagram.Command

open ClassDiagram.Command in
/-- Turns a file with a diagram into the text that a layout program takes. -/
def main (arguments : List String) : IO UInt32 := do
  match Arguments.ofList arguments with
  | .error .helpAsked => IO.println Refusal.helpAsked.message; return 0
  | .error .versionAsked => IO.println Refusal.versionAsked.message; return 0
  | .error refusal => IO.eprintln refusal.message; return 2
  | .ok arguments =>
      match ← run systemFiles (← userPreferences) arguments with
      | .ok () => return 0
      | .error trouble => printReport trouble.report; return 1
