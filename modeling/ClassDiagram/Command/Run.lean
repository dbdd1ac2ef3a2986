import ClassDiagram.Command.Arguments
import ClassDiagram.Command.Files
import ClassDiagram.Preferences
set_option autoImplicit false

namespace ClassDiagram.Command

/-- The preferences that belong to the folder from which the command is run. -/
def localPreferences : String := "trellis/config.toml"

section

variable {m : Type → Type} [Monad m]

def readPreferences (files : FileAccess m) (path : String) : m (Except Trouble Preferences) := do
  match ← files.readText path with
  | .error reason => return .error (.file reason)
  | .ok text =>
      match Preferences.ofToml? text with
      | none => return .error .preferencesUnreadable
      | some preferences => return .ok preferences

/-- Finds the preferences: in the file that was asked for, which has to be there, else in the local
file, else in the user's file, else nowhere. -/
def findPreferences (files : FileAccess m) (userFile : Option String) (asked : Option String) :
    m (Except Trouble Preferences) := do
  match asked with
  | some path =>
      if ← files.present path then readPreferences files path
      else return .error (.preferencesMissing path)
  | none =>
      if ← files.present localPreferences then readPreferences files localPreferences
      else
        match userFile with
        | none => return .ok {}
        | some path =>
            if ← files.present path then readPreferences files path else return .ok {}

def convert (preferences : Preferences) (source : String) : Except Trouble String :=
  (preferences.compile source).map preferences.exportText

def run (files : FileAccess m) (userFile : Option String) (arguments : Arguments) :
    m (Except Trouble Unit) := do
  match ← findPreferences files userFile arguments.config with
  | .error trouble => return .error trouble
  | .ok preferences =>
      match ← files.readText arguments.input with
      | .error reason => return .error (.file reason)
      | .ok source =>
          match convert preferences source with
          | .error trouble => return .error trouble
          | .ok text =>
              match ← files.writeText arguments.output text with
              | .error reason => return .error (.file reason)
              | .ok () => return .ok ()

end
end ClassDiagram.Command
