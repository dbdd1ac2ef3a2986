set_option autoImplicit false

/-!
An option takes its value behind an equals sign, behind its letter, or from the next argument; after
`--` every argument is an input. An option that waits for its value is settled only when the next
argument is understood, so of two mistakes the one in the later argument may be reported.
-/
namespace ClassDiagram.Command

/-- What the command is asked to do. -/
structure Arguments where
  input : String
  output : String := "out.json"
  config : Option String := none
  logLevel : String := "info"
deriving DecidableEq, Repr

/-- Why arguments are not accepted. Asking for help or for the version also ends the command. -/
inductive Refusal where
  | missingInput
  | unknownArgument
  | missingValue
  | repeatedOption
  | needlessValue
  | helpAsked
  | versionAsked
deriving DecidableEq, Repr

inductive ValueOption where
  | output
  | config
  | logLevel
deriving DecidableEq, Repr

/-- The options that end the command. -/
inductive Question where
  | help
  | version
deriving DecidableEq, Repr

def Question.refusal : Question → Refusal
  | .help => .helpAsked
  | .version => .versionAsked

def ofLongName? : String → Option (ValueOption ⊕ Question)
  | "output" => some (.inl .output)
  | "config" => some (.inl .config)
  | "log-level" => some (.inl .logLevel)
  | "help" => some (.inr .help)
  | "version" => some (.inr .version)
  | _ => none

def ofLetter? : Char → Option (ValueOption ⊕ Question)
  | 'o' => some (.inl .output)
  | 'c' => some (.inl .config)
  | 'h' => some (.inr .help)
  | 'V' => some (.inr .version)
  | _ => none

inductive Form where
  | escape
  | long (name : String) (value : Option String)
  | short (letter : Char) (rest : List Char)
  | plain

/-- The form that an argument has before `--`. -/
def Form.of (argument : String) : Form :=
  match argument.toList with
  | ['-', '-'] => .escape
  | '-' :: '-' :: text =>
      match text.dropWhile fun c => c != '=' with
      | [] => .long (String.ofList text) none
      | _ :: value =>
          .long (String.ofList (text.takeWhile fun c => c != '=')) (some (String.ofList value))
  | '-' :: letter :: rest => .short letter rest
  | _ => .plain

/-- What has been understood so far. The waiting option has its value if one has been given. -/
structure Progress where
  input : Option String := none
  output : Option String := none
  config : Option String := none
  logLevel : Option String := none
  waiting : Option (ValueOption × Option String) := none

namespace Progress

def value? (progress : Progress) : ValueOption → Option String
  | .output => progress.output
  | .config => progress.config
  | .logLevel => progress.logLevel

/-- Gives an option its value; it may have only one. -/
def assign (progress : Progress) (option : ValueOption) (value : String) :
    Except Refusal Progress :=
  if (progress.value? option).isSome then .error .repeatedOption
  else
    match option with
    | .output => .ok { progress with output := some value }
    | .config => .ok { progress with config := some value }
    | .logLevel => .ok { progress with logLevel := some value }

def settle (progress : Progress) : Except Refusal Progress :=
  match progress.waiting with
  | none => .ok progress
  | some (_, none) => .error .missingValue
  | some (option, some value) => { progress with waiting := none }.assign option value

def takeInput (progress : Progress) (argument : String) : Except Refusal Progress :=
  if progress.input.isSome then .error .unknownArgument
  else
    match progress.settle with
    | .error refusal => .error refusal
    | .ok progress => .ok { progress with input := some argument }

/-- Takes an option with the value written next to it, if there is one. -/
def takeOption (progress : Progress) (option : ValueOption) (value : Option String) :
    Except Refusal Progress :=
  match progress.settle with
  | .error refusal => .error refusal
  | .ok progress =>
      match value with
      | some value => progress.assign option value
      | none => .ok { progress with waiting := some (option, none) }

/-- Ends with the answer to a question, unless the waiting option cannot be settled. -/
def ask (progress : Progress) (question : Question) : Except Refusal Progress :=
  match progress.settle with
  | .error refusal => .error refusal
  | .ok _ => .error question.refusal

/-- The value written behind a letter; an equals sign in front of it does not count. -/
def valueBehind : List Char → Option String
  | [] => none
  | '=' :: value => some (String.ofList value)
  | value => some (String.ofList value)

/-- Takes an argument before `--`, of any form but `--` itself. -/
def take (progress : Progress) (argument : String) : Form → Except Refusal Progress
  | .escape => .ok progress
  | .long name value =>
      match ofLongName? name, value with
      | none, _ => .error .unknownArgument
      | some (.inl option), value => progress.takeOption option value
      | some (.inr _), some _ => .error .needlessValue
      | some (.inr question), none => progress.ask question
  | .short letter rest =>
      match ofLetter? letter with
      | none => .error .unknownArgument
      | some (.inl option) => progress.takeOption option (valueBehind rest)
      | some (.inr question) => progress.ask question
  | .plain =>
      match progress.waiting with
      | some (option, none) => .ok { progress with waiting := some (option, some argument) }
      | _ => progress.takeInput argument

/-- Takes all arguments; the flag says whether `--` has been seen. -/
def takeAll (progress : Progress) (escaped : Bool) : List String → Except Refusal Progress
  | [] => progress.settle
  | argument :: rest =>
      if escaped then
        match progress.takeInput argument with
        | .error refusal => .error refusal
        | .ok progress => progress.takeAll true rest
      else
        match Form.of argument with
        | .escape => progress.takeAll true rest
        | form =>
            match progress.take argument form with
            | .error refusal => .error refusal
            | .ok progress => progress.takeAll false rest

end Progress

/-- Understands the arguments of the command. -/
def Arguments.ofList (arguments : List String) : Except Refusal Arguments :=
  match Progress.takeAll {} false arguments with
  | .error refusal => .error refusal
  | .ok progress =>
      match progress.input with
      | none => .error .missingInput
      | some input =>
          .ok ⟨input, progress.output.getD "out.json", progress.config,
            progress.logLevel.getD "info"⟩

end ClassDiagram.Command
