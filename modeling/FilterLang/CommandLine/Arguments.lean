/-!
# Command line arguments

The arguments name a command, with parameters of the program before it and parameters of the command
after it. Some parameters take a value, which is attached to the parameter or follows as an argument
of its own; the others are flags. A filter may be given as an argument without a parameter, and
after `--` every argument is read so.

Arguments are read from left to right. A parameter whose value may follow waits for it, and is
settled when the next parameter or filter comes; help and the version are given as soon as they are
asked for.
-/

namespace FilterLang

/-- Where the text of a filter comes from. -/
inductive FilterSource where
  /-- It is an argument. -/
  | argument (text : String)
  /-- It is in a file. -/
  | file (path : String)
  /-- It comes from standard input. -/
  | input

/-- What the program is asked to do. -/
inductive Command where
  /-- List the datasets. -/
  | datasets
  /-- Print the normal form of a filter. -/
  | normalize (source : FilterSource) (passes : Option (List String)) (pretty : Bool)
  /-- Validate a filter as it is. -/
  | validate (source : FilterSource) (dataset : Option String)
  /-- Validate the normal form of a filter. -/
  | check (source : FilterSource) (dataset : Option String) (passes : Option (List String))
    (json : Bool)

/-- A command and the parameters that every command has. -/
structure Invocation where
  /-- The path of the configuration, if it is given. -/
  config? : Option String
  /-- Whether to report progress. -/
  verbose : Bool
  /-- What to do. -/
  command : Command

/-- Why arguments are no invocation. -/
inductive Usage where
  /-- Help is asked for. -/
  | help
  /-- The version is asked for. -/
  | version
  /-- There are no arguments. -/
  | missing
  /-- The arguments make no sense. -/
  | misuse
  deriving DecidableEq

/-- The exit code of the program when it is not invoked. -/
def Usage.exitCode : Usage → Nat
  | .help => 0
  | .version => 0
  | .missing => 2
  | .misuse => 2

namespace Arguments

/-- A parameter. -/
inductive Parameter where
  | config
  | verbose
  | help
  | version
  | file
  | passes
  | dataset
  | pretty
  | json
  deriving DecidableEq

namespace Parameter

/-- The name of a parameter after two hyphens. -/
def long : Parameter → String
  | .config => "config"
  | .verbose => "verbose"
  | .help => "help"
  | .version => "version"
  | .file => "file"
  | .passes => "passes"
  | .dataset => "dataset"
  | .pretty => "pretty"
  | .json => "json"

/-- The letter of a parameter after one hyphen. -/
def short? : Parameter → Option Char
  | .verbose => some 'v'
  | .help => some 'h'
  | .version => some 'V'
  | .dataset => some 'd'
  | _ => none

/-- Whether a parameter takes a value. -/
def takesValue : Parameter → Bool
  | .config | .file | .passes | .dataset => true
  | _ => false

end Parameter

/-- The names of the commands. -/
inductive CommandName where
  | datasets
  | normalize
  | validate
  | check
  deriving DecidableEq

/-- The command with a given name. -/
def CommandName.ofName? : String → Option CommandName
  | "datasets" => some .datasets
  | "normalize" => some .normalize
  | "validate" => some .validate
  | "check" => some .check
  | _ => none

/-- What the arguments that are read belong to: the program, or a command. -/
inductive Scope where
  | program
  | command (name : CommandName)

namespace Scope

/-- The parameters in a scope. -/
def parameters : Scope → List Parameter
  | .program => [.config, .verbose, .help, .version]
  | .command .datasets => [.config, .verbose, .help]
  | .command .normalize => [.config, .verbose, .help, .file, .passes, .pretty]
  | .command .validate => [.config, .verbose, .help, .file, .dataset]
  | .command .check => [.config, .verbose, .help, .file, .dataset, .passes, .json]

/-- Whether a filter may be given as an argument. -/
def takesFilter : Scope → Bool
  | .program => false
  | .command .datasets => false
  | .command _ => true

/-- Whether an argument is the name of a command in a scope. -/
def isCommand (scope : Scope) (argument : String) : Bool :=
  match scope with
  | .program => argument == "help" || (CommandName.ofName? argument).isSome
  | .command _ => false

end Scope

/-- The parameters that have been settled. -/
structure Settings where
  config : Option String
  verbose : Bool
  file : Option String
  passes : Option (List String)
  dataset : Option String
  pretty : Bool
  json : Bool
  filter : Option String

/-- No parameter has been settled. -/
def Settings.none : Settings := ⟨.none, false, .none, .none, .none, false, false, .none⟩

/-- Whether any parameter has been settled. -/
def Settings.anyGiven (settings : Settings) : Bool :=
  settings.config.isSome || settings.verbose

/-- A value that is given once. -/
def once (earlier : Option String) (value : String) : Except Usage (Option String) :=
  if earlier.isSome then .error .misuse else .ok (some value)

/-- A path that is given once. A path has a character at least. -/
def oncePath (earlier : Option String) (value : String) : Except Usage (Option String) :=
  if value.isEmpty then .error .misuse else once earlier value

/-- A flag that is given once. -/
def onceFlag (earlier : Bool) : Except Usage Bool := if earlier then .error .misuse else .ok true

/-- Settles a parameter. A flag has no use for a value. -/
def settle (parameter : Parameter) (value : String) (settings : Settings) :
    Except Usage Settings := do
  match parameter with
  | .config => .ok { settings with config := ← oncePath settings.config value }
  | .verbose => .ok { settings with verbose := ← onceFlag settings.verbose }
  | .help => .error .help
  | .version => .error .version
  | .file => .ok { settings with file := ← oncePath settings.file value }
  | .passes =>
    .ok { settings with passes := some (settings.passes.getD [] ++ value.splitOn ",") }
  | .dataset => .ok { settings with dataset := ← once settings.dataset value }
  | .pretty => .ok { settings with pretty := ← onceFlag settings.pretty }
  | .json => .ok { settings with json := ← onceFlag settings.json }

/-- How far the arguments have been read. -/
structure Progress where
  /-- The parameters that have been settled. -/
  settings : Settings
  /-- The parameter that has not been settled, and its value if that has come. -/
  waiting : Option (Parameter × Option String)

namespace Progress

/-- Nothing has been read. -/
def start : Progress := ⟨.none, none⟩

/-- Whether the next argument may be the value of a parameter. -/
def wantsValue (progress : Progress) : Bool :=
  match progress.waiting with
  | some (_, none) => true
  | _ => false

/-- Settles the parameter that waits. -/
def settled (progress : Progress) : Except Usage Settings :=
  match progress.waiting with
  | none => .ok progress.settings
  | some (_, none) => .error .misuse
  | some (parameter, some value) => settle parameter value progress.settings

/-- Takes a parameter with its value. -/
def take (parameter : Parameter) (value : String) (progress : Progress) :
    Except Usage Progress := do
  .ok ⟨← settle parameter value (← progress.settled), none⟩

/-- Takes a parameter whose value may follow. -/
def await (parameter : Parameter) (progress : Progress) : Except Usage Progress := do
  .ok ⟨← progress.settled, some (parameter, none)⟩

/-- Takes an argument that is no parameter: a value that was waited for, or a filter. -/
def takePlain (scope : Scope) (mayBeValue : Bool) (argument : String) (progress : Progress) :
    Except Usage Progress := do
  match mayBeValue, progress.waiting with
  | true, some (parameter, none) => .ok { progress with waiting := some (parameter, some argument) }
  | _, _ =>
    let settings ← progress.settled
    if scope.takesFilter && settings.filter.isNone then
      .ok ⟨{ settings with filter := some argument }, none⟩
    else .error .misuse

/-- Takes a parameter that is written out, without its hyphens. -/
def takeLong (scope : Scope) (text : List Char) (progress : Progress) : Except Usage Progress :=
  let name := String.ofList (text.takeWhile (· != '='))
  let parameter? := scope.parameters.find? fun parameter => parameter.long == name
  match parameter?, text.dropWhile (· != '=') with
  | none, _ => .error .misuse
  | some parameter, [] =>
    if parameter.takesValue then progress.await parameter else progress.take parameter ""
  | some parameter, _ :: value =>
    if parameter.takesValue then progress.take parameter (String.ofList value) else .error .misuse

/-- Takes parameters that are written as letters, without their hyphen. What follows the letter of a
parameter that takes a value is its value. -/
def takeShort (scope : Scope) : List Char → Progress → Except Usage Progress
  | [], progress => .ok progress
  | letter :: rest, progress =>
    match scope.parameters.find? fun parameter => parameter.short? == some letter with
    | none => .error .misuse
    | some parameter =>
      if parameter.takesValue then
        match rest with
        | [] => progress.await parameter
        | '=' :: value => progress.take parameter (String.ofList value)
        | value => progress.take parameter (String.ofList value)
      else do
        takeShort scope rest (← progress.take parameter "")

end Progress

/-- Reads the arguments of a scope, up to the name of a command. `onlyPlain` holds after `--`. -/
def scan (scope : Scope) (onlyPlain : Bool) (progress : Progress) :
    List String → Except Usage (Progress × Option (String × List String))
  | [] => .ok (progress, none)
  | argument :: rest => do
    if onlyPlain then
      scan scope true (← progress.takePlain scope false argument) rest
    else if !progress.wantsValue && scope.isCommand argument then
      .ok (progress, some (argument, rest))
    else
      match argument.toList with
      | ['-', '-'] => scan scope true progress rest
      | '-' :: '-' :: text => scan scope false (← progress.takeLong scope text) rest
      | '-' :: letter :: letters =>
        scan scope false (← progress.takeShort scope (letter :: letters)) rest
      | _ => scan scope false (← progress.takePlain scope true argument) rest

/-- Whether help can be given on the topic that arguments name. -/
def isTopic : List String → Bool
  | [] => true
  | [name] => Scope.program.isCommand name
  | _ => false

/-- The source of the filter that settings give. Two sources are one too many. -/
def source (settings : Settings) : Except Usage FilterSource :=
  match settings.filter, settings.file with
  | some _, some _ => .error .misuse
  | some text, none => .ok (.argument text)
  | none, some path => .ok (.file path)
  | none, none => .ok .input

/-- The command that a name and settings ask for. -/
def command (name : CommandName) (settings : Settings) : Except Usage Command := do
  match name with
  | .datasets => .ok .datasets
  | .normalize => .ok (.normalize (← source settings) settings.passes settings.pretty)
  | .validate => .ok (.validate (← source settings) settings.dataset)
  | .check => .ok (.check (← source settings) settings.dataset settings.passes settings.json)

/-- Reads the arguments after the name of a command. -/
def readCommand (name : CommandName) (arguments : List String) :
    Except Usage (Settings × Command) := do
  let (progress, _) ← scan (.command name) false .start arguments
  let settings ← progress.settled
  .ok (settings, ← command name settings)

/-- Reads the arguments of the program. What a command says of the parameters of the program
counts more than what is said before it. -/
def parse (arguments : List String) : Except Usage Invocation := do
  let (progress, next) ← scan .program false .start arguments
  match next with
  | none =>
    let settings ← progress.settled
    .error (if settings.anyGiven then .misuse else .missing)
  | some (name, rest) =>
    match CommandName.ofName? name with
    | none => .error (if isTopic rest then .help else .misuse)
    | some name =>
      let (inner, command) ← readCommand name rest
      let outer ← progress.settled
      .ok
        { config? := inner.config.or outer.config
          verbose := inner.verbose || outer.verbose
          command := command }

end Arguments

end FilterLang
