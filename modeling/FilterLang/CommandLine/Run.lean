import FilterLang.CommandLine.Arguments
import FilterLang.Config.Compile
import FilterLang.Session

/-!
# Running commands

A command reads its sources, writes to standard output and may fail. What it has written by then
stays written. A failure has an exit code of its own when the filter was evaluated and is not valid;
whatever keeps a filter from being evaluated has another.
-/

namespace FilterLang

/-- The text of a source, or the reason why it has none. -/
abbrev SourceText := Except String String

/-- What a command may read. -/
structure Sources where
  /-- The configuration. -/
  config : SourceText
  /-- The file that holds the filter. -/
  file : SourceText
  /-- The standard input. -/
  input : SourceText

/-- Why a command fails. -/
inductive CommandError where
  /-- The configuration cannot be read from its path. -/
  | configUnreadable (path reason : String)
  /-- The configuration is no TOML document or defines nothing. -/
  | configMalformed
  /-- The configuration cannot be compiled. -/
  | config (error : ConfigError)
  /-- The filter cannot be read from its path. -/
  | fileUnreadable (path reason : String)
  /-- The filter cannot be read from standard input. -/
  | inputUnreadable (reason : String)
  /-- A pass is not known. -/
  | unknownPass (unknown : UnknownPass)
  /-- The filter cannot be evaluated. -/
  | session (error : SessionError)
  /-- The filter is not valid. -/
  | rejected (errors : List String)

namespace CommandError

/-- The exit code of a failure. -/
def exitCode : CommandError → Nat
  | .rejected _ => 1
  | _ => 2

/-- The text of a failure. -/
def message : CommandError → String
  | .configUnreadable path reason => "failed to read config file '" ++ path ++ "': " ++ reason
  | .configMalformed => "failed to parse config"
  | .config error => error.message
  | .fileUnreadable path reason => "failed to read filter from '" ++ path ++ "': " ++ reason
  | .inputUnreadable reason => "failed to read filter from stdin: " ++ reason
  | .unknownPass unknown => unknown.message
  | .session .unreadable => "invalid filter json"
  | .session (.registry error) => error.message
  | .session (.malformed fault) => fault.message
  | .rejected errors => "\n".intercalate errors

end CommandError

/-- What a command prints, and how it fails if it does. -/
structure Reply where
  /-- The text on standard output. -/
  output : String
  /-- The failure. -/
  error : Option CommandError

/-- The exit code of a reply. -/
def Reply.exitCode (reply : Reply) : Nat :=
  match reply.error with
  | none => 0
  | some error => error.exitCode

/-- What a command does, step by step. The state is the text on standard output, which outlasts a
failure. -/
abbrev Action := ExceptT CommandError (StateM String)

namespace Action

/-- Writes to standard output. -/
def write (text : String) : Action Unit := modify (· ++ text)

/-- Writes a line that holds a JSON value, or several lines. -/
def writeJson (pretty : Bool) (value : Json) : Action Unit := do
  write (if pretty then value.pretty else value.compact)
  write "\n"

/-- The reply of an action that starts with nothing written. -/
def reply (action : Action Unit) : Reply :=
  match action.run.run "" with
  | (.ok _, output) => ⟨output, none⟩
  | (.error error, output) => ⟨output, some error⟩

end Action

/-- The path of the configuration when none is given. -/
def Invocation.defaultConfig : String := "sieve.toml"

/-- The path of the configuration. -/
def Invocation.configPath (invocation : Invocation) : String :=
  invocation.config?.getD defaultConfig

namespace Command

/-- Whether a command uses the configuration. -/
def usesConfig : Command → Bool
  | .normalize _ _ _ => false
  | _ => true

/-- Where the filter of a command comes from, if it takes one. -/
def source? : Command → Option FilterSource
  | .datasets => none
  | .normalize source _ _ => some source
  | .validate source _ => some source
  | .check source _ _ _ => some source

/-- Loads the registry that the configuration defines. -/
def loadRegistry (sources : Sources) (path : String) : Except CommandError Registry := do
  let text ← sources.config.mapError (.configUnreadable path)
  match Config.parse? text with
  | none => .error .configMalformed
  | some config => config.compile.mapError .config

/-- Reads the text of a filter. -/
def readFilter (sources : Sources) : FilterSource → Except CommandError String
  | .argument text => .ok text
  | .file path => sources.file.mapError (.fileUnreadable path)
  | .input => sources.input.mapError .inputUnreadable

/-- The filter that a text is. -/
def parseFilter (text : String) : Except CommandError Node :=
  match Node.parse? text with
  | none => .error (.session .unreadable)
  | some filter => .ok filter

/-- The passes that names select; without names it is all of them. -/
def selectPasses : Option (List String) → Except CommandError (List Pass)
  | none => .ok Pass.all
  | some names => (Pass.ofNames names).mapError .unknownPass

/-- The view of a dataset, or of the default dataset if none is named. -/
def resolveView (registry : Registry) (dataset : Option String) : Except CommandError View :=
  (registry.viewOf dataset).mapError fun error => .session (.registry error)

/-- The normal form of a filter. -/
def normalForm (selection : List Pass) (filter : Node) : Except CommandError Node :=
  (filter.normalizeWith selection).mapError fun fault => .session (.malformed fault)

/-- The verdict on filter text. -/
def checkText (session : Session) (dataset : Option String) (text : String) :
    Except CommandError Outcome :=
  (session.check dataset text).mapError .session

/-- Lists a dataset on a line: its name, the datasets that it refers to, and whether it is the
default. -/
def listDataset (registry : Registry) (name : String) : Action Unit := do
  Action.write name
  if let some dataset := registry.find? name then
    unless dataset.foreigns.isEmpty do
      Action.write (" [foreigns: " ++ ", ".intercalate dataset.foreigns ++ "]")
  if registry.default? = some name then
    Action.write " (default)"
  Action.write "\n"

/-- Lists the datasets of a registry. -/
def listDatasets (registry : Registry) : Action Unit := registry.names.forM (listDataset registry)

/-- The outcome of a check as a JSON value. -/
def outcomeJson : Outcome → Json
  | .accepted dataset filter =>
    .object [("dataset", .string dataset), ("accepted", .bool true), ("filter", filter.toJson)]
  | .rejected dataset errors =>
    .object [("dataset", .string dataset), ("accepted", .bool false),
      ("errors", .array (errors.map .string))]

/-- Prints the normal form of a filter. -/
def runNormalize (sources : Sources) (source : FilterSource) (passes : Option (List String))
    (pretty : Bool) : Action Unit := do
  let selection ← selectPasses passes
  let text ← readFilter sources source
  let filter ← parseFilter text
  let normal ← normalForm selection filter
  Action.writeJson pretty normal.toJson

/-- Says that a filter is valid, or fails with what is wrong with it. -/
def concludeValidate (view : View) (filter : Node) : Action Unit := do
  let report := view.validate filter
  if report.isValid then
    Action.write ("filter is valid for dataset '" ++ view.name ++ "'\n")
  else
    throw (.rejected report.messages)

/-- Validates a filter as it is. -/
def runValidate (sources : Sources) (registry : Registry) (source : FilterSource)
    (dataset : Option String) : Action Unit := do
  let view ← resolveView registry dataset
  let text ← readFilter sources source
  let filter ← parseFilter text
  concludeValidate view filter

/-- Prints what was accepted, or fails with what is wrong. A rejection is printed only as JSON. -/
def concludeCheck (json : Bool) (outcome : Outcome) : Action Unit := do
  match outcome with
  | .accepted _ filter =>
    Action.writeJson false (if json then outcomeJson outcome else filter.toJson)
  | .rejected _ errors =>
    if json then
      Action.writeJson false (outcomeJson outcome)
    throw (.rejected errors)

/-- Validates the normal form of a filter. -/
def runCheck (sources : Sources) (registry : Registry) (source : FilterSource)
    (dataset : Option String) (passes : Option (List String)) (json : Bool) : Action Unit := do
  let selection ← selectPasses passes
  let text ← readFilter sources source
  let outcome ← checkText ⟨registry, selection⟩ dataset text
  concludeCheck json outcome

/-- What a command does with the configuration at a path. -/
def perform (sources : Sources) (path : String) : Command → Action Unit
  | .datasets => do
    let registry ← loadRegistry sources path
    listDatasets registry
  | .normalize source passes pretty => runNormalize sources source passes pretty
  | .validate source dataset => do
    let registry ← loadRegistry sources path
    runValidate sources registry source dataset
  | .check source dataset passes json => do
    let registry ← loadRegistry sources path
    runCheck sources registry source dataset passes json

/-- Runs a command with the configuration at a path. -/
def run (sources : Sources) (path : String) (command : Command) : Reply :=
  (command.perform sources path).reply

end Command

/-- Runs an invocation. -/
def Invocation.run (invocation : Invocation) (sources : Sources) : Reply :=
  invocation.command.run sources invocation.configPath

end FilterLang
