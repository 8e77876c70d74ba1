import FilterLang.CommandLine.Run

/-!
# The program

Reads the arguments and the sources that they name, runs the command, and prints its reply.
-/

namespace FilterLang

/-- The number of a system error, which may come with its sign turned. -/
def systemNumber (code : UInt32) : Nat :=
  if code.toNat < 1000 then code.toNat else UInt32.size - code.toNat

/-- The number of the system error behind a failure. -/
def systemError? : IO.Error → Option Nat
  | .noFileOrDirectory _ _ _ => some 2
  | .permissionDenied _ code _ => some (systemNumber code)
  | .inappropriateType _ code _ => some (systemNumber code)
  | .invalidArgument _ code _ => some (systemNumber code)
  | .resourceExhausted _ code _ => some (systemNumber code)
  | .otherError code _ => some (systemNumber code)
  | _ => none

/-- The text of a system error, for the errors that reading meets. -/
def systemErrorText? : Nat → Option String
  | 2 => some "No such file or directory"
  | 13 => some "Permission denied"
  | 20 => some "Not a directory"
  | 21 => some "Is a directory"
  | 36 => some "File name too long"
  | 40 => some "Too many levels of symbolic links"
  | _ => none

/-- The reason of a failure to read, as it is reported. -/
def readFailure (error : IO.Error) : String :=
  match systemError? error with
  | none => toString error
  | some number =>
    match systemErrorText? number with
    | none => toString error
    | some text => text ++ " (os error " ++ toString number ++ ")"

/-- The text of bytes. -/
def decodeText (bytes : ByteArray) : SourceText :=
  match String.fromUTF8? bytes with
  | some text => .ok text
  | none => .error "stream did not contain valid UTF-8"

/-- Reads a file. -/
def readFileText (path : String) : IO SourceText := do
  try
    return decodeText (← IO.FS.readBinFile path)
  catch error =>
    return .error (readFailure error)

/-- Reads standard input to its end. -/
def readInputText : IO SourceText := do
  try
    return decodeText (← (← IO.getStdin).readBinToEnd)
  catch error =>
    return .error (readFailure error)

/-- Reads the sources that an invocation uses. -/
def readSources (invocation : Invocation) : IO Sources := do
  let unused : SourceText := .ok ""
  let config ←
    if invocation.command.usesConfig then readFileText invocation.configPath else pure unused
  let (file, input) ←
    match invocation.command.source? with
    | some (.file path) => do pure (← readFileText path, unused)
    | some .input => do pure (unused, ← readInputText)
    | _ => pure (unused, unused)
  return ⟨config, file, input⟩

/-- How the program is used. -/
def usageText : String :=
  "Usage: [--config PATH] [--verbose] COMMAND\n\n"
    ++ "Commands:\n"
    ++ "  datasets   List the configured datasets\n"
    ++ "  normalize  [FILTER | --file PATH] [--passes NAMES] [--pretty]\n"
    ++ "  validate   [FILTER | --file PATH] [--dataset NAME]\n"
    ++ "  check      [FILTER | --file PATH] [--dataset NAME] [--passes NAMES] [--json]\n"

/-- Prints why there is nothing to run. -/
def printUsage (usage : Usage) : IO Unit := do
  match usage with
  | .help => IO.print usageText
  | .version => IO.println "0.4.0"
  | .missing | .misuse => IO.eprint usageText

/-- Runs an invocation and prints its reply. -/
def runInvocation (invocation : Invocation) : IO Nat := do
  let sources ← readSources invocation
  let reply := invocation.run sources
  IO.print reply.output
  if let some error := reply.error then
    IO.eprintln error.message
  return reply.exitCode

end FilterLang

/-- Runs the program. -/
def main (arguments : List String) : IO UInt32 := do
  match FilterLang.Arguments.parse arguments with
  | .error usage =>
    FilterLang.printUsage usage
    return usage.exitCode.toUInt32
  | .ok invocation =>
    let fallback ← IO.getEnv "SIEVE_CONFIG"
    let invocation := { invocation with config? := invocation.config?.or fallback }
    return (← FilterLang.runInvocation invocation).toUInt32
