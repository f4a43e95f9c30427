import OperationCatalog.Json.Writer
import OperationCatalog.Server

/-!
# The program

Takes its settings from the command line and the environment and answers requests.  Each line of
standard input is a request, a method and a target; its answer is one line with the status and the
body.  The log goes to standard error.
-/

namespace OperationCatalog.Main

/-- What stands under a path now. -/
def fileState (path : String) : IO FileState := do
  try return .bytes (← IO.FS.readBinFile path)
  catch
    | .noFileOrDirectory .. => return .absent
    | .inappropriateType .. => return .directory
    | error => return .unreadable (toString error)

/-- The variables of the environment that count. -/
def environment : IO (List (String × String)) := do
  let found ← Setting.all.mapM fun setting => do
    let text ← IO.getEnv setting.environmentName
    return text.map fun text => (setting.environmentName, text)
  return found.filterMap id

/-- What is told about arguments that give no settings. -/
def argumentText : ArgumentError → String
  | .missingModel => "a model is required: --model FILE"
  | .unknownArgument => "unknown argument"
  | .invalidValue => "a value is missing or not possible"
  | .valueValidation => "a value is not an address or not a port"
  | .conflict => "an option is given twice"
  | .tooManyValues => "a switch takes no value"
  | .help =>
    "options: " ++ " ".intercalate (Setting.all.map fun setting => "--" ++ setting.option)
  | .version => "opscope-core 0.1.0"

/-- What is said of a model file whose text cannot be read. -/
def wording : Model.Wording
  | .json, _ => "not the JSON text of a service"
  | .toml, _ => "not the TOML text of a service"

/-- The request on a line. -/
def requestOfLine (line : String) : Request :=
  let cs := line.toList.filter fun c => c ≠ '\n' && c ≠ '\r'
  ⟨String.ofList (cs.takeWhile (· ≠ ' ')), String.ofList ((cs.dropWhile (· ≠ ' ')).drop 1)⟩

/-- The answer on a line. -/
def responseLine (r : Response) : String :=
  toString r.status ++ (r.body.map fun v => " " ++ Json.text v).getD "" ++ "\n"

/-- Writes events to the log. -/
def log (events : List Event) : IO Unit := do
  let stderr ← IO.getStderr
  for event in events do
    stderr.putStrLn event.line

/-- Answers requests until there are no more. -/
partial def answerAll (server : Server) (started : Nat) : IO Unit := do
  let line ← (← IO.getStdin).getLine
  if line.isEmpty then return
  let file ← fileState server.settings.model
  let (response, events, server) :=
    server.handle file ((← IO.monoMsNow) - started) (requestOfLine line)
  log events
  let stdout ← IO.getStdout
  stdout.putStr (responseLine response)
  stdout.flush
  answerAll server started

/-- Runs the program; the result is its exit code. -/
def run (arguments : List String) : IO UInt32 := do
  match Arguments.read arguments (← environment) with
  | .error .help =>
    IO.println (argumentText .help)
    return 0
  | .error .version =>
    IO.println (argumentText .version)
    return 0
  | .error error =>
    IO.eprintln ("error: " ++ argumentText error)
    return 2
  | .ok arguments =>
    match Settings.ofArguments arguments with
    | .error error =>
      IO.eprintln ("ERROR server failed: " ++ error.startMessage)
      return 1
    | .ok settings =>
      log (Server.startEvents settings settings.bindText)
      answerAll (Server.start settings wording) (← IO.monoMsNow)
      return 0

end OperationCatalog.Main

/-- The program. -/
def main (arguments : List String) : IO UInt32 := OperationCatalog.Main.run arguments
