import RemoteInput.CommandLine.Resolve
import RemoteInput.Connection.Listener
import RemoteInput.Log.Line

/-!
# The command

The command takes options, loads the settings and then handles its standard input
as one connection.  What the connection reports goes to the standard output, as
far as the settings ask for it.

The exit code is 0 when the input was read to its end, and when help or the
version was asked for.  It is 1 when the settings, the backend or the input fail,
and 2 when the arguments are not understood.
-/

namespace RemoteInput.Command

/-! ## The machine -/

/-- The variables that the command looks at. -/
def variableNames : List String :=
  ["XDG_CONFIG_HOME", "HOME"] ++ OptionName.all.filterMap OptionName.envName?

/-- Reads the environment. -/
def environment : IO Environment := do
  let values ← variableNames.filterMapM fun name => do
    return (← IO.getEnv name).map fun value => (name, value)
  return ⟨fun name => List.lookup name values⟩

/-- The error of a file that cannot be read. -/
def ofFileError : IO.Error → IoError
  | .noFileOrDirectory .. => .notFound
  | .permissionDenied _ _ details => ⟨.permissionDenied, details⟩
  | e => ⟨.other, toString e⟩

/-- Reads one file.  Nothing else is there to be read. -/
def fileSystem (path? : Option String) : IO FileSystem := do
  match path? with
  | none => return ⟨fun _ => .error .notFound⟩
  | some path =>
    let content ← (IO.FS.readBinFile path).toBaseIO
    let result : Except IoError Bytes :=
      match content with
      | .ok bytes => .ok bytes.toList
      | .error e => .error (ofFileError e)
    return ⟨fun _ => result⟩

/-- The seconds since the machine was started. -/
def now : IO Float := do
  return (← IO.monoMsNow).toFloat / 1000

/-! ## Usage -/

/-- The options with their values. -/
def usage : String :=
  "Accepts JSON input events and injects them locally\n\n" ++
  "Usage: iobus-host [OPTIONS]\n\n" ++
  "Options:\n" ++
  "      --config <CONFIG>                        Path to the TOML config file\n" ++
  "      --bind <BIND>                            IP address to listen on\n" ++
  "      --port <PORT>                            TCP port to listen on\n" ++
  "      --max-line-bytes <MAX_LINE_BYTES>        Longest accepted line in bytes\n" ++
  "      --read-timeout-secs <READ_TIMEOUT_SECS>  Close a silent connection, 0 = never\n" ++
  "      --backend <BACKEND>                      Injection backend: auto, log or macos\n" ++
  "  -h, --help                                   Print help\n" ++
  "  -V, --version                                Print version\n"

/-- What is said about arguments that are not taken as options. -/
def usageText : UsageError → String
  | .help => usage
  | .version => versionLine
  | .unknownArgument argument => s!"error: unexpected argument {Quoted.write argument}\n"
  | .missingValue option => s!"error: a value is required for --{option.long}\n"
  | .invalidValue option text | .notANumber option text =>
    s!"error: invalid value {Quoted.write text} for --{option.long}\n"
  | .repeated option => s!"error: --{option.long} cannot be used multiple times\n"
  | .unexpectedValue name => s!"error: --{name} takes no value\n"

/-! ## The connection -/

/-- Prints the records that the settings ask for. -/
def report (least : Log.Level) (log : List Log.Record) : IO Unit := do
  let out ← IO.getStdout
  for record in log do
    if least.shows record.level then out.putStrLn record.line
  out.flush

/-- Takes in the input until it ends or fails. -/
partial def receiveInput (least : Log.Level) (backend : Injection.Backend Unit) (limit : UInt64)
    (state : Connection.State) : IO Summary := do
  let time ← now
  let ctx : Connection.Context Unit := ⟨backend, limit, fun _ => time⟩
  let finish (ending : Connection.StreamEnd) : IO Summary := do
    let (_, summary, trace) := Connection.finish ctx () state ending (.ok ())
    report least trace.log
    return summary
  match ← ((← IO.getStdin).read 8192).toBaseIO with
  | .error e => finish (.failed (.io (ofFileError e)))
  | .ok chunk =>
    if chunk.isEmpty then finish .closed
    else
      let progress := Connection.receive ctx () state chunk.toList
      report least progress.trace.log
      receiveInput least backend limit progress.state

/-- Handles the standard input as one connection. -/
def serveInput (least : Log.Level) (backend : Injection.Backend Unit) (limits : Limits) :
    IO UInt32 := do
  report least [Listener.connectedRecord]
  let summary ← receiveInput least backend limits.maxLineBytes {}
  report least [Listener.disconnectedRecord summary]
  return if summary.ending = .peerClosed then 0 else 1

/-- Says why the command gives up. -/
def giveUp (reason cause : String) : IO UInt32 := do
  IO.eprintln s!"Error: {reason}\n\nCaused by:\n    {cause}"
  return 1

/-- Runs the command with options that were understood. -/
def runWith (env : Environment) (options : Overrides) : IO UInt32 := do
  let fs ← fileSystem (options.config <|> env.configFile?)
  match options.resolve fs env with
  | .error e => giveUp e.message e.cause.message
  | .ok (settings, config) =>
    match settings.backend.build with
    | .error e =>
      giveUp s!"cannot start the {settings.backend.resolve.name} injection backend" e.message
    | .ok backend => serveInput (.ofSetting settings.logLevel) backend config.limits

/-- Takes the options and handles the input. -/
def run (args : List String) : IO UInt32 := do
  let env ← environment
  match Overrides.parse env args with
  | .error e =>
    if e.toStderr then IO.eprint (usageText e) else IO.print (usageText e)
    return e.exitCode.toUInt32
  | .ok options => runWith env options

end RemoteInput.Command

/-- The program. -/
def main (args : List String) : IO UInt32 := RemoteInput.Command.run args
