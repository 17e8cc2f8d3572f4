/-
  NetconfClient/Main.lean
  =======================
  **The command line program.**

  It reads the words, the variables and the files, hands them over and prints
  what is told.  Network connections are not within its reach, so every device
  is found unreachable.
-/
import NetconfClient.Command.Exec

namespace NetconfClient.Program

open CommandLine Command

/-- What a failed read means for a command. -/
def fileErrorOf : IO.Error → FileError
  | .noFileOrDirectory .. => .missing
  | .inappropriateType .. => .directory
  | error => .other (toString error)

/-- Reads a file. -/
def readFile (name : String) : IO (Except FileError (List UInt8)) := do
  try
    return .ok (← IO.FS.readBinFile name).toList
  catch error =>
    return .error (fileErrorOf error)

/-- Reads the files that an invocation names, and the ssh configuration. -/
def readWorkspace (invocation : Invocation) : IO Workspace := do
  let home := (← IO.getEnv "HOME").getD ""
  let configuration ← readFile (home ++ "/" ++ Workspace.configurationName)
  let files ← invocation.order.files.mapM fun name => return (name, ← readFile name)
  return {
    home := home
    read := fun name =>
      if name = Workspace.configurationName then configuration
      else (files.lookup name).getD (.error .missing) }

/-- The variables that stand in for options. -/
def readEnvironment : IO Environment := do
  return ⟨← IO.getEnv "NETCONF_HOST", ← IO.getEnv "NETCONF_USERNAME", ← IO.getEnv "NETCONF_PASSWORD"⟩

/-- Whether a record is shown. -/
def shows (invocation : Invocation) (record : Record) : Bool :=
  !invocation.quiet && (invocation.verbosity != 0 || record.level != .debug)

/-- A record on one line. -/
def renderRecord (record : Record) : String :=
  "[" ++ record.level.name ++ (record.target.map (" " ++ ·)).getD "" ++ "] " ++ record.text

/-- How the program is used. -/
def usage : String :=
  "Usage: netconf [OPTIONS] <COMMAND>\n\nCommands:\n" ++
  "    hello             Print the peer greeting\n" ++
  "    rpc               Execute raw rpc, one per file\n" ++
  "    notification      Start netconf notification listener\n\nOptions:\n" ++
  "    -v, --verbose     Use verbose output\n" ++
  "    -q, --quiet       Disable logging completely\n" ++
  "        --host        Hosts to connect, addr[:port], port defaults to 830\n" ++
  "        --username    Username for netconf connection\n" ++
  "        --password    Password for netconf connection\n" ++
  "    -h, --help        Print help\n" ++
  "    -V, --version     Print version"

/-- What is said about a command line that is not carried out. -/
def describeStop : Stop → String
  | .helpRequested | .nothingGiven => usage
  | .versionRequested => "netconf 0.1.0"
  | .unknownSubcommand => "error: unrecognized subcommand"
  | .unknownArgument => "error: unexpected argument found"
  | .missingValue => "error: a value is required for an option but none was supplied"
  | .surplusValue => "error: unexpected value for a flag"
  | .repeatedOption => "error: an option cannot be used multiple times"
  | .missingOption => "error: a required option was not provided"

/-- The exit code of a command line that is not carried out. -/
def exitCodeOf : Stop → UInt32
  | .helpRequested | .versionRequested => 0
  | _ => 2

/-- Carries out a command line. -/
def runInvocation (invocation : Invocation) : IO UInt32 := do
  let report := exec invocation (← readWorkspace invocation) invocation.order.name
    ⟨fun _ => Ssh.unreachable, .plain, ⟨"", []⟩, "0.000"⟩
  for record in report.log do
    if shows invocation record then IO.println (renderRecord record)
  match report.result with
  | .ok () => return 0
  | .error fault =>
    IO.eprintln ("Error: " ++ fault.message)
    return 1

end NetconfClient.Program

open NetconfClient NetconfClient.CommandLine NetconfClient.Program in
/-- Runs the program. -/
def main (args : List String) : IO UInt32 := do
  match Invocation.parse (← readEnvironment) args with
  | .ok (some invocation) => runInvocation invocation
  | .ok none =>
    IO.println usage
    return 0
  | .error stop =>
    IO.println (describeStop stop)
    return exitCodeOf stop
