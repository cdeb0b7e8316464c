import Retrace.Console.Run
import Std.Time.DateTime.Timestamp

/-!
# The command line

Reads the files that a command names, runs the command on them and writes what it leaves. Programs
are not run from here, so that a command which needs one reports it as not found.
-/

namespace Retrace.Console

def Command.paths (home : String) : Command → List String
  | .trace file _ => [file]
  | .steps files _ | .gas files _ => [files.document, files.trace]
  | .gen source _ _ tools => [source, tools.config.getD (Path.join home ".arldb/config.toml")]
  | .debug o => [o.source, o.tools.config.getD (Path.join home ".arldb/config.toml")]
  | .op files => files
  | .completions _ => []

def loadPlace (t : FileTree) (place : Place) : IO FileTree := do
  try
    return t.put place (.file (← IO.FS.readFile ("/" ++ String.intercalate "/" place)))
  catch
    | .inappropriateType .. => return t.put place .folder
    | _ => return t

/-- Adds what is at a path and on the way to it. -/
def load (directory : Place) (t : FileTree) (path : String) : IO FileTree :=
  let (start, names) := FileTree.start directory path
  ((List.range (names.length + 1)).map fun n => FileTree.walk start (names.take n)).foldlM loadPlace t

def inputLines : IO (List String) := do
  let text ← (← IO.getStdin).readToEnd
  return (Text.lines text.toList).map String.ofList

/-- Writes the files that changed. -/
def save (before after : FileTree) : IO Unit :=
  for (path, text) in after.filesBelow [] do
    if !(before.filesBelow []).contains (path, text) then
      IO.FS.writeFile ("/" ++ path) text

def UsageError.message : UsageError → String
  | .help | .noCommand =>
    "Usage: arldb <COMMAND>, with the commands trace, steps, gas, gen, debug, op and completions"
  | .version => "arldb"
  | .unknownCommand => "error: unrecognized subcommand"
  | .unknownArgument => "error: unexpected argument"
  | .missingArgument => "error: a required argument is not provided"
  | .missingValue => "error: a value is required, or is none of those allowed"
  | .malformedValue => "error: invalid value"
  | .unexpectedValue => "error: unexpected value for a flag"
  | .conflict => "error: an argument cannot be used with another one, or several times"

def explain (e : UsageError) : IO UInt32 := do
  match e with
  | .help | .version =>
    IO.println e.message
    return 0
  | _ =>
    IO.eprintln e.message
    return 2

def execute (command : Command) : IO UInt32 := do
  let home := (← IO.getEnv "HOME").getD "/"
  let directory := FileTree.placeOf [] (← IO.currentDir).toString
  let files ← (command.paths home).foldlM (load directory) (FileTree.empty.put directory .folder)
  let now ← Std.Time.Timestamp.now
  let input ← match command with
    | .debug _ => inputLines
    | _ => pure []
  let shell : Shell :=
    { files, directory, home, input, programs := fun _ => none, scriptPath := "/tmp/contract.tz",
      now := now.toSecondsSinceUnixEpoch.val.toNat, output := "", messages := "" }
  let (result, after) := command.run.run shell
  IO.print after.output
  IO.eprint after.messages
  save files after.files
  match result with
  | .ok _ => return 0
  | .error e =>
    IO.eprintln ("Error: \n" ++ String.intercalate "\n" (View.report e))
    return 1

/-- The environment variables that stand in for options. -/
def variableNames : List String := ["ARLDB_CACHE_ROOT", "ARLDB_ARCHETYPE_BIN", "ARLDB_OCTEZ_CLIENT"]

def start (args : List String) : IO UInt32 := do
  let values ← variableNames.mapM fun name => return (name, ← IO.getEnv name)
  match Command.read (fun name => (values.find? (·.1 = name)).bind (·.2)) args with
  | .ok command => execute command
  | .error e => explain e

end Retrace.Console

def main (args : List String) : IO UInt32 := Retrace.Console.start args
