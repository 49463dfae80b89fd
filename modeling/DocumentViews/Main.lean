import DocumentViews.Program

/-! The command line program.
It looks at the files that a run may ask for, runs, and prints: results to standard output, events
and failures to standard error. -/
namespace DocumentViews

namespace Main

def look (path : String) : IO FileState := do
  try
    let bytes ← IO.FS.readBinFile path
    match String.fromUTF8? bytes with
    | some content => return .text content
    | none => return .binary
  catch
    | .noFileOrDirectory _ _ _ => return .missing
    | _ => return .directory

/-- Only two variables are looked at. -/
def environment : IO (String → Option String) := do
  let connection ← IO.getEnv Config.connectionVariable
  let schema ← IO.getEnv Config.schemaVariable
  return fun name =>
    if name = Config.connectionVariable then connection
    else if name = Config.schemaVariable then schema
    else none

/-- The file of the configuration, then the one that the configuration names. -/
def surroundings (named : Option String) : IO Surroundings := do
  let known ← environment
  let configPath := named.getD Config.standardFile
  let configFile ← look configPath
  let first : Surroundings :=
    ⟨fun path => if path = configPath then configFile else .missing, known⟩
  match (Program.config first named).toOption.bind (·.schemaPath) with
  | none => return first
  | some schemaPath =>
    let schemaFile ← look schemaPath
    return { first with
      file := fun path => if path = schemaPath then schemaFile else first.file path }

def usage : String := "\n".intercalate
  (["Usage: pg_json_views [-f table|json|toon] [-c FILE] COMMAND", "", "Commands:"] ++
    Operation.directory.map fun operation => "  " ++ operation.command)

def finish : Program.Outcome → IO UInt32
  | .done output => do
    IO.println output
    return 0
  | .failed failure => do
    IO.eprintln failure.body.compact
    return 1
  | .usage .version => do
    IO.println Program.version
    return 0
  | .usage .help => do
    IO.println usage
    return 0
  | .usage _ => do
    IO.eprintln usage
    return 2

/-- Runs the program; events that are more than details are shown before the result. -/
def run (arguments : List String) : IO UInt32 := do
  let named := (Arguments.parse arguments).toOption.bind (·.config)
  let (outcome, events) := Program.run (← surroundings named) arguments
  for event in events do
    if event.level ≠ .debug then IO.eprintln (event.level.label ++ " " ++ event.text)
  finish outcome

end Main

end DocumentViews

def main (arguments : List String) : IO UInt32 := DocumentViews.Main.run arguments
