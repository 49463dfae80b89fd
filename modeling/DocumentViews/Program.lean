import DocumentViews.Command.Arguments
import DocumentViews.Command.Run
import DocumentViews.Database.Settings

/-! The whole program as a function of its arguments, the files it can see and its environment.
No database is within its reach; connecting always ends in a failure. -/
namespace DocumentViews

inductive FileState where
  | missing
  | directory
  /-- A file that is not a text. -/
  | binary
  | text (content : String)

def FileState.read : FileState → Except String String
  | .missing => .error "No such file or directory (os error 2)"
  | .directory => .error "Is a directory (os error 21)"
  | .binary => .error "stream did not contain valid UTF-8"
  | .text content => .ok content

def FileState.isPresent : FileState → Bool
  | .missing => false
  | _ => true

/-- What the program sees from outside. -/
structure Surroundings where
  file : String → FileState
  environment : String → Option String

namespace Program

inductive Outcome where
  | done (output : String)
  | failed (failure : Failure)
  | usage (error : UsageError)

def loadConfig (surroundings : Surroundings) (path : String) : Except ConfigError Config :=
  let found := surroundings.file path
  if found.isPresent then
    match found.read with
    | .error reason => .error (.unreadable path reason)
    | .ok content =>
      match Config.read content with
      | .error fault => .error (.invalid path fault.message)
      | .ok config => .ok config
  else .error (.missing path)

/-- The configuration: the named file, else the standard file if it is there, else nothing said;
then the environment for what is left open. -/
def config (surroundings : Surroundings) (named : Option String) : Except ConfigError Config :=
  let loaded :=
    match named with
    | some path => loadConfig surroundings path
    | none =>
      if (surroundings.file Config.standardFile).isPresent then
        loadConfig surroundings Config.standardFile
      else .ok .standard
  loaded.map fun config => config.withEnvironment surroundings.environment

def schema (surroundings : Surroundings) (path : Option String) : Except SchemaError Snapshot :=
  match path with
  | none => .error .notConfigured
  | some path =>
    match (surroundings.file path).read with
    | .error reason => .error (.unreadable path reason)
    | .ok content =>
      match Snapshot.read content with
      | .error fault => .error (.invalid fault.message)
      | .ok snapshot => .ok snapshot

/-- The attempt to reach a database. It fails for want of a configuration, in the checks, on a text
that cannot be read or names no host, and else at the server. -/
def connect (connection : Option Connection) : Except DbError (Database Unit) :=
  match connection with
  | none => .error (.connectionFailed ("no database configured\n\n" ++ Config.help))
  | some connection =>
    match connection.check with
    | .error error => .error error
    | .ok text =>
      match Settings.namesHost? text with
      | none => .error (.connectionFailed "invalid connection string")
      | some false =>
        .error (.connectionFailed "invalid configuration: both host and hostaddr are missing")
      | some true => .error (.connectionFailed "error connecting to server")

def context (surroundings : Surroundings) (config : Config) : Context Unit where
  schema := schema surroundings config.schemaPath
  classify := .standard
  policy := config.policy
  access := config.access
  database := connect config.database

def run (surroundings : Surroundings) (arguments : List String) : Outcome × List Event :=
  match Arguments.parse arguments with
  | .error error => (.usage error, [])
  | .ok invocation =>
    match config surroundings invocation.config with
    | .error error => (.failed (.config error), [])
    | .ok config =>
      match invocation.command.run (context surroundings config) ⟨(), []⟩ with
      | .ok report world => (.done (report.text invocation.format), world.events)
      | .error failure world => (.failed failure, world.events)

def version : String := "pg_json_views 0.1.0"

end Program

end DocumentViews
