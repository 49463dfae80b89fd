import DocumentViews.Database.Basic
import DocumentViews.Schema.Format

/-! How a database is reached.
A ready connection text wins over the single settings. Connections are never encrypted. -/
namespace DocumentViews

structure Connection where
  text : Option String
  host : Option String
  port : UInt16
  user : Option String
  database : Option String
  password : Option String
  ssl : Bool
deriving DecidableEq, Inhabited

namespace Connection

def standardPort : UInt16 := 5432

def ofText (text : String) : Connection := ⟨some text, none, standardPort, none, none, none, false⟩

def setting (keyword : String) : Option String → List String
  | none => []
  | some value => [keyword ++ "=" ++ value]

/-- The connection text; without a ready one there must be a host. -/
def render (connection : Connection) : Except DbError String :=
  match connection.text, connection.host with
  | some text, _ => .ok text
  | none, none =>
    .error (.connectionFailed "missing 'host' (or 'connection_string') in database config")
  | none, some host =>
    .ok (" ".intercalate (
      ["host=" ++ host, "port=" ++ String.ofList (Nat.toDigits 10 connection.port.toNat)] ++
      setting "user" connection.user ++ setting "dbname" connection.database ++
      setting "password" connection.password))

/-- The connection text after the checks that come before connecting. -/
def check (connection : Connection) : Except DbError String :=
  if connection.ssl then
    .error (.connectionFailed "TLS connections are not supported; set \"ssl\": false")
  else connection.render

def ofSyntax : Json.Decoder Connection := fun tree => do
  let record ← Json.Record.read ["connection_string", "host", "port", "user",
    "database", "password", "ssl"] tree
  let text ← record.optional "connection_string" Json.Decode.text
  let host ← record.optional "host" Json.Decode.text
  let port ← record.withDefault "port" standardPort.toNat (Json.Decode.natBelow UInt16.size)
  let user ← record.optional "user" Json.Decode.text
  let database ← record.optional "database" Json.Decode.text
  let password ← record.optional "password" Json.Decode.text
  let ssl ← record.withDefault "ssl" false Json.Decode.bool
  return ⟨text, host, .ofNat port, user, database, password, ssl⟩

def toJson (connection : Connection) : Json :=
  .object [("connection_string", .optional connection.text), ("host", .optional connection.host),
    ("port", .nat connection.port.toNat), ("user", .optional connection.user),
    ("database", .optional connection.database), ("password", .optional connection.password),
    ("ssl", .bool connection.ssl)]

end Connection

end DocumentViews
