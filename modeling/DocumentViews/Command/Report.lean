import DocumentViews.Json.Writer
import DocumentViews.Shape.Basic
import DocumentViews.Sql.Name
import DocumentViews.Toon

/-! What commands report, in three formats.
The table format is for people. The other two are the report as JSON, indented or in Toon. -/
namespace DocumentViews

inductive Format where
  | table
  | json
  | toon
deriving DecidableEq, Inhabited

namespace Format

def label : Format → String
  | .table => "table"
  | .json => "json"
  | .toon => "toon"

def ofLabel? (name : String) : Option Format :=
  if name = "table" then some .table
  else if name = "json" then some .json
  else if name = "toon" then some .toon
  else none

end Format

/-- An operation in the directory of operations. -/
structure Operation where
  method : String
  path : String
  command : String
  description : String

namespace Operation

def toJson (operation : Operation) : Json :=
  .object [("method", .string operation.method), ("path", .string operation.path),
    ("command", .string operation.command), ("description", .string operation.description)]

def directory : List Operation :=
  [⟨"GET", "/", "routes", "This directory"⟩,
   ⟨"GET", "/create/:collection[?materialized=true]", "create <collection> [--materialized]",
    "Compile relations and (re)create <collection>_view"⟩,
   ⟨"GET", "/refresh/:collection", "refresh <collection>", "Refresh a materialized view"⟩,
   ⟨"GET", "/drop/:collection", "drop <collection>", "Drop <collection>_view"⟩,
   ⟨"GET", "/compile/:collection", "compile <collection>",
     "Show the compiled SQL without creating anything"⟩,
   ⟨"GET", "/get/:collection/all", "all <collection>", "Up to 100 documents"⟩,
   ⟨"GET", "/get/:collection/find?field=value...", "find <collection> -w field=value...",
    "Documents matching every field exactly (default limit 10)"⟩,
   ⟨"GET", "/get/:collection/findOne?field=value...", "find-one <collection> -w field=value...",
    "First matching document, or \x7b\x7d"⟩]

end Operation

inductive Report where
  | routes
  | created (collection view : String) (materialized : Bool) (relations : List String)
  | refreshed (view : String)
  | dropped (view : String) (existed : Bool)
  | compiled (collection view : String) (relations : List String) (sql : String)
      (tree : Option Shape)
  | rows (collection : String) (found : List Json)
  | document (found : Json)

namespace Report

def decimal (n : Nat) : String := String.ofList (Nat.toDigits 10 n)

def joinLines (lines : List String) : String := "\n".intercalate lines

def padded (width : Nat) (text : String) : String :=
  text ++ String.ofList (List.replicate (width - text.length) ' ')

def widest (texts : List String) : Nat := texts.foldl (fun width text => max width text.length) 0

/-- The directory of operations for people: two lines each, commands in one column. -/
def routesTable : String :=
  let width := widest (Operation.directory.map (·.command))
  joinLines (("Routes (" ++ decimal Operation.directory.length ++ "):") ::
    Operation.directory.flatMap fun operation =>
      ["  " ++ padded width operation.command ++ "  " ++ operation.method ++ " " ++ operation.path,
       "  " ++ padded width "" ++ "    " ++ operation.description])

/-- What follows the first line about a created view. -/
def relationLines : List String → List String
  | [] => ["No nested relations."]
  | relations =>
    "" :: ("Nested relations (" ++ decimal relations.length ++ "):") :: relations.map ("  " ++ ·)

def table : Report → String
  | .routes => routesTable
  | .created collection view materialized relations =>
    joinLines (("Created " ++ (if materialized then "materialized view " else "view ") ++ view ++
      " for " ++ collection) :: relationLines relations)
  | .refreshed view => "Refreshed materialized view " ++ view
  | .dropped view existed => if existed then "Dropped " ++ view else "No view named " ++ view
  | .compiled _ view relations sql _ =>
    "-- " ++ view ++ " (relations: " ++
      (if relations.isEmpty then "none" else ", ".intercalate relations) ++ ")\n" ++ sql ++ ";"
  | .rows collection found =>
    joinLines ((collection ++ ": " ++ decimal found.length ++ " row(s)") ::
      found.flatMap fun row => ["", row.pretty])
  | .document (.object []) => "No matching row."
  | .document found => found.pretty

def toJson : Report → Json
  | .routes => .object [("routes", .array (Operation.directory.map Operation.toJson))]
  | .created collection view materialized relations =>
    .object [("data", .string "Success"), ("collection", .string collection),
      ("view", .string view), ("materialized", .bool materialized),
      ("relations", .strings relations)]
  | .refreshed view =>
    .object [("message", .string ("Refreshed materialized view " ++ view)), ("view", .string view)]
  | .dropped view existed => .object [("view", .string view), ("dropped", .bool existed)]
  | .compiled collection view relations sql tree =>
    .object ([("collection", .string collection), ("view", .string view),
      ("relations", .strings relations), ("sql", .string sql)] ++ (tree.map fun shape =>
        ("tree", shape.toJson)).toList)
  | .rows _ found => .array found
  | .document found => found

def text (report : Report) : Format → String
  | .table => report.table
  | .json => report.toJson.pretty
  | .toon => Toon.encode report.toJson

end Report

end DocumentViews
