import DocumentViews.Database.Basic
import DocumentViews.NameMap
import DocumentViews.Sql.Name
import DocumentViews.Text.Search

/-! A database in memory that knows views and nothing else.
It understands the statements that create, drop and refresh views, answers every query on a
view with the rows set for that view, and can be told to fail. Each call is put on record
before anything else. -/
namespace DocumentViews

inductive Catalog.Call where
  | execute (sql : String)
  | query (sql : String) (params : List Param)
  | viewKind (name : String)

inductive Catalog.Operation where
  | execute
  | query
  | viewKind
deriving DecidableEq

/-- An order to fail: which operation, on which fragment of its text, and how. -/
structure Catalog.Fault where
  operation : Catalog.Operation
  fragment : String
  error : DbError

/-- The views by name, the rows of views, the orders to fail, and the calls so far. -/
structure Catalog where
  views : NameMap ViewKind
  rows : NameMap (List Json)
  faults : List Catalog.Fault
  calls : List Catalog.Call

namespace Catalog

def empty : Catalog := ⟨.empty, .empty, [], []⟩

inductive Effect where
  | create (kind : ViewKind) (name : String)
  | drop (kind : ViewKind) (name : String)
  | refresh (name : String)
deriving DecidableEq

/-- The quoted name at the front of a text. -/
def nameAt (text : List Char) : Option String :=
  (Text.Quoted.scan Sql.nameMark text).map fun found => String.ofList found.1

/-- The statements that the catalog understands, by how they start. -/
def understood : List (String × (String → Effect)) :=
  [("DROP VIEW IF EXISTS ", .drop .plain),
   ("DROP MATERIALIZED VIEW IF EXISTS ", .drop .materialized),
   ("CREATE VIEW ", .create .plain),
   ("CREATE MATERIALIZED VIEW ", .create .materialized),
   ("REFRESH MATERIALIZED VIEW ", .refresh)]

/-- What a statement does; none when it leaves the views alone. -/
def effect? (sql : String) : Option Effect :=
  understood.findSome? fun entry => ((Text.afterStart? entry.1 sql.toList).bind nameAt).map entry.2

def shown (name : String) : String := "\"" ++ name ++ "\""

def undefined (name : String) : DbError :=
  .undefinedRelation ("relation " ++ shown name ++ " does not exist")

/-- The views after a statement. A view is dropped only by the statement for its own kind, and
created only where none is; only a materialized one is refreshed, which changes no view. -/
def apply (views : NameMap ViewKind) : Effect → Except DbError (NameMap ViewKind)
  | .create kind name =>
    if views.contains name then
      .error (.queryFailed ("relation " ++ shown name ++ " already exists"))
    else .ok (views.insert name kind)
  | .drop kind name =>
    match views.get? name with
    | none => .ok views
    | some present =>
      if present = kind then .ok (views.erase name)
      else .error (.wrongObjectType (shown name ++ " is of another kind"))
  | .refresh name =>
    match views.get? name with
    | none => .error (undefined name)
    | some .plain => .error (.wrongObjectType (shown name ++ " is not a materialized view"))
    | some .materialized => .ok views

def record (catalog : Catalog) (call : Call) : Catalog :=
  { catalog with calls := catalog.calls ++ [call] }

/-- The first order to fail that an operation meets. -/
def fault? (catalog : Catalog) (operation : Operation) (text : String) : Option DbError :=
  (catalog.faults.find? fun fault =>
    fault.operation = operation ∧ Text.occursIn fault.fragment text).map (·.error)

def execute (sql : String) (catalog : Catalog) : Except DbError Unit × Catalog :=
  let catalog := catalog.record (.execute sql)
  match catalog.fault? .execute sql with
  | some error => (.error error, catalog)
  | none =>
    match effect? sql with
    | none => (.ok (), catalog)
    | some effect =>
      match apply catalog.views effect with
      | .error error => (.error error, catalog)
      | .ok views => (.ok (), { catalog with views := views })

def source (sql : String) : String :=
  ((Text.after? " FROM ".toList sql.toList).bind nameAt).getD ""

/-- Answers a query with all rows of the view it reads. -/
def query (sql : String) (params : List Param) (catalog : Catalog) :
    Except DbError (List Json) × Catalog :=
  let catalog := catalog.record (.query sql params)
  match catalog.fault? .query sql with
  | some error => (.error error, catalog)
  | none =>
    if catalog.views.contains (source sql) then
      (.ok ((catalog.rows.get? (source sql)).getD []), catalog)
    else (.error (undefined (source sql)), catalog)

def viewKind (name : String) (catalog : Catalog) : Except DbError (Option ViewKind) × Catalog :=
  let catalog := catalog.record (.viewKind name)
  match catalog.fault? .viewKind name with
  | some error => (.error error, catalog)
  | none => (.ok (catalog.views.get? name), catalog)

def database : Database Catalog := ⟨execute, query, viewKind⟩

end Catalog

end DocumentViews
