import DocumentViews.Database.Basic
import DocumentViews.Sql.Name
import DocumentViews.Sql.Routine

/-! Views over compiled selects: creating or replacing, refreshing and dropping them.
A view has one column, the JSON of a whole row of its select. Replacing drops what is there, of
either kind, and then creates; the statement for the wrong kind fails in a way that is ignored. -/
namespace DocumentViews

inductive ViewError where
  | notMaterialized (name : String)
  | database (error : DbError)
deriving DecidableEq

def ViewError.message : ViewError → String
  | .notMaterialized name => name ++ " is not a materialized view"
  | .database error => error.message

structure View where
  name : String
  collection : String
  materialized : Bool
  query : String
deriving DecidableEq

namespace View

variable {σ : Type}

def rowQuery (sql : String) : String :=
  "SELECT row_to_json(\"root\") FROM (" ++ sql ++ ") AS \"root\""

def keywords : ViewKind → String
  | .plain => "VIEW "
  | .materialized => "MATERIALIZED VIEW "

def createStatement (kind : ViewKind) (name query : String) : String :=
  "CREATE " ++ keywords kind ++ Sql.quoteName name ++ " (" ++ Sql.quoteName Sql.dataColumn ++
    ") AS " ++ query

def dropStatement (kind : ViewKind) (name : String) : String :=
  "DROP " ++ keywords kind ++ "IF EXISTS " ++ Sql.quoteName name

def refreshStatement (name : String) : String := "REFRESH MATERIALIZED VIEW " ++ Sql.quoteName name

def execute (db : Database σ) (sql : String) : Task σ ViewError Unit :=
  (Task.call (db.execute sql)).widen .database

/-- Runs a statement that may find its object missing or of another type. -/
def executeLenient (db : Database σ) (sql : String) : Task σ ViewError Unit := fun world =>
  match execute db sql world with
  | .error (.database error) after =>
    if error.missesObject then .ok () after else .error (.database error) after
  | other => other

def installRoutines (db : Database σ) : Task σ ViewError Unit := do
  execute db Sql.resolveRowWithNested
  execute db Sql.resolveRow

/-- Drops the view of a name, of either kind; tells whether there was one. -/
def dropExisting (db : Database σ) (name : String) : Task σ ViewError Bool := do
  let kind ← (Task.call (db.viewKind name)).widen .database
  executeLenient db (dropStatement .plain name)
  executeLenient db (dropStatement .materialized name)
  return kind.isSome

/-- Replaces whatever view is of that name by one over a select of a collection. -/
def createOrReplace (db : Database σ) (name collection sql : String) (materialized : Bool) :
    Task σ ViewError View := do
  installRoutines db
  let existed ← dropExisting db name
  let kind := ViewKind.ofFlag materialized
  execute db (createStatement kind name (rowQuery sql))
  Task.log (.viewCreated existed kind name collection)
  return ⟨name, collection, materialized, rowQuery sql⟩

/-- Refreshes a materialized view; any other view, or none, is an error. -/
def refresh (db : Database σ) (name : String) : Task σ ViewError Unit := do
  match ← (Task.call (db.viewKind name)).widen .database with
  | some .materialized =>
    execute db (refreshStatement name)
    Task.log (.viewRefreshed name)
  | _ => throw (.notMaterialized name)

def drop (db : Database σ) (name : String) : Task σ ViewError Bool := do
  let existed ← dropExisting db name
  if existed then Task.log (.viewDropped name)
  return existed

end View

end DocumentViews
