import DocumentViews.Command.Basic
import DocumentViews.Command.Report
import DocumentViews.Failure
import DocumentViews.Resolution.Resolve
import DocumentViews.Sql.Select

/-! Running commands.
Every command on a collection asks for permission first. The schema is looked at only by those that
need a shape, and the database is reached only when its turn comes. -/
namespace DocumentViews

structure Context (σ : Type) where
  schema : Except SchemaError Snapshot
  classify : Classifier
  policy : Policy
  access : Access
  database : Except DbError (Database σ)

namespace Context

variable {σ : Type}

def authorize (context : Context σ) (collection : String) (action : Action) : Task σ Failure Unit :=
  match context.access.authorize collection action with
  | .ok () => pure ()
  | .error refusal => throw (.denied refusal)

/-- The database, or why it cannot be reached. -/
def reach (context : Context σ) : Task σ Failure (Database σ) :=
  match context.database with
  | .ok db => pure db
  | .error error => throw (.database error)

/-- The shape of a collection's documents; the notes of the walk are logged. -/
def resolve (context : Context σ) (collection : String) : Task σ Failure Shape := fun world =>
  match context.schema with
  | .error error => .error (.schema error) world
  | .ok snapshot =>
    let walk := Scope.resolve ⟨snapshot, context.classify, context.policy, collection⟩
    let world := { world with events := world.events ++ walk.notes.map .resolution }
    match walk.outcome with
    | .ok shape => .ok shape world
    | .error missing => .error (.missingCollection missing) world

end Context

namespace Command

variable {σ : Type}

def need : Command → Option (String × Action)
  | .routes => none
  | .create collection _ => some (collection, .create)
  | .refresh collection => some (collection, .create)
  | .drop collection => some (collection, .create)
  | .compile collection _ => some (collection, .read)
  | .all collection => some (collection, .read)
  | .find collection _ _ => some (collection, .read)
  | .findOne collection _ => some (collection, .read)

def perform (context : Context σ) : Command → Task σ Failure Report
  | .routes => pure .routes
  | .create collection materialized => do
    let shape ← context.resolve collection
    let db ← context.reach
    let view ← (View.createOrReplace db (Sql.viewName collection) shape.collection
      (Sql.compile shape) materialized).widen .view
    return .created view.collection view.name view.materialized shape.nestedNames
  | .refresh collection => do
    let db ← context.reach
    (View.refresh db (Sql.viewName collection)).widen .view
    return .refreshed (Sql.viewName collection)
  | .drop collection => do
    let db ← context.reach
    let existed ← (View.drop db (Sql.viewName collection)).widen .view
    return .dropped (Sql.viewName collection) existed
  | .compile collection tree => do
    let shape ← context.resolve collection
    return .compiled shape.collection (Sql.viewName shape.collection) shape.nestedNames
      (Sql.compile shape) (if tree then some shape else none)
  | .all collection => do
    let db ← context.reach
    let rows ← (Reading.all db collection).widen .reading
    return .rows collection rows
  | .find collection filters page => do
    let db ← context.reach
    let rows ← (Reading.list db collection (Filters.ofPairs filters) page).widen .reading
    return .rows collection rows
  | .findOne collection filters => do
    let db ← context.reach
    let found ← (Reading.findOne db collection (Filters.ofPairs filters)).widen .reading
    return .document (found.getD (.object []))

/-- Runs a command: permission first, then the work. -/
def run (context : Context σ) (command : Command) : Task σ Failure Report := do
  match command.need with
  | none => pure ()
  | some (collection, action) => context.authorize collection action
  command.perform context

end Command

end DocumentViews
