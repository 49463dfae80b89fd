import DocumentViews.Json.Value
import DocumentViews.Resolution.Walk

/-! What the library asks of a database, and tasks that use one.
A database is three operations on a state. A task changes the state and logs events; both stay as
they are when the task fails half-way, as the effects of statements do. -/
namespace DocumentViews

inductive DbError where
  | connectionFailed (message : String)
  | undefinedRelation (message : String)
  | wrongObjectType (message : String)
  | queryFailed (message : String)
deriving DecidableEq, Inhabited

namespace DbError

def message : DbError → String
  | .connectionFailed text => "Failed to connect to PostgreSQL: " ++ text
  | .undefinedRelation text => "Relation does not exist: " ++ text
  | .wrongObjectType text => "Wrong object type: " ++ text
  | .queryFailed text => "Query failed: " ++ text

/-- Whether the failure only says that the object is not there, or not of that type. -/
def missesObject : DbError → Bool
  | .undefinedRelation _ => true
  | .wrongObjectType _ => true
  | _ => false

end DbError

inductive ViewKind where
  | plain
  | materialized
deriving DecidableEq, Inhabited

def ViewKind.ofFlag (materialized : Bool) : ViewKind :=
  if materialized then .materialized else .plain

inductive Param where
  | text (value : String)
  | texts (values : List String)
  | number (value : Nat)
deriving DecidableEq

/-- A database: the operations that the library needs, on a state of any type. -/
structure Database (σ : Type) where
  execute : String → σ → Except DbError Unit × σ
  query : String → List Param → σ → Except DbError (List Json) × σ
  viewKind : String → σ → Except DbError (Option ViewKind) × σ

inductive Event where
  | resolution (note : Note)
  | viewCreated (replaced : Bool) (kind : ViewKind) (view collection : String)
  | viewRefreshed (view : String)
  | viewDropped (view : String)

namespace Event

def level : Event → Level
  | .resolution note => note.remark.level
  | _ => .info

def text : Event → String
  | .resolution note => note.text
  | .viewCreated replaced kind view collection =>
    (if replaced then "Replaced " else "Created ") ++
      (match kind with | .materialized => "materialized view " | .plain => "view ") ++
      view ++ " for " ++ collection
  | .viewRefreshed view => "Refreshed materialized view " ++ view
  | .viewDropped view => "Dropped view " ++ view

end Event

/-- The state of a database, and the events logged so far. -/
structure World (σ : Type) where
  state : σ
  events : List Event

/-- A computation that uses a database and may fail. -/
abbrev Task (σ ε : Type) := EStateM ε (World σ)

namespace Task

variable {σ ε ε' α : Type}

def log (event : Event) : Task σ ε Unit := fun world =>
  .ok () { world with events := world.events ++ [event] }

/-- A call on the database as a task. -/
def call (operation : σ → Except DbError α × σ) : Task σ DbError α := fun world =>
  match operation world.state with
  | (.ok value, state) => .ok value { world with state := state }
  | (.error error, state) => .error error { world with state := state }

/-- The task with its failures seen as failures of a wider type. -/
def widen (wider : ε → ε') (task : Task σ ε α) : Task σ ε' α := fun world =>
  match task world with
  | .ok value after => .ok value after
  | .error error after => .error (wider error) after

end Task

end DocumentViews
