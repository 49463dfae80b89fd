import DocumentViews.Database.Catalog
import DocumentViews.Proofs.Command.Stages
import DocumentViews.Proofs.Database.ViewStore

/-! Databases under watch.
A database under watch answers as it did before, and keeps a record of the calls and of how they
failed. So a run in a context with such a database leaves a record of all that it asked of it. On
the record of a replacement stand its six calls in their order, unless one of them did not pass. -/
namespace DocumentViews

variable {σ α : Type}

/-- A call on a database, with the failure that it met, if any. -/
structure Exchange where
  call : Catalog.Call
  failure : Option DbError

namespace Exchange

/-- A statement that drops something passes as well when it misses its object. -/
def passed : Exchange → Bool
  | ⟨_, none⟩ => true
  | ⟨.execute sql, some error⟩ =>
    (Text.afterStart? "DROP " sql.toList).isSome && error.missesObject
  | ⟨_, some _⟩ => false

end Exchange

def Catalog.Call.statement? : Catalog.Call → Option String
  | .execute sql => some sql
  | _ => none

structure Watched (σ : Type) where
  state : σ
  exchanges : List Exchange

namespace Watched

def statements (watched : Watched σ) : List String :=
  watched.exchanges.filterMap fun exchange => exchange.call.statement?

/-- These are the calls so far. -/
def Logged (calls : List Catalog.Call) (watched : Watched σ) : Prop :=
  watched.exchanges.map Exchange.call = calls

def AllPassed (watched : Watched σ) : Prop := ∀ exchange ∈ watched.exchanges, exchange.passed = true

end Watched

namespace Database

def noting (call : Catalog.Call) (operation : σ → Except DbError α × σ) (watched : Watched σ) :
    Except DbError α × Watched σ :=
  let (answer, state) := operation watched.state
  (answer, ⟨state, watched.exchanges ++ [⟨call, Task.failure? answer⟩]⟩)

def watched (db : Database σ) : Database (Watched σ) where
  execute sql := noting (.execute sql) (db.execute sql)
  query sql params := noting (.query sql params) (db.query sql params)
  viewKind name := noting (.viewKind name) (db.viewKind name)

/-- Whether a call passes or not, it is the last one on record. -/
theorem settled_noting {call : Catalog.Call} {operation : σ → Except DbError α × σ}
    {calls : List Catalog.Call} {watched : Watched σ} (logged : watched.Logged calls) :
    Task.Settled (fun _ => Watched.Logged (calls ++ [call]))
      (fun error left => left.Logged (calls ++ [call]) ∧
        (Exchange.passed ⟨call, some error⟩ = false → ¬ left.AllPassed))
      (noting call operation watched) := by
  unfold noting
  cases operation watched.state with
  | mk answer state =>
    have noted (failure : Option DbError) : Watched.Logged (calls ++ [call])
        (⟨state, watched.exchanges ++ [⟨call, failure⟩]⟩ : Watched σ) := by
      rw [Watched.Logged, List.map_append, logged]
      rfl
    cases answer with
    | ok value => exact noted none
    | error error =>
      refine ⟨noted (some error), fun balked passed => ?_⟩
      cases balked.symm.trans (passed _ (List.mem_append_right _ List.mem_cons_self))

/-- Every call passes, in whatever state. -/
structure Passing (db : Database σ) : Prop where
  execute : ∀ sql state,
    Exchange.passed ⟨.execute sql, Task.failure? (db.execute sql state).1⟩ = true
  query : ∀ sql params state,
    Exchange.passed ⟨.query sql params, Task.failure? (db.query sql params state).1⟩ = true
  viewKind : ∀ name state,
    Exchange.passed ⟨.viewKind name, Task.failure? (db.viewKind name state).1⟩ = true

theorem settled_passing {call : Catalog.Call} {operation : σ → Except DbError α × σ}
    {watched : Watched σ}
    (passes : Exchange.passed ⟨call, Task.failure? (operation watched.state).1⟩ = true)
    (before : watched.AllPassed) :
    Task.Settled (fun _ => Watched.AllPassed) (fun _ => Watched.AllPassed)
      (noting call operation watched) := by
  have after : (noting call operation watched).2.AllPassed := by
    intro exchange recorded
    rcases List.mem_append.mp recorded with earlier | last
    · exact before exchange earlier
    · rw [List.mem_singleton.mp last]
      exact passes
  cases ended : (noting call operation watched).1 with
  | ok value => exact .of_ok ended after
  | error error => exact .of_error ended after

end Database

namespace View

variable (db : Database σ) {calls : List Catalog.Call}

theorem logged_execute {sql : String} (keeps : Text.afterStart? "DROP " sql.toList = none) :
    Task.Triple (Watched.Logged calls) (execute db.watched sql)
      (fun _ => Watched.Logged (calls ++ [.execute sql]))
      (fun _ watched => ¬ watched.AllPassed) := by
  apply triple_execute
  intro watched logged
  apply (Database.settled_noting logged).conseq (fun _ _ noted => noted)
  rintro error left ⟨_, balks⟩
  exact balks (by simp [Exchange.passed, keeps])

/-- The failures that are ignored are those with which a call passes. -/
theorem logged_dropStatement (kind : ViewKind) (name : String) :
    Task.Triple (Watched.Logged calls) (executeLenient db.watched (dropStatement kind name))
      (fun _ => Watched.Logged (calls ++ [.execute (dropStatement kind name)]))
      (fun _ watched => ¬ watched.AllPassed) := by
  apply triple_executeLenient
  intro watched logged
  apply (Database.settled_noting logged).conseq (fun _ _ noted => noted)
  rintro error left ⟨noted, balks⟩
  by_cases missed : error.missesObject = true
  · rw [if_pos missed]
    exact noted
  · rw [if_neg missed]
    exact balks (by simp [Exchange.passed, missed])

theorem logged_viewKind (name : String) :
    Task.Triple (Watched.Logged calls)
      ((Task.call (db.watched.viewKind name)).widen ViewError.database)
      (fun _ => Watched.Logged (calls ++ [.viewKind name]))
      (fun _ watched => ¬ watched.AllPassed) := by
  apply triple_viewKind
  intro watched logged
  apply (Database.settled_noting logged).conseq (fun _ _ noted => noted)
  rintro error left ⟨_, balks⟩
  exact balks rfl

def replacing (name sql : String) (materialized : Bool) : List Catalog.Call :=
  [.execute Sql.resolveRowWithNested, .execute Sql.resolveRow, .viewKind name,
    .execute (dropStatement .plain name), .execute (dropStatement .materialized name),
    .execute (createStatement (.ofFlag materialized) name (rowQuery sql))]

theorem keeps_createStatement (kind : ViewKind) (name query : String) :
    Text.afterStart? "DROP " (createStatement kind name query).toList = none := by
  simp only [createStatement, String.append_assoc, String.toList_append]
  exact Text.afterStart?_other (by decide) (by decide) _

theorem keeps_lines {line : String}
    (apart : ¬ "DROP ".toList <+: line.toList ∧ ¬ line.toList <+: "DROP ".toList)
    (next : String) (rest : List String) :
    Text.afterStart? "DROP " ("\n".intercalate (line :: next :: rest)).toList = none := by
  rw [String.intercalate_cons_cons, String.append_assoc, String.toList_append]
  exact Text.afterStart?_other apart.1 apart.2 _

theorem logged_dropExisting (name : String) :
    Task.Triple (Watched.Logged calls) (dropExisting db.watched name)
      (fun _ => Watched.Logged (calls ++ [.viewKind name] ++
        [.execute (dropStatement .plain name)] ++ [.execute (dropStatement .materialized name)]))
      (fun _ watched => ¬ watched.AllPassed) := by
  apply triple_dropExisting (logged_viewKind db name)
  · intro kind
    exact logged_dropStatement db .plain name
  · intro kind
    exact logged_dropStatement db .materialized name

theorem logged_createOrReplace (name collection sql : String) (materialized : Bool) :
    Task.Triple (Watched.Logged []) (createOrReplace db.watched name collection sql materialized)
      (fun view watched => view = ⟨name, collection, materialized, rowQuery sql⟩ ∧
        watched.Logged (replacing name sql materialized))
      (fun _ watched => ¬ watched.AllPassed) := by
  apply triple_createOrReplace (logged_execute db (keeps_lines (by decide +kernel) _ _))
    (logged_execute db (keeps_lines (by decide +kernel) _ _)) (logged_dropExisting db name)
  intro existed
  exact logged_execute db (keeps_createStatement _ _ _)

/-- On a database that passes each call, what is on record has passed. -/
theorem passing_createOrReplace {db : Database σ} (passing : db.Passing)
    (name collection sql : String) (materialized : Bool) :
    Task.Triple Watched.AllPassed (createOrReplace db.watched name collection sql materialized)
      (fun view watched => view = ⟨name, collection, materialized, rowQuery sql⟩ ∧
        watched.AllPassed)
      (fun _ => Watched.AllPassed) := by
  have executes (sql : String) : Task.Triple Watched.AllPassed (execute db.watched sql)
      (fun _ => Watched.AllPassed) (fun _ => Watched.AllPassed) :=
    triple_execute fun _ => Database.settled_passing (passing.execute sql _)
  have drops (kind : ViewKind) : Task.Triple Watched.AllPassed
      (executeLenient db.watched (dropStatement kind name)) (fun _ => Watched.AllPassed)
      (fun _ => Watched.AllPassed) := by
    apply triple_executeLenient
    intro watched before
    apply (Database.settled_passing (passing.execute _ _) before).conseq (fun _ _ passed => passed)
    intro error left passed
    simpa using passed
  have asks : Task.Triple Watched.AllPassed
      ((Task.call (db.watched.viewKind name)).widen ViewError.database)
      (fun _ => Watched.AllPassed) (fun _ => Watched.AllPassed) :=
    triple_viewKind fun _ => Database.settled_passing (passing.viewKind name _)
  have clears : Task.Triple Watched.AllPassed (dropExisting db.watched name)
      (fun _ => Watched.AllPassed) (fun _ => Watched.AllPassed) :=
    triple_dropExisting asks (fun _ => drops .plain) fun _ => drops .materialized
  exact triple_createOrReplace (executes _) (executes _) clears fun _ => executes _

end View

def World.watched (world : World σ) : World (Watched σ) := ⟨⟨world.state, []⟩, world.events⟩

def Context.watched (context : Context σ) : Context (Watched σ) where
  schema := context.schema
  classify := context.classify
  policy := context.policy
  access := context.access
  database := context.database.map Database.watched

/-- What stands on record after the run of a command. -/
def Command.exchanges (context : Context σ) (command : Command) (world : World σ) : List Exchange :=
  match command.run context.watched world.watched with
  | .ok _ after => after.state.exchanges
  | .error _ after => after.state.exchanges

theorem Command.passed_of_passing {context : Context σ} {db : Database σ}
    (reached : context.database = .ok db) (passing : db.Passing) (collection : String)
    (materialized : Bool) (world : World σ) :
    ∀ exchange ∈ (Command.create collection materialized).exchanges context world,
      exchange.passed = true := by
  have watches : context.watched.database = .ok db.watched := by rw [Context.watched, reached]; rfl
  have creates :
      Task.Triple Watched.AllPassed ((Command.create collection materialized).run context.watched)
        (fun _ => Watched.AllPassed) (fun _ => Watched.AllPassed) := by
    let passes (_ : Shape) : Watched σ → Prop := Watched.AllPassed
    refine Task.Triple.ending (triple_create materialized passes ?_ ?_ ?_ ?_) ?_
    · exact fun _ _ _ passed => passed
    · exact fun _ _ _ _ passed => passed
    · exact fun _ _ _ passed => passed
    · intro shape other shaped found
      cases watches.symm.trans found
      exact View.passing_createOrReplace passing _ _ _ _
    · rintro report state ⟨_, _, _, _, passed⟩
      exact passed
  have settled := creates world.watched nofun
  unfold exchanges
  cases ran : (Command.create collection materialized).run context.watched world.watched with
  | ok report after =>
    rw [ran] at settled
    exact settled
  | error failure after =>
    rw [ran] at settled
    exact settled

end DocumentViews
