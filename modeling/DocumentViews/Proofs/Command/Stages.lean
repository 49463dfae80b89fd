import DocumentViews.Command.Run
import DocumentViews.Proofs.Resolution.Identifiers
import DocumentViews.Proofs.View.Triples

/-! The stages of a run.
A run asks for its permission, and then for the shape and for the database if it needs them. What
each stage yields depends on the context alone and changes no state; so a triple for a run needs
one for the work on the database, and what holds where a stage stops the run. -/
namespace DocumentViews

variable {σ ε α β : Type}

/-- The task has the same outcome in every world, and leaves the state as it is. -/
def Task.HasOutcome (task : Task σ ε α) (outcome : Except ε α) : Prop :=
  ∀ pre, Triple pre task (fun value state => outcome = .ok value ∧ pre state)
    (fun error state => outcome = .error error ∧ pre state)

theorem Task.HasOutcome.bind {task : Task σ ε α} {outcome : Except ε α}
    (h : task.HasOutcome outcome) {next : α → Task σ ε β} {pre : σ → Prop} {post : β → σ → Prop}
    {failed : ε → σ → Prop}
    (stops : ∀ error, outcome = .error error → ∀ state, pre state → failed error state)
    (goes : ∀ value, outcome = .ok value → Triple pre (next value) post failed) :
    Triple pre (task >>= next) post failed := by
  have asked : Triple pre task (fun value state => outcome = .ok value ∧ pre state) failed :=
    (h pre).failing fun error state held => stops error held.1 state held.2
  apply asked.bind
  intro value
  exact .lift (goes value)

namespace Context

def permits (context : Context σ) (collection : String) (action : Action) : Except Failure Unit :=
  (context.access.authorize collection action).mapError .denied

def shapeOf (context : Context σ) (collection : String) : Except Failure Shape :=
  match context.schema with
  | .error error => .error (.schema error)
  | .ok snapshot =>
    (Scope.resolve ⟨snapshot, context.classify, context.policy, collection⟩).outcome.mapError
      .missingCollection

variable (context : Context σ) (collection : String)

theorem outcome_authorize (action : Action) :
    (context.authorize collection action).HasOutcome (context.permits collection action) := by
  unfold authorize permits
  cases context.access.authorize collection action with
  | ok value => exact fun pre => .pure fun state held => ⟨rfl, held⟩
  | error refusal => exact fun pre => .throw fun state held => ⟨rfl, held⟩

theorem outcome_resolve : (context.resolve collection).HasOutcome (context.shapeOf collection) := by
  intro pre world held
  unfold resolve shapeOf
  cases context.schema with
  | error error => exact ⟨rfl, held⟩
  | ok snapshot =>
    dsimp only
    cases (Scope.resolve ⟨snapshot, context.classify, context.policy, collection⟩).outcome with
    | ok shape => exact ⟨rfl, held⟩
    | error missing => exact ⟨rfl, held⟩

variable {context collection}

theorem permits_of_allowed {action : Action}
    (allowed : (context.access.decide collection action).allowed = true) :
    context.permits collection action = .ok () := by
  have granted : context.access.authorize collection action = .ok () := by
    simp [Access.authorize, allowed]
  rw [permits, granted]
  rfl

theorem shapeOf_collection {shape : Shape} (shaped : context.shapeOf collection = .ok shape) :
    shape.collection = collection := by
  unfold shapeOf at shaped
  split at shaped
  · cases shaped
  · rename_i snapshot known
    let scope : Scope := ⟨snapshot, context.classify, context.policy, collection⟩
    cases walked : scope.resolve.outcome with
    | error missing =>
      rw [walked] at shaped
      cases shaped
    | ok found =>
      rw [walked] at shaped
      cases shaped
      exact Scope.resolve_collection walked

theorem triple_reached {next : Database σ → Task σ Failure α} {pre : σ → Prop} {post : α → σ → Prop}
    {failed : Failure → σ → Prop} {db : Database σ} (reached : context.database = .ok db)
    (h : Task.Triple pre (next db) post failed) :
    Task.Triple pre (context.reach >>= next) post failed := by
  have reaches : context.reach = pure db := by rw [reach, reached]
  rwa [reaches, pure_bind]

theorem triple_unreached {next : Database σ → Task σ Failure α} {pre : σ → Prop}
    {post : α → σ → Prop} {failed : Failure → σ → Prop} {error : DbError}
    (missed : context.database = .error error)
    (held : ∀ state, pre state → failed (.database error) state) :
    Task.Triple pre (context.reach >>= next) post failed := by
  have misses : context.reach = throw (.database error) := by rw [reach, missed]
  rw [misses]
  exact fun world => held world.state

end Context

namespace Command

variable {context : Context σ} {collection : String} {pre : σ → Prop} {failed : Failure → σ → Prop}

theorem triple_run {command : Command} {action : Action} {post : Report → σ → Prop}
    (needs : command.need = some (collection, action))
    (refused : ∀ failure, context.permits collection action = .error failure →
      ∀ state, pre state → failed failure state)
    (granted : context.permits collection action = .ok () →
      Task.Triple pre (command.perform context) post failed) :
    Task.Triple pre (command.run context) post failed := by
  unfold run
  rw [needs]
  exact (context.outcome_authorize collection action).bind refused fun _ => granted

def compiled (shape : Shape) (tree : Bool) : Report :=
  .compiled shape.collection (Sql.viewName shape.collection) shape.nestedNames (Sql.compile shape)
    (if tree then some shape else none)

theorem triple_compile (tree : Bool)
    (refused : ∀ failure, context.permits collection .read = .error failure →
      ∀ state, pre state → failed failure state)
    (unshaped : ∀ failure, context.permits collection .read = .ok () →
      context.shapeOf collection = .error failure → ∀ state, pre state → failed failure state) :
    Task.Triple pre ((Command.compile collection tree).run context)
      (fun report state => context.permits collection .read = .ok () ∧
        ∃ shape, context.shapeOf collection = .ok shape ∧ report = compiled shape tree ∧ pre state)
      failed := by
  apply triple_run rfl refused
  intro granted
  apply (context.outcome_resolve collection).bind fun failure => unshaped failure granted
  intro shape shaped
  exact .pure fun state held => ⟨granted, shape, shaped, rfl, held⟩

/-- A compilation that is allowed has the outcome of the resolution, and leaves the state as
it is. -/
theorem triple_compile_allowed (allowed : (context.access.decide collection .read).allowed = true)
    (tree : Bool) (start : σ) :
    Task.Triple (· = start) ((Command.compile collection tree).run context)
      (fun report state => ∃ shape, context.shapeOf collection = .ok shape ∧
        report = compiled shape tree ∧ state = start)
      (fun failure state => context.shapeOf collection = .error failure ∧ state = start) := by
  refine Task.Triple.ending (triple_compile tree ?_ ?_) ?_
  · intro failure refused
    cases (Context.permits_of_allowed allowed).symm.trans refused
  · intro failure _ unshaped state same
    exact ⟨unshaped, same⟩
  · rintro report state ⟨_, shape, shaped, rfl, same⟩
    exact ⟨shape, shaped, rfl, same⟩

theorem run_compile_of_shape (allowed : (context.access.decide collection .read).allowed = true)
    {shape : Shape} (shaped : context.shapeOf collection = .ok shape) (tree : Bool)
    (world : World σ) :
    ∃ after, (Command.compile collection tree).run context world =
      .ok (compiled shape tree) after := by
  have compiles := triple_compile_allowed allowed tree world.state
  cases ran : (Command.compile collection tree).run context world with
  | ok report after =>
    obtain ⟨found, same, rfl, _⟩ := compiles.of_ok rfl ran
    cases shaped.symm.trans same
    exact ⟨after, rfl⟩
  | error failure after => cases shaped.symm.trans (compiles.of_error rfl ran).1

theorem triple_create (materialized : Bool) (post : Shape → σ → Prop)
    (refused : ∀ failure, context.permits collection .create = .error failure →
      ∀ state, pre state → failed failure state)
    (unshaped : ∀ failure, context.permits collection .create = .ok () →
      context.shapeOf collection = .error failure → ∀ state, pre state → failed failure state)
    (unreached : ∀ error, context.database = .error error →
      ∀ state, pre state → failed (.database error) state)
    (replaces : ∀ shape db, context.shapeOf collection = .ok shape → context.database = .ok db →
      Task.Triple pre (View.createOrReplace db (Sql.viewName collection) shape.collection
          (Sql.compile shape) materialized)
        (fun view state => view = ⟨Sql.viewName collection, shape.collection, materialized,
          View.rowQuery (Sql.compile shape)⟩ ∧ post shape state)
        (fun error => failed (.view error))) :
    Task.Triple pre ((Command.create collection materialized).run context)
      (fun report state => context.permits collection .create = .ok () ∧
        ∃ shape, context.shapeOf collection = .ok shape ∧
          report =
            .created shape.collection (Sql.viewName collection) materialized shape.nestedNames ∧
          post shape state)
      failed := by
  apply triple_run rfl refused
  intro granted
  apply (context.outcome_resolve collection).bind fun failure => unshaped failure granted
  intro shape shaped
  cases reached : context.database with
  | error error => exact Context.triple_unreached reached (unreached error reached)
  | ok db =>
    apply Context.triple_reached reached
    apply Task.Triple.returning
    apply Task.Triple.widen
    apply (replaces shape db shaped reached).ending
    rintro view state ⟨rfl, held⟩
    exact ⟨granted, shape, shaped, rfl, held⟩

end Command

end DocumentViews
