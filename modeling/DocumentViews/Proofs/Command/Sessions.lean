import DocumentViews.Proofs.Command.Stages
import DocumentViews.Proofs.View.Outcomes

/-! Sessions follow a ledger of views.
The ledger is a map from names to kinds and knows no statements, texts or errors of a
database. It says for each command what becomes of the map and what the caller is told. On any
view store, from any views, a session of any commands tells the same and leaves the same
views, command by command. -/
namespace DocumentViews

variable {σ : Type}

/-- What a command says it did; the documents that a read found are left out. -/
inductive Answer where
  | listed
  | created (view : String) (kind : ViewKind)
  | refreshed (view : String)
  | dropped (view : String) (existed : Bool)
  | compiled (collection : String)
  | read
deriving DecidableEq

def Report.answer : Report → Answer
  | .routes => .listed
  | .created _ view materialized _ => .created view (.ofFlag materialized)
  | .refreshed view => .refreshed view
  | .dropped view existed => .dropped view existed
  | .compiled collection _ _ _ _ => .compiled collection
  | .rows _ _ => .read
  | .document _ => .read

namespace Ledger

/-- What a command answers and which views it leaves, unless it fails. -/
def attempt (context : Context σ) (views : NameMap ViewKind) :
    Command → Except Failure (Answer × NameMap ViewKind)
  | .routes => return (.listed, views)
  | .create collection materialized => do
    context.permits collection .create
    let _ ← context.shapeOf collection
    let kind := ViewKind.ofFlag materialized
    return (.created (Sql.viewName collection) kind, views.insert (Sql.viewName collection) kind)
  | .refresh collection => do
    context.permits collection .create
    if views.get? (Sql.viewName collection) = some .materialized then
      return (.refreshed (Sql.viewName collection), views)
    else throw (.view (.notMaterialized (Sql.viewName collection)))
  | .drop collection => do
    context.permits collection .create
    return (.dropped (Sql.viewName collection) (views.contains (Sql.viewName collection)),
      views.erase (Sql.viewName collection))
  | .compile collection _ => do
    context.permits collection .read
    let shape ← context.shapeOf collection
    return (.compiled shape.collection, views)
  | .all collection | .find collection _ _ | .findOne collection _ => do
    context.permits collection .read
    (Reading.readable views collection).mapError .reading
    return (.read, views)

def settle (views : NameMap ViewKind) :
    Except Failure (Answer × NameMap ViewKind) → Except Failure Answer × NameMap ViewKind
  | .ok (answer, left) => (.ok answer, left)
  | .error failure => (.error failure, views)

def step (context : Context σ) (views : NameMap ViewKind) (command : Command) :
    Except Failure Answer × NameMap ViewKind :=
  settle views (attempt context views command)

def run (context : Context σ) (views : NameMap ViewKind) :
    List Command → List (Except Failure Answer × NameMap ViewKind)
  | [] => []
  | command :: rest => step context views command :: run context (step context views command).2 rest

end Ledger

namespace ViewStore

/-- A session as it is seen from outside: each command's answer, with the views after it. A command
that fails does not end the session. -/
def session (store : ViewStore σ) (context : Context σ) (world : World σ) :
    List Command → List (Except Failure Answer × NameMap ViewKind)
  | [] => []
  | command :: rest =>
    match command.run context world with
    | .ok report after =>
      (.ok report.answer, store.views after.state) :: session store context after rest
    | .error failure after =>
      (.error failure, store.views after.state) :: session store context after rest

/-- The task does to a store what the outcome on the ledger says. -/
def Follows (store : ViewStore σ) (task : Task σ Failure Report) (views : NameMap ViewKind)
    (outcome : Except Failure (Answer × NameMap ViewKind)) : Prop :=
  Task.Triple (store.Stocked views) task
    (fun report state => ∃ left, outcome = .ok (report.answer, left) ∧ store.Stocked left state)
    (fun failure state => outcome = .error failure ∧ store.Stocked views state)

end ViewStore

namespace Command

variable {store : ViewStore σ} {context : Context σ} {views : NameMap ViewKind} {command : Command}
  {collection : String}

theorem attempt_refused {action : Action} (needs : command.need = some (collection, action))
    {failure : Failure} (refused : context.permits collection action = .error failure) :
    Ledger.attempt context views command = .error failure := by
  cases command <;> cases needs <;> simp only [Ledger.attempt, refused] <;> rfl

theorem follows_permitted {action : Action} (needs : command.need = some (collection, action))
    (granted : context.permits collection action = .ok () →
      store.Follows (command.perform context) views (Ledger.attempt context views command)) :
    store.Follows (command.run context) views (Ledger.attempt context views command) :=
  triple_run needs (fun _ refused _ kept => ⟨attempt_refused needs refused, kept⟩) granted

theorem follows_read {α : Type} {task : Task σ ReadError α} {report : α → Report}
    (reads : Task.Triple (store.Stocked views) task
      (fun _ state => Reading.readable views collection = .ok () ∧ store.Stocked views state)
      (fun error state => Reading.readable views collection = .error error ∧
        store.Stocked views state))
    (reports : ∀ found, (report found).answer = .read) :
    store.Follows (task.widen .reading >>= fun found => pure (report found)) views
      ((Reading.readable views collection).mapError Failure.reading >>=
        fun _ => .ok (.read, views)) := by
  apply Task.Triple.returning
  apply Task.Triple.widen
  apply reads.conseq
  · rintro found state ⟨readable, kept⟩
    exact ⟨views, by rw [readable, reports]; rfl, kept⟩
  · rintro error state ⟨unreadable, kept⟩
    exact ⟨by rw [unreadable]; rfl, kept⟩

theorem stocked_create (reached : context.database = .ok store.toDatabase) (materialized : Bool) :
    Task.Triple (store.Stocked views) ((Command.create collection materialized).run context)
      (fun report state => context.permits collection .create = .ok () ∧
        ∃ shape, context.shapeOf collection = .ok shape ∧
          report = .created shape.collection (Sql.viewName collection) materialized
          shape.nestedNames ∧
          store.Stocked (views.insert (Sql.viewName collection) (.ofFlag materialized)) state)
      (fun failure state =>
        Ledger.attempt context views (.create collection materialized) = .error failure ∧
          store.Stocked views state) := by
  apply triple_create
  · intro failure refused state kept
    exact ⟨attempt_refused rfl refused, kept⟩
  · intro failure granted unshaped state kept
    exact ⟨by simp only [Ledger.attempt, granted, unshaped]; rfl, kept⟩
  · intro error missed
    cases reached.symm.trans missed
  · intro shape db shaped found
    cases reached.symm.trans found
    exact View.stocked_createOrReplace _ _ _ _

/-- One command on a store does what it does to the ledger. -/
theorem run_follows (reached : context.database = .ok store.toDatabase) (views : NameMap ViewKind)
    (command : Command) :
    store.Follows (command.run context) views (Ledger.attempt context views command) := by
  cases command with
  | routes => exact .pure fun state kept => ⟨views, rfl, kept⟩
  | create collection materialized =>
    apply (stocked_create reached materialized).ending
    rintro report state ⟨granted, shape, shaped, rfl, kept⟩
    exact ⟨_, by simp only [Ledger.attempt, granted, shaped]; rfl, kept⟩
  | refresh collection =>
    apply follows_permitted rfl
    intro granted
    simp only [Ledger.attempt, granted]
    apply Context.triple_reached reached
    apply Task.Triple.returning
    apply Task.Triple.widen
    apply (View.stocked_refresh _).conseq
    · rintro - state ⟨there, kept⟩
      exact ⟨views, if_pos there, kept⟩
    · rintro error state ⟨other, rfl, kept⟩
      exact ⟨if_neg other, kept⟩
  | drop collection =>
    apply follows_permitted rfl
    intro granted
    simp only [Ledger.attempt, granted]
    apply Context.triple_reached reached
    apply Task.Triple.returning
    apply Task.Triple.widen
    apply (View.stocked_drop _).ending
    rintro existed state ⟨rfl, kept⟩
    exact ⟨_, rfl, kept⟩
  | compile collection tree =>
    refine Task.Triple.ending (triple_compile tree ?_ ?_) ?_
    · intro failure refused state kept
      exact ⟨attempt_refused rfl refused, kept⟩
    · intro failure granted unshaped state kept
      exact ⟨by simp only [Ledger.attempt, granted, unshaped]; rfl, kept⟩
    · rintro report state ⟨granted, shape, shaped, rfl, kept⟩
      exact ⟨_, by simp only [Ledger.attempt, granted, shaped]; rfl, kept⟩
  | all collection =>
    apply follows_permitted rfl
    intro granted
    simp only [Ledger.attempt, granted]
    apply Context.triple_reached reached
    exact follows_read (Reading.stocked_list _ _ _) fun _ => rfl
  | find collection filters page =>
    apply follows_permitted rfl
    intro granted
    simp only [Ledger.attempt, granted]
    apply Context.triple_reached reached
    exact follows_read (Reading.stocked_list _ _ _) fun _ => rfl
  | findOne collection filters =>
    apply follows_permitted rfl
    intro granted
    simp only [Ledger.attempt, granted]
    apply Context.triple_reached reached
    exact follows_read (Reading.stocked_findOne _ _) fun _ => rfl

end Command

/-- On a view store every session goes as on the ledger, whatever the views are at first. -/
theorem sessions_follow_ledger (store : ViewStore σ) (context : Context σ)
    (reached : context.database = .ok store.toDatabase) (world : World σ)
    (intact : store.Intact world.state) (commands : List Command) :
    store.session context world commands =
      Ledger.run context (store.views world.state) commands := by
  -- what a command leaves, failed or not, is where the rest of the session starts
  induction commands generalizing world with
  | nil => rfl
  | cons command rest ih =>
    have follows := Command.run_follows reached (store.views world.state) command
    rw [ViewStore.session, Ledger.run, Ledger.step]
    cases ran : command.run context world with
    | ok report after =>
      obtain ⟨left, attempted, kept⟩ := follows.of_ok ⟨intact, rfl⟩ ran
      rw [attempted, Ledger.settle, ← kept.views, ← ih after kept.intact]
    | error failure after =>
      obtain ⟨attempted, kept⟩ := follows.of_error ⟨intact, rfl⟩ ran
      rw [attempted, Ledger.settle, ← kept.views, ← ih after kept.intact]

def notesContext : Context Catalog where
  schema := .ok
    { collections := .ofList [("notes", ⟨.ofList [("id", ⟨false, []⟩)]⟩)], relations := [] }
  classify := .standard
  policy := .standard
  access := some ⟨false, [⟨"notes", .create⟩, ⟨"notes", .read⟩, ⟨"a\"b", .create⟩]⟩
  database := .ok Catalog.database

def notesCatalog : Catalog :=
  { Catalog.empty with views := .ofList [("notes_view", .materialized), ("a\"b_view", .plain)] }

theorem sessions_follow_ledger_notes :
    notesContext.database = .ok Catalog.store.toDatabase ∧ Catalog.store.Intact notesCatalog ∧
      (Catalog.store.session notesContext ⟨notesCatalog, []⟩
        [.refresh "notes", .create "notes" false, .refresh "notes", .drop "a\"b", .drop "a\"b",
          .all "notes", .drop "notes", .findOne "notes" [], .create "people" true]).map
        (fun seen => (seen.1, seen.2.entries)) =
      [(.ok (.refreshed "notes_view"), [("a\"b_view", .plain), ("notes_view", .materialized)]),
       (.ok (.created "notes_view" .plain), [("a\"b_view", .plain), ("notes_view", .plain)]),
       (.error (.view (.notMaterialized "notes_view")),
         [("a\"b_view", .plain), ("notes_view", .plain)]),
       (.ok (.dropped "a\"b_view" true), [("notes_view", .plain)]),
       (.ok (.dropped "a\"b_view" false), [("notes_view", .plain)]),
       (.ok .read, [("notes_view", .plain)]),
       (.ok (.dropped "notes_view" true), []),
       (.error (.reading (.viewNotFound "notes_view")), []),
       (.error (.denied ⟨"no create permission on people"⟩), [])] := by
  refine ⟨rfl, rfl, ?_⟩
  rw [sessions_follow_ledger Catalog.store notesContext rfl ⟨notesCatalog, []⟩ rfl]
  with_unfolding_all rfl

end DocumentViews
