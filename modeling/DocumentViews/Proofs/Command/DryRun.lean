import DocumentViews.Proofs.Command.Watched
import DocumentViews.Proofs.Resolution.Chains

/-! Compiling foretells creating.
A compilation and a creation go through the same resolution. Where that fails, both fail alike
before any call on the database. Where it succeeds, the creation sends a fixed row of statements, of
which the last one is over the very select that the compilation shows; it goes through as long as
the database passes each call. -/
namespace DocumentViews

variable {σ : Type}

namespace View

theorem keywords_ofFlag (materialized : Bool) :
    keywords (.ofFlag materialized) =
      (if materialized then "MATERIALIZED " else "") ++ "VIEW " := by
  cases materialized <;> decide

theorem opening_eq : " (\"data\") AS SELECT row_to_json(\"root\") FROM (" =
    " (" ++ (Sql.quoteName Sql.dataColumn ++
      (") AS " ++ "SELECT row_to_json(\"root\") FROM (")) := by
  decide +kernel

/-- The statement that creates a view over a select, in full. -/
theorem createStatement_eq (name sql : String) (materialized : Bool) :
    createStatement (.ofFlag materialized) name (rowQuery sql) =
      "CREATE " ++ (if materialized then "MATERIALIZED " else "") ++ "VIEW " ++
        Sql.quoteName name ++ " (\"data\") AS SELECT row_to_json(\"root\") FROM (" ++ sql ++
        ") AS \"root\"" := by
  -- the opening stands for itself here, for the comparison of its parts would evaluate them
  have parts (opening : String) (same : opening =
      " (" ++ (Sql.quoteName Sql.dataColumn ++
        (") AS " ++ "SELECT row_to_json(\"root\") FROM ("))) :
      createStatement (.ofFlag materialized) name (rowQuery sql) =
        "CREATE " ++ (if materialized then "MATERIALIZED " else "") ++ "VIEW " ++
          Sql.quoteName name ++ opening ++ sql ++ ") AS \"root\"" := by
    subst same
    unfold createStatement rowQuery
    rw [keywords_ofFlag]
    generalize Sql.quoteName Sql.dataColumn = data
    simp only [String.append_assoc]
  exact parts _ opening_eq

end View

namespace Command

variable {context : Context σ} {collection : String}

/-- A creation that fails has no shape, and then nothing is on record, or one of its calls
did not pass. -/
theorem watched_create {db : Database σ}
    (granted : (context.access.decide collection .create).allowed = true)
    (reached : context.database = .ok db) (materialized : Bool) (start : σ) :
    Task.Triple (· = ⟨start, []⟩) ((Command.create collection materialized).run context.watched)
      (fun report state => ∃ shape, context.shapeOf collection = .ok shape ∧
        report =
          .created shape.collection (Sql.viewName collection) materialized shape.nestedNames ∧
        state.Logged (View.replacing (Sql.viewName collection) (Sql.compile shape) materialized))
      (fun failure state =>
        context.shapeOf collection = .error failure ∧ state = ⟨start, []⟩ ∨ ¬ state.AllPassed) := by
  have watches : context.watched.database = .ok db.watched := by rw [Context.watched, reached]; rfl
  let logs (shape : Shape) : Watched σ → Prop :=
    Watched.Logged (View.replacing (Sql.viewName collection) (Sql.compile shape) materialized)
  refine Task.Triple.ending (triple_create materialized logs ?_ ?_ ?_ ?_) ?_
  · intro failure refused
    cases (Context.permits_of_allowed granted).symm.trans refused
  · intro failure _ unshaped state same
    exact .inl ⟨unshaped, same⟩
  · intro error missed
    cases watches.symm.trans missed
  · intro shape other shaped found
    cases watches.symm.trans found
    apply ((View.logged_createOrReplace db _ _ _ _).starting _).failing fun _ _ balked =>
      .inr balked
    rintro state rfl
    rfl
  · rintro report state ⟨_, shape, shaped, rfl, logged⟩
    exact ⟨shape, shaped, rfl, logged⟩

end Command

theorem Watched.statements_of_logged {watched : Watched σ} {calls : List Catalog.Call}
    (logged : watched.Logged calls) :
    watched.statements = calls.filterMap Catalog.Call.statement? := by
  rw [← logged, List.filterMap_map]
  rfl

/-- Let every call that a creation makes on its database pass. Then the compilation foretells it.
Both fail with the same failure, and no call is on record; or both succeed with the same collection,
view and relations, nothing is on record of the compilation, and the last of the statements that the
creation has sent is over the select of the compilation. -/
theorem compilation_foretells_creation {context : Context σ} {collection : String} {db : Database σ}
    (reads : (context.access.decide collection .read).allowed = true)
    (creates : (context.access.decide collection .create).allowed = true)
    (reached : context.database = .ok db) (tree materialized : Bool) (world : World σ)
    (passes : ∀ exchange ∈ (Command.create collection materialized).exchanges context world,
      exchange.passed = true) :
    (∃ failure after last,
      (Command.compile collection tree).run context.watched world.watched = .error failure after ∧
      (Command.create collection materialized).run context.watched world.watched =
        .error failure last ∧
      after.state = ⟨world.state, []⟩ ∧ last.state = ⟨world.state, []⟩) ∨
    ∃ view relations sql shown after last,
      (Command.compile collection tree).run context.watched world.watched =
        .ok (.compiled collection view relations sql shown) after ∧
      (Command.create collection materialized).run context.watched world.watched =
        .ok (.created collection view materialized relations) last ∧
      after.state = ⟨world.state, []⟩ ∧
      last.state.statements =
        [Sql.resolveRowWithNested, Sql.resolveRow, View.dropStatement .plain view,
          View.dropStatement .materialized view,
          "CREATE " ++ (if materialized then "MATERIALIZED " else "") ++ "VIEW " ++
            Sql.quoteName view ++ " (\"data\") AS SELECT row_to_json(\"root\") FROM (" ++ sql ++
            ") AS \"root\""] := by
  have dry := @Command.triple_compile_allowed _ context.watched collection reads tree
    world.watched.state
  have real := Command.watched_create creates reached materialized world.state
  have goes {failure : Failure} {last : World (Watched σ)}
      (ran : (Command.create collection materialized).run context.watched world.watched =
        .error failure last) :
      context.shapeOf collection = .error failure ∧ last.state = ⟨world.state, []⟩ := by
    rw [Command.exchanges, ran] at passes
    exact (real.of_error rfl ran).resolve_right fun balked => balked passes
  cases compiled : (Command.compile collection tree).run context.watched world.watched with
  | error failure after =>
    obtain ⟨unshaped, untouched⟩ := dry.of_error rfl compiled
    cases created : (Command.create collection materialized).run context.watched world.watched with
    | error other last =>
      obtain ⟨same, unsent⟩ := goes created
      cases unshaped.symm.trans same
      exact .inl ⟨failure, after, last, rfl, rfl, untouched, unsent⟩
    | ok report last =>
      obtain ⟨shape, shaped, _⟩ := real.of_ok rfl created
      cases unshaped.symm.trans shaped
  | ok report after =>
    obtain ⟨shape, shaped, rfl, untouched⟩ := dry.of_ok rfl compiled
    have same : shape.collection = collection := Context.shapeOf_collection shaped
    cases created : (Command.create collection materialized).run context.watched world.watched with
    | error other last => cases shaped.symm.trans (goes created).1
    | ok report last =>
      obtain ⟨found, again, rfl, logged⟩ := real.of_ok rfl created
      cases shaped.symm.trans again
      refine .inr ⟨Sql.viewName collection, shape.nestedNames, Sql.compile shape,
        if tree then some shape else none, after, last, ?_, ?_, untouched, ?_⟩
      · rw [← same]
        rfl
      · rw [same]
      · rw [Watched.statements_of_logged logged, ← View.createStatement_eq]
        rfl

-- knows no view, so each drop misses its object
def viewless : Database Unit where
  execute sql _ :=
    (if (Text.afterStart? "DROP " sql.toList).isSome then .error (.undefinedRelation "no such view")
      else .ok (), ())
  query _ _ _ := (.ok [], ())
  viewKind _ _ := (.ok none, ())

theorem passing_viewless : viewless.Passing := by
  refine ⟨fun sql state => ?_, fun _ _ _ => rfl, fun _ _ => rfl⟩
  cases drops : (Text.afterStart? "DROP " sql.toList).isSome with
  | true => simp [viewless, drops, Task.failure?, Exchange.passed, DbError.missesObject]
  | false => simp [viewless, drops, Task.failure?, Exchange.passed]

def pagesContext : Context Unit where
  schema := .ok pagesScope.snapshot
  classify := pagesScope.classify
  policy := pagesScope.policy
  access := some ⟨false, [⟨"pages", .create⟩, ⟨"pages", .read⟩]⟩
  database := .ok viewless

theorem shapeOf_pages : pagesContext.shapeOf "pages" = .ok pagesShape := by
  have resolved : pagesScope.resolve.outcome = .ok pagesShape := by with_unfolding_all rfl
  show pagesScope.resolve.outcome.mapError _ = _
  rw [resolved]
  rfl

theorem compilation_foretells_creation_pages :
    ∃ after last,
      (Command.compile "pages" true).run pagesContext.watched ⟨⟨(), []⟩, []⟩ =
        .ok (.compiled "pages" "pages_view" ["author", "item"] (Sql.compile pagesShape)
          (some pagesShape)) after ∧
      (Command.create "pages" true).run pagesContext.watched ⟨⟨(), []⟩, []⟩ =
        .ok (.created "pages" "pages_view" true ["author", "item"]) last ∧
      last.state.statements =
        [Sql.resolveRowWithNested, Sql.resolveRow, View.dropStatement .plain "pages_view",
          View.dropStatement .materialized "pages_view",
          "CREATE " ++ "MATERIALIZED " ++ "VIEW " ++ Sql.quoteName "pages_view" ++
            " (\"data\") AS SELECT row_to_json(\"root\") FROM (" ++ Sql.compile pagesShape ++
            ") AS \"root\""] := by
  obtain ⟨noted, compiled⟩ :=
    @Command.run_compile_of_shape _ pagesContext.watched "pages" (by decide) _ shapeOf_pages true
      ⟨⟨(), []⟩, []⟩
  obtain ⟨failure, after, last, failed, -⟩ |
    ⟨view, relations, sql, shown, after, last, dry, real, -, stated⟩ :=
    @compilation_foretells_creation _ pagesContext "pages" viewless (by decide) (by decide)
      rfl true true ⟨(), []⟩ (Command.passed_of_passing rfl passing_viewless "pages" true _)
  · cases compiled.symm.trans failed
  · cases compiled.symm.trans dry
    exact ⟨noted, last, compiled, real, stated⟩

end DocumentViews
