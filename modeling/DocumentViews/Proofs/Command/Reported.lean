import DocumentViews.Proofs.Command.DryRun
import DocumentViews.Proofs.Sql.SelectList

/-! The relations that commands report.
A compilation and a creation report the nested fields of a shape, and write its select. Both lists
are the same: the columns of the select, read back from its text, are all columns of the table and
then one for each relation. -/
namespace DocumentViews

variable {σ : Type}

/-- A creation that succeeds has sent the statement for the view last. -/
theorem View.createOrReplace_ok (db : Database σ) (name collection sql : String)
    (materialized : Bool) :
    Task.Triple (fun _ => True) (createOrReplace db name collection sql materialized)
      (fun view state => view = ⟨name, collection, materialized, rowQuery sql⟩ ∧ ∃ before,
        db.execute (createStatement (.ofFlag materialized) name (rowQuery sql)) before =
          (.ok (), state))
      (fun _ _ => True) := by
  apply triple_createOrReplace (.any _) (.any _) (.any _)
  intro existed
  apply triple_execute
  intro before _
  cases ran : db.execute (createStatement (.ofFlag materialized) name (rowQuery sql)) before with
  | mk answer state =>
    cases answer with
    | ok value => exact ⟨before, ran⟩
    | error error => trivial

namespace Command

variable {context : Context σ} {collection : String} {world after : World σ} {report : Report}

theorem compile_ok {tree : Bool}
    (ran : (Command.compile collection tree).run context world = .ok report after) :
    ∃ shape, report = compiled shape tree := by
  have compiles := @triple_compile _ context collection (fun _ => True) (fun _ _ => True) tree
    (fun _ _ _ _ => trivial) (fun _ _ _ _ _ => trivial)
  obtain ⟨_, shape, _, reported, _⟩ := compiles.of_ok trivial ran
  exact ⟨shape, reported⟩

theorem create_ok {materialized : Bool}
    (ran : (Command.create collection materialized).run context world = .ok report after) :
    ∃ (db : Database σ) (shape : Shape) (before : σ), context.database = .ok db ∧
      report = .created shape.collection (Sql.viewName collection) materialized shape.nestedNames ∧
      db.execute (View.createStatement (.ofFlag materialized) (Sql.viewName collection)
        (View.rowQuery (Sql.compile shape))) before = (.ok (), after.state) := by
  have creates := @triple_create _ context collection (fun _ => True) (fun _ _ => True) materialized
    (fun shape state => ∃ db before, context.database = .ok db ∧
      db.execute (View.createStatement (.ofFlag materialized) (Sql.viewName collection)
        (View.rowQuery (Sql.compile shape))) before = (.ok (), state))
    (fun _ _ _ _ => trivial) (fun _ _ _ _ _ => trivial) (fun _ _ _ _ => trivial)
    fun shape db _ reached => (View.createOrReplace_ok db _ _ _ _).ending
      fun view state ⟨made, before, sent⟩ => ⟨made, db, before, reached, sent⟩
  obtain ⟨_, shape, _, reported, db, before, reached, sent⟩ := creates.of_ok trivial ran
  exact ⟨db, shape, before, reached, reported, sent⟩

end Command

/-- The columns of the select of a shape, as they stand in its text, are all columns of the table
and then one for each nested field, and so it is for every select of whole rows in it, any number of
maps deep. So what a compilation reports are the nested columns of the select that it shows, and
what a creation reports are those of the select that its view is over. -/
theorem reported_relations_are_columns (shape : Shape) :
    (∃ items, Sql.selectList (Sql.compile shape) = some items ∧
      Sql.Lists items shape.collection shape.nestedNames ∧
      Sql.compile shape = "SELECT " ++ ", ".intercalate items ++ " FROM " ++
        Sql.quoteName shape.collection) ∧
    (∀ depth, ∃ texts, Sql.decoded depth (Sql.compile shape) = some texts ∧
      List.Forall₂ Sql.ListsNested texts (shape.mapped depth)) ∧
    (∀ (σ : Type) (context : Context σ) (collection : String) (tree : Bool)
        (world after : World σ) (report : Report),
      (Command.compile collection tree).run context world = .ok report after →
        ∃ holder view relations sql shown items,
          report = .compiled holder view relations sql shown ∧
          Sql.selectList sql = some items ∧ Sql.Lists items holder relations) ∧
    ∀ (σ : Type) (context : Context σ) (collection : String) (materialized : Bool)
        (world after : World σ) (report : Report),
      (Command.create collection materialized).run context world = .ok report after →
        ∃ db holder view relations sql items state, context.database = .ok db ∧
          report = .created holder view materialized relations ∧
          db.execute (View.createStatement (.ofFlag materialized) view (View.rowQuery sql)) state =
          (.ok (), after.state) ∧ Sql.selectList sql = some items ∧
          Sql.Lists items holder relations := by
  refine ⟨?_, Sql.listsNested_decoded shape, ?_, ?_⟩
  · exact ⟨_, Sql.selectList_compile shape, Sql.lists_listOf shape, Sql.compile_eq_listOf shape⟩
  · intro σ context collection tree world after report ran
    obtain ⟨found, rfl⟩ := Command.compile_ok ran
    exact ⟨_, _, _, _, _, _, rfl, Sql.selectList_compile found, Sql.lists_listOf found⟩
  · intro σ context collection materialized world after report ran
    obtain ⟨db, found, state, reached, rfl, executed⟩ := Command.create_ok ran
    exact ⟨db, _, _, _, _, _, state, reached, rfl, executed, Sql.selectList_compile found,
      Sql.lists_listOf found⟩

/-- Names that hold all that the reader looks for, and a compilation whose relations are the
columns it shows. -/
theorem reported_relations_are_columns_hostile :
    let target : Shape :=
      .mk "b\", (FROM" [.relation "c) AS \"" ⟨.oneToMany, ⟨"", ",", "("⟩, some "FROM"⟩ (.mk ")" [])]
    let shape : Shape :=
      .mk "a\".*, x FROM (" [.relation "y, z" ⟨.manyToOne, ⟨"", ")", "'"⟩, none⟩ target,
      .scalar "id", .polymorphic "'FROM'" "," [target, .mk "')" []]]
    (∃ items, Sql.selectList (Sql.compile shape) = some items ∧ items.length = 3 ∧
      Sql.Lists items "a\".*, x FROM (" ["y, z", "'FROM'"]) ∧
    (∃ texts, Sql.decoded 1 (Sql.compile shape) = some texts ∧
      List.Forall₂ Sql.ListsNested texts [target]) ∧
    ∃ report after items, (Command.compile "pages" false).run pagesContext ⟨(), []⟩ =
      .ok report after ∧ report = .compiled "pages" "pages_view" ["author", "item"]
      (Sql.compile pagesShape) none ∧ Sql.selectList (Sql.compile pagesShape) = some items ∧
      Sql.Lists items "pages" ["author", "item"] := by
  intro target shape
  obtain ⟨⟨items, read, lists, _⟩, below, _⟩ := reported_relations_are_columns shape
  have counted : items.length = 3 := by
    obtain ⟨columns, rfl, paired⟩ := lists
    rw [List.length_cons, paired.length_eq]
    rfl
  obtain ⟨after, compiled⟩ :=
    Command.run_compile_of_shape (by decide) shapeOf_pages false (World.mk () [])
  obtain ⟨_, _, reported, _⟩ := reported_relations_are_columns pagesShape
  obtain ⟨holder, view, relations, sql, shown, found, same, again, columns⟩ :=
    reported _ _ _ _ _ _ _ compiled
  cases same
  exact ⟨⟨items, read, counted, lists⟩, below 1, _, _, found, compiled, rfl, again, columns⟩

end DocumentViews
