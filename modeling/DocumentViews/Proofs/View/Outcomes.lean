import DocumentViews.Proofs.Database.ViewStore
import DocumentViews.Proofs.View.Triples

/-! How view operations and reads end on a view store.
Each operation has one triple: started where these are the views, it ends as it says and leaves
those views. Replacing and dropping send the statement for either kind; whichever kind is there,
one of the two takes the view away and the failure of the other is ignored. -/
namespace DocumentViews

variable {σ : Type} {store : ViewStore σ} {views : NameMap ViewKind}

namespace ViewStore

/-- The state has no orders to fail, and these are its views. -/
structure Stocked (store : ViewStore σ) (views : NameMap ViewKind) (state : σ) : Prop where
  intact : store.Intact state
  views : store.views state = views

namespace Stocked

variable {state : σ} {failed : DbError → σ → Prop}

theorem execute_changing (stocked : store.Stocked views state) {sql : String}
    {effect : Catalog.Effect} (read : Catalog.effect? sql = some effect) {post : Unit → σ → Prop}
    (ends : ∀ answer left after, Catalog.Rule views effect answer left → store.Stocked left after →
      Task.Settled post failed (answer, after)) :
    Task.Settled post failed (store.execute sql state) := by
  have rule := store.execute_rule stocked.intact read
  rw [stocked.views] at rule
  exact ends _ _ _ rule ⟨store.execute_intact stocked.intact sql, rfl⟩

theorem execute_quiet (stocked : store.Stocked views state) {sql : String}
    (quiet : Catalog.effect? sql = none ∧ Text.afterStart? "REFRESH " sql.toList = none) :
    Task.Settled (fun _ => store.Stocked views) failed (store.execute sql state) := by
  obtain ⟨ran, left⟩ := store.execute_other stocked.intact quiet.1 quiet.2
  exact .of_ok ran ⟨store.execute_intact stocked.intact sql, left.trans stocked.views⟩

theorem viewKind (stocked : store.Stocked views state) (name : String) :
    Task.Settled (fun kind after => kind = views.get? name ∧ store.Stocked views after) failed
      (store.viewKind name state) := by
  obtain ⟨intact, left⟩ := store.viewKind_intact stocked.intact name
  have found := store.viewKind_found stocked.intact name
  rw [stocked.views] at found
  exact .of_ok found ⟨rfl, intact, left.trans stocked.views⟩

/-- A query finds documents exactly if the view that it reads is there. -/
theorem query (stocked : store.Stocked views state) (sql : String) (params : List Param) :
    Task.Settled
      (fun _ after => views.contains (Catalog.source sql) = true ∧ store.Stocked views after)
      (fun error after => views.contains (Catalog.source sql) = false ∧
        (∃ message, error = .undefinedRelation message) ∧ store.Stocked views after)
      (store.query sql params state) := by
  obtain ⟨intact, left⟩ := store.query_intact stocked.intact sql params
  have kept : store.Stocked views (store.query sql params state).2 :=
    ⟨intact, left.trans stocked.views⟩
  cases there : views.contains (Catalog.source sql) with
  | true =>
    obtain ⟨rows, ran⟩ := store.query_found stocked.intact (stocked.views.symm ▸ there) params
    exact .of_ok ran ⟨rfl, kept⟩
  | false =>
    obtain ⟨message, ran⟩ := store.query_missing stocked.intact (stocked.views.symm ▸ there) params
    exact .of_error ran ⟨rfl, ⟨message, rfl⟩, kept⟩

end Stocked

end ViewStore

namespace View

variable {failed : ViewError → σ → Prop}

theorem stocked_quiet {sql : String}
    (quiet : Catalog.effect? sql = none ∧ Text.afterStart? "REFRESH " sql.toList = none) :
    Task.Triple (store.Stocked views) (execute store.toDatabase sql)
      (fun _ => store.Stocked views) failed :=
  triple_execute fun _ stocked => stocked.execute_quiet quiet

theorem stocked_createStatement (kind : ViewKind) {name : String} (query : String)
    (free : views.get? name = none) :
    Task.Triple (store.Stocked views) (execute store.toDatabase (createStatement kind name query))
      (fun _ => store.Stocked (views.insert name kind)) failed := by
  apply triple_execute
  intro state stocked
  apply stocked.execute_changing (Catalog.effect?_createStatement kind name query)
  intro answer left after rule kept
  cases rule with
  | created => exact kept
  | taken error there => cases free.symm.trans there

/-- A view goes by the statement for its kind; the other statement leaves it, and passes. -/
theorem stocked_dropStatement (kind : ViewKind) (name : String) :
    Task.Triple (store.Stocked views) (executeLenient store.toDatabase (dropStatement kind name))
      (fun _ => store.Stocked (if views.get? name = some kind then views.erase name else views))
      failed := by
  apply triple_executeLenient
  intro state stocked
  apply stocked.execute_changing (Catalog.effect?_dropStatement kind name)
  intro answer left after rule kept
  cases rule with
  | dropped there =>
    rw [if_pos there]
    exact kept
  | missing free =>
    rw [if_neg (by simp [free])]
    exact kept
  | otherKind message there other =>
    -- the only failure that there can be, and it counts as a missing object
    rw [if_neg (by simp [there, other])]
    exact kept

theorem stocked_viewKind (name : String) :
    Task.Triple (store.Stocked views) ((Task.call (store.viewKind name)).widen .database)
      (fun kind state => kind = views.get? name ∧ store.Stocked views state) failed :=
  triple_viewKind fun _ stocked => stocked.viewKind name

/-- After the statements for both kinds the name is free, whatever was there. -/
theorem erase_either (views : NameMap ViewKind) (name : String) :
    (let middle := if views.get? name = some .plain then views.erase name else views
     if middle.get? name = some .materialized then middle.erase name else middle) =
       views.erase name := by
  cases there : views.get? name with
  | none => simp [there, NameMap.erase_of_absent there]
  | some kind =>
    cases kind with
    | plain => simp
    | materialized => simp [there]

theorem stocked_dropExisting (name : String) :
    Task.Triple (store.Stocked views) (dropExisting store.toDatabase name)
      (fun existed state => existed = views.contains name ∧ store.Stocked (views.erase name) state)
      failed := by
  rw [← erase_either]
  apply triple_dropExisting (stocked_viewKind name)
  · intro kind
    apply Task.Triple.lift
    intro found
    exact (stocked_dropStatement .plain name).ending fun _ _ kept => And.intro found kept
  · intro kind
    apply Task.Triple.lift
    rintro rfl
    exact (stocked_dropStatement .materialized name).ending fun _ _ kept => ⟨rfl, kept⟩

theorem stocked_createOrReplace (name collection sql : String) (materialized : Bool) :
    Task.Triple (store.Stocked views)
      (createOrReplace store.toDatabase name collection sql materialized)
      (fun view state => view = ⟨name, collection, materialized, rowQuery sql⟩ ∧
        store.Stocked (views.insert name (.ofFlag materialized)) state) failed := by
  rw [← NameMap.insert_erase]
  apply triple_createOrReplace (stocked_quiet Catalog.quiet_resolveRowWithNested)
    (stocked_quiet Catalog.quiet_resolveRow) (stocked_dropExisting name)
  intro existed
  exact .lift fun _ => stocked_createStatement _ _ (by simp)

theorem stocked_refresh (name : String) :
    Task.Triple (store.Stocked views) (refresh store.toDatabase name)
      (fun _ state => views.get? name = some .materialized ∧ store.Stocked views state)
      (fun error state => views.get? name ≠ some .materialized ∧ error = .notMaterialized name ∧
        store.Stocked views state) := by
  apply (stocked_viewKind name).bind
  intro kind
  apply Task.Triple.lift
  rintro rfl
  split
  · rename_i there
    have refreshed : Task.Triple (store.Stocked views)
        (execute store.toDatabase (refreshStatement name)) (fun _ => store.Stocked views)
        (fun error state => views.get? name ≠ some .materialized ∧ error = .notMaterialized name ∧
          store.Stocked views state) := by
      apply triple_execute
      intro state stocked
      apply stocked.execute_changing (Catalog.effect?_refreshStatement name)
      intro answer left after rule kept
      cases rule with
      | refreshed => exact kept
      | unrefreshable other => exact absurd there other
    exact (refreshed.bind fun _ => .log _).ending fun _ _ kept => ⟨there, kept⟩
  · rename_i other
    exact .throw fun state stocked => ⟨other, rfl, stocked⟩

theorem stocked_drop (name : String) :
    Task.Triple (store.Stocked views) (drop store.toDatabase name)
      (fun existed state => existed = views.contains name ∧ store.Stocked (views.erase name) state)
      failed := by
  apply (stocked_dropExisting name).bind
  intro existed
  cases existed with
  | false => exact .pure fun _ held => held
  | true =>
    apply (Task.Triple.log _).bind
    rintro -
    exact .pure fun _ held => held

end View

namespace Reading

/-- What a read needs of the views: a plain name, and a view of that name. -/
def readable (views : NameMap ViewKind) (collection : String) : Except ReadError Unit :=
  if Sql.isPlain collection then
    if views.contains (Sql.viewName collection) then .ok ()
    else .error (.viewNotFound (Sql.viewName collection))
  else .error (.invalidName collection)

theorem stocked_list (collection : String) (filters : Filters) (page : Page) :
    Task.Triple (store.Stocked views) (list store.toDatabase collection filters page)
      (fun _ state => readable views collection = .ok () ∧ store.Stocked views state)
      (fun error state => readable views collection = .error error ∧
        store.Stocked views state) := by
  unfold list readable
  by_cases plain : Sql.isPlain collection
  · simp only [plain, if_true]
    apply Task.Triple.widen
    apply Task.Triple.call
    intro state stocked
    have settled := stocked.query (select (Sql.viewName collection) filters page).sql
      (select (Sql.viewName collection) filters page).params
    rw [Catalog.source_select] at settled
    generalize store.query _ _ state = outcome at settled
    cases outcome with
    | mk answer after =>
      cases answer with
      | ok rows =>
        obtain ⟨there, kept⟩ := settled
        exact ⟨if_pos there, kept⟩
      | error error =>
        obtain ⟨absent, ⟨message, rfl⟩, kept⟩ := settled
        exact ⟨if_neg (by simp [absent]), kept⟩
  · simp only [plain, Bool.false_eq_true, if_false]
    exact .throw fun state stocked => ⟨rfl, stocked⟩

theorem stocked_findOne (collection : String) (filters : Filters) :
    Task.Triple (store.Stocked views) (findOne store.toDatabase collection filters)
      (fun _ state => readable views collection = .ok () ∧ store.Stocked views state)
      (fun error state => readable views collection = .error error ∧ store.Stocked views state) :=
  .returning (stocked_list collection filters (Page.first 1))

end Reading

end DocumentViews
