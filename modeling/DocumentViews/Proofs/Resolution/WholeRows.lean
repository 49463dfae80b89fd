import DocumentViews.Proofs.Resolution.Keys
import DocumentViews.Proofs.Resolution.Routing
import DocumentViews.Proofs.Sql.RowCalls

/-! When the calls on rows in a statement are on whole rows.
The name that a call is handed means the row only if no column of the row has that name. For a
resolved shape the columns are the fields of its nodes, so it can be said exactly when all the
calls in the statement and in its maps are on whole rows. The names are not chosen apart from
the fields: a field of the right name, at the root or at a joined target, takes the place of
its row. The routines that the selects in maps are handed to make calls on rows of their own,
which are not looked at. -/
namespace DocumentViews

namespace Sql.RowCall

def columns (snapshot : Snapshot) (call : RowCall) : List String :=
  ((snapshot.collection? call.table).map Collection.columns).getD [] ++ call.given

/-- The name that the call is handed is that of its source and of no column. -/
def Whole (snapshot : Snapshot) (call : RowCall) : Prop :=
  call.argument = call.source ∧ call.argument ∉ call.columns snapshot

end Sql.RowCall

/-- The calls on rows in a statement, and those in the selects that it carries in maps at every
depth, are on whole rows. Nothing is said of the calls that the installed routines make. -/
def Snapshot.WholeRows (snapshot : Snapshot) (statement : String) : Prop :=
  ∀ depth, ∃ texts, Sql.decoded depth statement = some texts ∧
    ∀ sql ∈ texts, ∃ calls, Sql.rowCalls sql = some calls ∧ ∀ call ∈ calls, call.Whole snapshot

variable {scope : Scope} {shape : Shape}

theorem Collection.mem_columns_iff (collection : Collection) (name : String) :
    name ∈ collection.columns ↔ ∃ info, collection.fields.get? name = some info ∧
      info.virtual = false := by
  constructor
  · intro member
    obtain ⟨entry, held, rfl⟩ := List.mem_map.mp member
    obtain ⟨held, real⟩ := List.mem_filter.mp held
    exact ⟨entry.2, (NameMap.mem_entries_iff _ entry).mp held, by simpa using real⟩
  · rintro ⟨info, found, real⟩
    have held := (NameMap.mem_entries_iff _ (name, info)).mpr found
    exact List.mem_map.mpr ⟨(name, info), List.mem_filter.mpr ⟨held, by simp [real]⟩, rfl⟩

theorem Visited.mem_columns_on {above : List String} {node : Shape} (h : Visited scope above node)
    (handed name : String) :
    name ∈ (Sql.RowCall.on handed node).columns scope.snapshot ↔
      name ∈ node.fields.map Field.name := by
  obtain ⟨collection, known, shows⟩ := h.hasKeys
  have parts : (Sql.RowCall.on handed node).columns scope.snapshot = collection.columns ++
      node.nestedNames := by
    simp [Sql.RowCall.columns, Sql.RowCall.on, known]
  rw [parts, List.mem_append, collection.mem_columns_iff]
  constructor
  · rintro (⟨info, found, real⟩ | nests)
    · exact shows.complete name info found real
    · obtain ⟨field, held, rfl⟩ := List.mem_map.mp nests
      exact List.mem_map_of_mem (List.mem_filter.mp held).1
  · intro member
    obtain ⟨field, held, rfl⟩ := List.mem_map.mp member
    cases field with
    | scalar column => exact .inl (shows.columns column held)
    | relation column link target =>
      exact .inr (List.mem_map_of_mem (List.mem_filter.mpr ⟨held, rfl⟩))
    | polymorphic column discriminant targets =>
      exact .inr (List.mem_map_of_mem (List.mem_filter.mpr ⟨held, rfl⟩))

theorem Visited.whole_on {above : List String} {node : Shape} (h : Visited scope above node)
    (handed : String) :
    (Sql.RowCall.on handed node).Whole scope.snapshot ↔ handed ∉ node.fields.map Field.name := by
  rw [← h.mem_columns_on handed]
  exact and_iff_right rfl

namespace Shape

theorem Joined.node {node : Shape} (h : shape.Joined node) : ∃ above, shape.Node above node := by
  induction h with
  | self => exact ⟨[], .root⟩
  | join _ member ih =>
    obtain ⟨above, reached⟩ := ih
    exact ⟨_, reached.step member (.head _)⟩

theorem Joined.from {node target : Shape} {name : String} {link : Link}
    (member : .relation name link target ∈ shape.fields) (h : target.Joined node) :
    shape.Joined node := by
  induction h with
  | self => exact .join .self member
  | join _ inner ih => exact .join ih inner

theorem Joined.rowsCalled {node : Shape} (h : shape.Joined node) :
    Sql.rowsCalled node ⊆ Sql.rowsCalled shape := by
  refine h.subset fun {node} {_} {_} {_} member call made => ?_
  rw [Sql.rowsCalled_eq, Sql.rowsCalledByFields_eq]
  exact List.mem_flatMap.mpr ⟨_, member, .tail _ made⟩

end Shape

namespace Sql

def CallJoined (shape : Shape) (call : RowCall) : Prop :=
  ∃ node field link target, shape.Joined node ∧ .relation field link target ∈ node.fields ∧
    call = .on (nestedName node.collection field) target

mutual
theorem joined_of_called : (shape : Shape) → {call : RowCall} → call ∈ rowsCalled shape →
    CallJoined shape call
  | .mk collection fields, _, member =>
    joined_of_calledByFields (.mk collection fields) fields (fun _ held => held) member

theorem joined_of_calledByFields (holder : Shape) :
    (fields : List Field) → (∀ field ∈ fields, field ∈ holder.fields) →
    {call : RowCall} → call ∈ rowsCalledByFields holder.collection fields → CallJoined holder call
  | [], _, _, member => by cases member
  | .scalar _ :: rest, part, _, member =>
    joined_of_calledByFields holder rest (fun field held => part field (.tail _ held)) member
  | .relation name link target :: rest, part, _, member => by
    have held := part _ (.head _)
    rcases List.mem_cons.mp member with rfl | below
    · exact ⟨holder, name, link, target, .self, held, rfl⟩
    rcases List.mem_append.mp below with inner | later
    · obtain ⟨node, field, link, rows, joined, found⟩ := joined_of_called target inner
      exact ⟨node, field, link, rows, joined.from held, found⟩
    · exact joined_of_calledByFields holder rest (fun field held => part field (.tail _ held)) later
  | .polymorphic _ _ _ :: rest, part, _, member =>
    joined_of_calledByFields holder rest (fun field held => part field (.tail _ held)) member
end

theorem called_of_joined {node target : Shape} {field : String} {link : Link}
    (joined : shape.Joined node) (member : .relation field link target ∈ node.fields) :
    .on (nestedName node.collection field) target ∈ rowsCalled shape := by
  apply joined.rowsCalled
  rw [rowsCalled_eq, rowsCalledByFields_eq]
  exact List.mem_flatMap.mpr ⟨_, member, .head _⟩

/-- The calls in the statement over a resolved shape, and in the selects in its maps, are the one on
the root and those of the relations of all nodes. -/
theorem mem_viewCalls_iff (h : scope.resolve.outcome = .ok shape) (call : RowCall) :
    (∃ depth, ∃ calls ∈ viewCalls depth shape, call ∈ calls) ↔
      call = .on "root" shape ∨ ∃ above node field link target, shape.Node above node ∧
        .relation field link target ∈ node.fields ∧
          call = .on (nestedName node.collection field) target := by
  constructor
  · rintro ⟨depth, calls, deep, member⟩
    -- apart from the call on the root, the calls are those of a query in the maps
    have split : call = .on "root" shape ∨ ∃ query ∈ shape.mapped depth,
        call ∈ rowsCalled query := by
      cases depth with
      | zero =>
        cases List.mem_singleton.mp deep
        exact (List.mem_cons.mp member).imp_right fun below => ⟨shape, .head _, below⟩
      | succ depth =>
        obtain ⟨query, mapped, rfl⟩ := List.mem_map.mp deep
        exact .inr ⟨query, mapped, member⟩
    refine split.imp_right ?_
    rintro ⟨query, mapped, made⟩
    obtain ⟨node, field, link, target, joined, held, rfl⟩ := joined_of_called query made
    obtain ⟨_, reached⟩ := Shape.node_of_mapped mapped
    obtain ⟨_, inner⟩ := joined.node
    exact ⟨_, node, field, link, target, reached.trans inner, held, rfl⟩
  · rintro (rfl | ⟨above, node, field, link, target, reached, held, rfl⟩)
    · exact ⟨0, _, .head _, .head _⟩
    · have nests : node.hasNested = true := List.any_eq_true.mpr ⟨_, held, rfl⟩
      obtain ⟨depth, query, mapped, joined⟩ := Shape.node_compiled h reached nests
      have made := called_of_joined joined held
      cases depth with
      | zero =>
        cases List.mem_singleton.mp mapped
        exact ⟨0, _, .head _, .tail _ made⟩
      | succ depth => exact ⟨depth + 1, _, List.mem_map_of_mem mapped, made⟩

end Sql

theorem Snapshot.wholeRows_iff (snapshot : Snapshot) (kind : ViewKind) (name : String)
    (shape : Shape) :
    snapshot.WholeRows (View.createStatement kind name (View.rowQuery (Sql.compile shape))) ↔
      ∀ call, (∃ depth, ∃ calls ∈ Sql.viewCalls depth shape, call ∈ calls) →
        call.Whole snapshot := by
  constructor
  · rintro whole call ⟨depth, calls, deep, member⟩
    obtain ⟨texts, read, each⟩ := whole depth
    obtain ⟨found, read', called⟩ := Sql.rowCalls_decoded kind name shape depth
    cases Option.some.inj (read.symm.trans read')
    have made : some calls ∈ texts.map Sql.rowCalls := called ▸ List.mem_map_of_mem deep
    obtain ⟨sql, isText, reads⟩ := List.mem_map.mp made
    obtain ⟨others, reads', all⟩ := each sql isText
    cases Option.some.inj (reads.symm.trans reads')
    exact all call member
  · intro whole depth
    obtain ⟨texts, read, called⟩ := Sql.rowCalls_decoded kind name shape depth
    refine ⟨texts, read, fun sql isText => ?_⟩
    have made : Sql.rowCalls sql ∈ (Sql.viewCalls depth shape).map some :=
      called ▸ List.mem_map_of_mem isText
    obtain ⟨calls, deep, reads⟩ := List.mem_map.mp made
    exact ⟨calls, reads.symm, fun call member => whole call ⟨depth, calls, deep, member⟩⟩

theorem pagesShape_node {above : List String} {node : Shape} (reached : pagesShape.Node above node)
    (nests : node.hasNested = true) : node = pagesShape ∨ node = authorShape := by
  induction reached with
  | root => exact .inl rfl
  | step within member leads ih =>
    rcases ih (List.any_eq_true.mpr ⟨_, member, Field.isNested_of_target leads⟩) with rfl | rfl
    · simp only [pagesShape, Shape.fields, List.mem_cons, List.not_mem_nil, or_false] at member
      rcases member with rfl | rfl | rfl <;>
        simp only [Field.targets, List.mem_cons, List.not_mem_nil, or_false] at leads
      · exact .inr leads
      · rcases leads with rfl | rfl
        · cases nests
        · exact .inr rfl
    · simp only [authorShape, Shape.fields, List.mem_cons, List.not_mem_nil, or_false] at member
      rcases member with rfl | rfl <;>
        simp only [Field.targets, List.mem_cons, List.not_mem_nil, or_false] at leads
      subst leads
      cases nests

/-- The calls on rows in the statement over a resolved shape, and in its maps, are on whole rows
exactly if no field of the root has the name of its rows, and no field of a joined target has
the name that joins it. -/
theorem documents_are_whole_rows_iff (h : scope.resolve.outcome = .ok shape) (kind : ViewKind)
    (name : String) :
    scope.snapshot.WholeRows (View.createStatement kind name (View.rowQuery (Sql.compile shape))) ↔
      "root" ∉ shape.fields.map Field.name ∧
      ∀ above node, shape.Node above node → ∀ field link target, .relation field link target ∈
        node.fields → Sql.nestedName node.collection field ∉ target.fields.map Field.name := by
  have visited {above : List String} {node : Shape} (reached : shape.Node above node) :=
    scope.node_visited h reached
  rw [Snapshot.wholeRows_iff]
  simp only [Sql.mem_viewCalls_iff h]
  constructor
  · intro whole
    refine ⟨((visited .root).whole_on "root").mp (whole _ (.inl rfl)), ?_⟩
    intro above node reached field link target member
    refine ((visited (reached.step member (.head _))).whole_on _).mp (whole _ (.inr ?_))
    exact ⟨above, node, field, link, target, reached, member, rfl⟩
  · rintro ⟨root, below⟩ call (rfl | ⟨above, node, field, link, target, reached, member, rfl⟩)
    · exact ((visited .root).whole_on "root").mpr root
    · exact ((visited (reached.step member (.head _))).whole_on _).mpr
        (below above node reached field link target member)

/-- The author of pages stands in a column and once more in a map; neither is named like its
rows. -/
theorem documents_are_whole_rows_pages :
    pagesScope.resolve.outcome = .ok pagesShape ∧
      pagesScope.snapshot.WholeRows
        (View.createStatement .materialized "pages_view"
          (View.rowQuery (Sql.compile pagesShape))) := by
  have resolved : pagesScope.resolve.outcome = .ok pagesShape := by with_unfolding_all rfl
  refine ⟨resolved,
    (documents_are_whole_rows_iff resolved .materialized "pages_view").mpr ⟨by decide, ?_⟩⟩
  intro above node reached field link target member
  have nests : node.hasNested = true := List.any_eq_true.mpr ⟨_, member, rfl⟩
  rcases pagesShape_node reached nests with rfl | rfl
  · simp only [pagesShape, Shape.fields, List.mem_cons, List.not_mem_nil, or_false,
      Field.relation.injEq, reduceCtorEq] at member
    obtain ⟨rfl, -, rfl⟩ := member
    decide
  · simp only [authorShape, Shape.fields, List.mem_cons, List.not_mem_nil, or_false, false_or,
      Field.relation.injEq, reduceCtorEq] at member
    obtain ⟨rfl, -, rfl⟩ := member
    decide

/-- Articles with a column that is named like their rows, and comments with one that is
named like theirs. -/
def namesakesScope : Scope where
  snapshot :=
    { collections := .ofList [
        ("articles",
          ⟨.ofList [("comments", ⟨true, []⟩), ("id", ⟨false, []⟩), ("root", ⟨false, []⟩)]⟩),
        ("comments",
          ⟨.ofList [("article_id", ⟨false, []⟩), ("nested_articles_comments", ⟨false, []⟩)]⟩)]
      relations := [
        ⟨"comments", "article_id", some "articles",
          some ⟨some "comments", some "article_id", none, some "id"⟩,
          some ⟨some "comments", none, none, none, none⟩⟩] }
  classify := .standard
  policy := .standard
  root := "articles"

/-- Both calls are on columns. -/
theorem rows_hidden_by_columns :
    let shape : Shape :=
      .mk "articles"
        [.relation "comments" ⟨.oneToMany, ⟨"comments", "article_id", "id"⟩, none⟩
          (.mk "comments" [.scalar "article_id", .scalar "nested_articles_comments"]),
         .scalar "id", .scalar "root"]
    let statement := View.createStatement .plain "articles_view" (View.rowQuery (Sql.compile shape))
    namesakesScope.resolve.outcome = .ok shape ∧
      (∃ calls, Sql.rowCalls statement = some calls ∧
        calls.map (·.argument) = ["root", "nested_articles_comments"] ∧
        ∀ call ∈ calls, call.argument ∈ call.columns namesakesScope.snapshot) ∧
      ¬ namesakesScope.snapshot.WholeRows statement := by
  intro shape statement
  have resolved : namesakesScope.resolve.outcome = .ok shape := by with_unfolding_all rfl
  have hidden : "root" ∈ (Sql.RowCall.on "root" shape).columns namesakesScope.snapshot := by decide
  refine ⟨resolved,
    ⟨_, Sql.rowCalls_createStatement .plain "articles_view" shape, by decide, by decide⟩, ?_⟩
  intro whole
  have call := (namesakesScope.snapshot.wholeRows_iff .plain "articles_view" shape).mp whole
    (.on "root" shape) ⟨0, _, .head _, .head _⟩
  exact call.2 hidden

end DocumentViews
