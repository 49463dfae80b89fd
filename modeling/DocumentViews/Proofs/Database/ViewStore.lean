import DocumentViews.Database.Catalog
import DocumentViews.Proofs.NameMap
import DocumentViews.Proofs.Text.Quoted
import DocumentViews.View.Lifecycle
import DocumentViews.View.Reading

/-! Databases that keep views.
The statements and queries of the library are texts. Each is read back as the change that it asks
for, or as the view that it asks about, with the name as it was before it was quoted. A view store
is any database that follows the rules for such texts; the catalog in memory is one while it has no
orders to fail. -/
namespace DocumentViews

namespace Text

theorem afterStart?_append (start : String) (rest : List Char) :
    afterStart? start (start.toList ++ rest) = some rest := by
  simp [afterStart?, ← String.length_toList]

theorem afterStart?_other {start other : String} (apart : ¬ start.toList <+: other.toList)
    (apart' : ¬ other.toList <+: start.toList) (rest : List Char) :
    afterStart? start (other.toList ++ rest) = none := by
  have no : ¬ start.toList <+: other.toList ++ rest := by
    intro front
    rcases List.prefix_or_prefix_of_prefix front (List.prefix_append _ _) with inside | around
    · exact apart inside
    · exact apart' around
  simp [afterStart?, no]

end Text

namespace Catalog

theorem nameAt_quoteName (name : String) {after : List Char}
    (ends : after.head? ≠ some Sql.nameMark) :
    nameAt ((Sql.quoteName name).toList ++ after) = some name := by
  have inside := Text.Quoted.scanInside_encoded Sql.nameMark name.toList ends
  simp [nameAt, Sql.quoteName, Text.Quoted.encode, Text.Quoted.scan, inside]

theorem understood_apart : understood.Pairwise fun first second =>
    ¬ first.1.toList <+: second.1.toList ∧ ¬ second.1.toList <+: first.1.toList := by
  decide +kernel

/-- No start of a statement hides another, so the order in which they are tried does not matter. -/
theorem effect?_of_start {start : String} {effect : String → Effect}
    (member : (start, effect) ∈ understood) (name : String) {after : String}
    (ends : after.toList.head? ≠ some Sql.nameMark) :
    effect? (start ++ Sql.quoteName name ++ after) = some (effect name) := by
  obtain ⟨before, later, parted⟩ := List.append_of_mem member
  have apart := understood_apart
  rw [parted, List.pairwise_append] at apart
  rw [effect?, String.toList_append, String.toList_append, List.append_assoc, parted,
    List.findSome?_append]
  have skipped : (before.findSome? fun entry =>
      ((Text.afterStart? entry.1
        (start.toList ++ ((Sql.quoteName name).toList ++ after.toList))).bind nameAt).map
          entry.2) = none := by
    rw [List.findSome?_eq_none_iff]
    intro entry earlier
    obtain ⟨one, other⟩ := apart.2.2 entry earlier (start, effect) List.mem_cons_self
    rw [Text.afterStart?_other one other]
    rfl
  rw [skipped, List.findSome?_cons, Text.afterStart?_append, Option.bind_some,
    nameAt_quoteName name ends]
  rfl

theorem effect?_dropStatement (kind : ViewKind) (name : String) :
    effect? (View.dropStatement kind name) = some (.drop kind name) := by
  have named (start : String) (member : (start, Effect.drop kind) ∈ understood) :
      effect? (start ++ Sql.quoteName name) = some (.drop kind name) := by
    have read := @effect?_of_start start (.drop kind) member name "" (by decide)
    rwa [String.append_empty] at read
  cases kind with
  | plain => exact named "DROP VIEW IF EXISTS " (by simp [understood])
  | materialized => exact named "DROP MATERIALIZED VIEW IF EXISTS " (by simp [understood])

theorem effect?_createStatement (kind : ViewKind) (name query : String) :
    effect? (View.createStatement kind name query) = some (.create kind name) := by
  have named (start : String) (member : (start, Effect.create kind) ∈ understood) :
      effect? (start ++ Sql.quoteName name ++
        (" (" ++ Sql.quoteName Sql.dataColumn ++ ") AS " ++ query)) =
        some (.create kind name) := by
    apply effect?_of_start member name
    simp [Sql.nameMark]
  simp only [← String.append_assoc] at named
  cases kind with
  | plain => exact named "CREATE VIEW " (by simp [understood])
  | materialized => exact named "CREATE MATERIALIZED VIEW " (by simp [understood])

theorem effect?_refreshStatement (name : String) :
    effect? (View.refreshStatement name) = some (.refresh name) := by
  have member : ("REFRESH MATERIALIZED VIEW ", Effect.refresh) ∈ understood := by simp [understood]
  have read := @effect?_of_start _ _ member name "" (by decide)
  rwa [String.append_empty] at read

theorem effect?_of_other {start : String} (apart : ∀ entry ∈ understood,
    ¬ entry.1.toList <+: start.toList ∧ ¬ start.toList <+: entry.1.toList) (rest : String) :
    effect? (start ++ rest) = none := by
  rw [effect?, String.toList_append, List.findSome?_eq_none_iff]
  intro entry member
  obtain ⟨one, other⟩ := apart entry member
  rw [Text.afterStart?_other one other]
  rfl

theorem quiet_of_line {line : String} (apart : ∀ start ∈ "REFRESH " :: understood.map (·.1),
    ¬ start.toList <+: line.toList ∧ ¬ line.toList <+: start.toList) (rest : String) :
    effect? (line ++ rest) = none ∧ Text.afterStart? "REFRESH " (line ++ rest).toList = none := by
  constructor
  · apply effect?_of_other
    intro entry member
    exact apart entry.1 (List.mem_cons_of_mem _ (List.mem_map_of_mem member))
  · obtain ⟨one, other⟩ := apart "REFRESH " List.mem_cons_self
    rw [String.toList_append]
    exact Text.afterStart?_other one other _

theorem quiet_resolveRowWithNested : effect? Sql.resolveRowWithNested = none ∧
    Text.afterStart? "REFRESH " Sql.resolveRowWithNested.toList = none := by
  rw [Sql.resolveRowWithNested, String.intercalate_cons_cons, String.append_assoc]
  exact quiet_of_line (by decide +kernel) _

theorem quiet_resolveRow : effect? Sql.resolveRow = none ∧
    Text.afterStart? "REFRESH " Sql.resolveRow.toList = none := by
  rw [Sql.resolveRow, String.intercalate_cons_cons, String.append_assoc]
  exact quiet_of_line (by decide +kernel) _

theorem head?_number_conditions (entries : List (String × String)) (page : Page)
    (rest : List Piece) :
    (Piece.number 1 (Reading.conditions " WHERE " entries ++ Reading.ordering page ++
      .text " LIMIT " :: rest)).toList.head? = some ' ' := by
  cases entries with
  | cons entry others => simp [Reading.conditions, Piece.number]
  | nil =>
    cases sorted : page.sort with
    | none => simp [Reading.conditions, Reading.ordering, sorted, Piece.number]
    | some key => simp [Reading.conditions, Reading.ordering, sorted, Piece.number]

/-- A read names its view, and nothing before the name reads as if it did. -/
theorem source_select (view : String) (filters : Filters) (page : Page) :
    source (Reading.select view filters page).sql = view := by
  let tail := Piece.number 1
    (Reading.conditions " WHERE " filters.entries ++ Reading.ordering page ++
      [.text " LIMIT ", .hole (.number page.limit.toNat),
       .text " OFFSET ", .hole (.number page.offset.toNat)])
  have ends : tail.toList.head? ≠ some Sql.nameMark := by
    rw [head?_number_conditions]
    decide
  have text : (Reading.select view filters page).sql.toList =
      "SELECT \"data\" FROM ".toList ++ ((Sql.quoteName view).toList ++ tail.toList) := by
    rw [← String.toList_append, ← String.toList_append, ← String.append_assoc]
    rfl
  have found (rest : List Char) :
      Text.after? " FROM ".toList ("SELECT \"data\" FROM ".toList ++ rest) = some rest := rfl
  rw [source, text, found, Option.bind_some, nameAt_quoteName view ends]
  rfl

/-- How a statement on views ends, and what it leaves. Nothing is said about refreshing what is not
a materialized view: it is never asked for. -/
inductive Rule (views : NameMap ViewKind) :
    Effect → Except DbError Unit → NameMap ViewKind → Prop where
  | created {kind : ViewKind} {name : String} (free : views.get? name = none) :
      Rule views (.create kind name) (.ok ()) (views.insert name kind)
  | taken {kind present : ViewKind} {name : String} (error : DbError)
      (there : views.get? name = some present) :
      Rule views (.create kind name) (.error error) views
  | dropped {kind : ViewKind} {name : String} (there : views.get? name = some kind) :
      Rule views (.drop kind name) (.ok ()) (views.erase name)
  | missing {kind : ViewKind} {name : String} (free : views.get? name = none) :
      Rule views (.drop kind name) (.ok ()) views
  | otherKind {kind present : ViewKind} {name : String} (message : String)
      (there : views.get? name = some present) (other : present ≠ kind) :
      Rule views (.drop kind name) (.error (.wrongObjectType message)) views
  | refreshed {name : String} (there : views.get? name = some .materialized) :
      Rule views (.refresh name) (.ok ()) views
  | unrefreshable {name : String} {answer : Except DbError Unit} {left : NameMap ViewKind}
      (other : views.get? name ≠ some .materialized) : Rule views (.refresh name) answer left

end Catalog

/-- A database that keeps views, with the states in which it has no orders to fail. Statements
follow the rules for views, and what concerns no view succeeds. -/
structure ViewStore (σ : Type) extends Database σ where
  views : σ → NameMap ViewKind
  Intact : σ → Prop
  execute_intact : ∀ {state}, Intact state → ∀ sql, Intact (execute sql state).2
  execute_rule : ∀ {state}, Intact state → ∀ {sql effect}, Catalog.effect? sql = some effect →
    Catalog.Rule (views state) effect (execute sql state).1 (views (execute sql state).2)
  execute_other : ∀ {state}, Intact state → ∀ {sql}, Catalog.effect? sql = none →
    Text.afterStart? "REFRESH " sql.toList = none →
    (execute sql state).1 = .ok () ∧ views (execute sql state).2 = views state
  query_intact : ∀ {state}, Intact state → ∀ sql params,
    Intact (query sql params state).2 ∧ views (query sql params state).2 = views state
  query_found : ∀ {state}, Intact state → ∀ {sql}, (views state).contains (Catalog.source sql) →
    ∀ params, ∃ rows, (query sql params state).1 = .ok rows
  query_missing : ∀ {state}, Intact state → ∀ {sql},
    (views state).contains (Catalog.source sql) = false →
    ∀ params, ∃ message, (query sql params state).1 = .error (.undefinedRelation message)
  viewKind_intact : ∀ {state}, Intact state → ∀ name,
    Intact (viewKind name state).2 ∧ views (viewKind name state).2 = views state
  viewKind_found : ∀ {state}, Intact state → ∀ name,
    (viewKind name state).1 = .ok ((views state).get? name)

namespace Catalog

theorem fault?_eq_none {catalog : Catalog} (intact : catalog.faults = []) (operation : Operation)
    (text : String) :
    catalog.fault? operation text = none := by
  simp [fault?, intact]

theorem execute_changing {catalog : Catalog} {sql : String}
    (passes : catalog.fault? .execute sql = none) {effect : Effect}
    (read : effect? sql = some effect) :
    Rule catalog.views effect (execute sql catalog).1 (execute sql catalog).2.views := by
  have passes : (catalog.record (.execute sql)).fault? .execute sql = none := passes
  rw [execute, passes, read]
  cases effect with
  | create kind name =>
    cases there : catalog.views.get? name with
    | none =>
      simp only [apply, record, NameMap.contains, there, Option.isSome_none,
        Bool.false_eq_true, if_false]
      exact .created there
    | some present =>
      simp only [apply, record, NameMap.contains, there, Option.isSome_some, if_true]
      exact .taken _ there
  | drop kind name =>
    cases there : catalog.views.get? name with
    | none =>
      simp only [apply, record, there]
      exact .missing there
    | some present =>
      by_cases same : present = kind
      · simp only [apply, record, there, same, if_true]
        exact .dropped (same ▸ there)
      · simp only [apply, record, there, same, if_false]
        exact .otherKind _ there same
  | refresh name =>
    cases there : catalog.views.get? name with
    | none => exact .unrefreshable (by simp [there])
    | some present =>
      cases present with
      | plain => exact .unrefreshable (by simp [there])
      | materialized =>
        simp only [apply, record, there]
        exact .refreshed there

theorem execute_quiet {catalog : Catalog} (intact : catalog.faults = []) {sql : String}
    (read : effect? sql = none) :
    execute sql catalog = (.ok (), catalog.record (.execute sql)) := by
  rw [execute, fault?_eq_none (by exact intact), read]

theorem faults_execute (sql : String) (catalog : Catalog) :
    (execute sql catalog).2.faults = catalog.faults := by
  rw [execute]
  split
  · rfl
  · split
    · rfl
    · split
      · rfl
      · rfl

theorem query_intact {catalog : Catalog} (intact : catalog.faults = []) (sql : String)
    (params : List Param) :
    query sql params catalog =
      (if catalog.views.contains (source sql) then .ok ((catalog.rows.get? (source sql)).getD [])
        else .error (undefined (source sql)), catalog.record (.query sql params)) := by
  rw [query, fault?_eq_none (by exact intact)]
  by_cases there : catalog.views.contains (source sql)
  · simp [record, there]
  · simp [record, there]

theorem viewKind_intact {catalog : Catalog} (intact : catalog.faults = []) (name : String) :
    viewKind name catalog = (.ok (catalog.views.get? name), catalog.record (.viewKind name)) := by
  rw [viewKind, fault?_eq_none (by exact intact)]
  rfl

def store : ViewStore Catalog where
  toDatabase := database
  views := views
  Intact catalog := catalog.faults = []
  execute_intact intact sql := (faults_execute sql _).trans intact
  execute_rule intact _ _ read := execute_changing (fault?_eq_none intact _ _) read
  execute_other intact _ read _ := by simp [database, execute_quiet intact read, record]
  query_intact intact sql params := by simp [database, query_intact intact, record, intact]
  query_found intact _ there params := by simp [database, query_intact intact, there]
  query_missing intact _ absent params := by simp [database, query_intact intact, absent, undefined]
  viewKind_intact intact name := by simp [database, viewKind_intact intact, record, intact]
  viewKind_found intact name := by simp [database, viewKind_intact intact]

end Catalog

end DocumentViews
