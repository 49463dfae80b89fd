import DocumentViews.Proofs.View.Outcomes

/-! Replacing a view while calls fail.
A script lets any call on the catalog fail with any error, and a call that fails so changes
nothing. Up to the last statement of a replacement there are two ways to stand: nothing has
changed, or the view has been dropped and nothing else. Failures that a drop ignores lead out of
neither, and a view that is still there stops the creation, so a replacement that succeeds has left
the view that was asked for. -/
namespace DocumentViews

variable {α : Type}

namespace Catalog

/-- A call as it went: the failure that it met, if any, and the views before and after it. -/
structure Attempt where
  call : Call
  failure : Option DbError
  before : NameMap ViewKind
  after : NameMap ViewKind

/-- The statement that took the view of a name away. -/
structure Attempt.Drops (attempt : Attempt) (name : String) : Prop where
  statement : ∃ kind, attempt.call = .execute (View.dropStatement kind name) ∧
    attempt.before.get? name = some kind
  succeeded : attempt.failure = none
  gone : attempt.after.get? name = none

/-- A catalog with a script for the calls to come, each with the failure that it meets in addition,
if any, and with the attempts so far. -/
structure Scripted where
  catalog : Catalog
  script : List (Option DbError)
  attempts : List Attempt

theorem execute_fault {catalog : Catalog} {sql : String} {error : DbError}
    (fault : catalog.fault? .execute sql = some error) :
    execute sql catalog = (.error error, catalog.record (.execute sql)) := by
  have fault : (catalog.record (.execute sql)).fault? .execute sql = some error := fault
  rw [execute, fault]

theorem views_execute {sql : String} (read : effect? sql = none) (catalog : Catalog) :
    (execute sql catalog).2.views = catalog.views := by
  rw [execute, read]
  split
  · rfl
  · rfl

theorem views_viewKind (name : String) (catalog : Catalog) :
    (viewKind name catalog).2.views = catalog.views := by
  rw [viewKind]
  split
  · rfl
  · rfl

namespace Scripted

def views (scripted : Scripted) : NameMap ViewKind := scripted.catalog.views

/-- A call that fails if the script says so, and else goes as it would on the catalog. -/
def attempt (call : Call) (operation : Catalog → Except DbError α × Catalog) (scripted : Scripted) :
    Except DbError α × Scripted :=
  let (answer, left) := match scripted.script.head?.join with
    | some error => (Except.error error, scripted.catalog)
    | none => operation scripted.catalog
  (answer, ⟨left, scripted.script.tail, scripted.attempts ++
    [⟨call, Task.failure? answer, scripted.views, left.views⟩]⟩)

def database : Database Scripted where
  execute sql := attempt (.execute sql) (Catalog.execute sql)
  query sql params := attempt (.query sql params) (Catalog.query sql params)
  viewKind name := attempt (.viewKind name) (Catalog.viewKind name)

theorem attempts_attempt (call : Call) (operation : Catalog → Except DbError α × Catalog)
    (scripted : Scripted) :
    (attempt call operation scripted).2.attempts = scripted.attempts ++
      [⟨call, Task.failure? (attempt call operation scripted).1, scripted.views,
        (attempt call operation scripted).2.views⟩] :=
  rfl

/-- A scripted failure changes nothing; any other call is one on the catalog. -/
theorem attempt_cases (call : Call) (operation : Catalog → Except DbError α × Catalog)
    (scripted : Scripted) :
    ((∃ error, (attempt call operation scripted).1 = .error error) ∧
      (attempt call operation scripted).2.views = scripted.views) ∨
    ((attempt call operation scripted).1 = (operation scripted.catalog).1 ∧
      (attempt call operation scripted).2.views = (operation scripted.catalog).2.views) := by
  unfold attempt views
  cases scripted.script.head?.join with
  | some error => exact .inl ⟨⟨error, rfl⟩, rfl⟩
  | none => exact .inr ⟨rfl, rfl⟩

theorem attempt_quiet (call : Call) {operation : Catalog → Except DbError α × Catalog}
    (quiet : ∀ catalog, (operation catalog).2.views = catalog.views) (scripted : Scripted) :
    (attempt call operation scripted).2.views = scripted.views := by
  rcases attempt_cases call operation scripted with ⟨_, same⟩ | ⟨_, left⟩
  · exact same
  · exact left.trans (quiet _)

theorem execute_cases {sql : String} {effect : Effect} (read : effect? sql = some effect)
    (scripted : Scripted) :
    ((∃ error, (database.execute sql scripted).1 = .error error) ∧
      (database.execute sql scripted).2.views = scripted.views) ∨
    Rule scripted.views effect (database.execute sql scripted).1
      (database.execute sql scripted).2.views := by
  rcases attempt_cases (.execute sql) (Catalog.execute sql) scripted with failed | ⟨answer, left⟩
  · exact .inl failed
  · cases fault : scripted.catalog.fault? .execute sql with
    | none =>
      have rule := Catalog.execute_changing fault read
      rw [← answer, ← left] at rule
      exact .inr rule
    | some error =>
      rw [Catalog.execute_fault fault] at answer left
      exact .inl ⟨⟨error, answer⟩, left⟩

end Scripted

end Catalog

namespace View

open Catalog (Scripted)

/-- Where a replacement stands before the creation. -/
inductive Underway (initial : NameMap ViewKind) (name : String) (scripted : Scripted) : Prop
  | untouched (same : scripted.views = initial)
  | dropped (gone : scripted.views = initial.erase name) {drop : Catalog.Attempt}
      (made : drop ∈ scripted.attempts) (drops : drop.Drops name)

/-- Where a failed replacement stands. If the view is gone, it was dropped before the
statement that failed. -/
inductive Abandoned (initial : NameMap ViewKind) (name : String) : ViewError → Scripted → Prop
  | untouched {error : ViewError} {scripted : Scripted} (same : scripted.views = initial) :
      Abandoned initial name error scripted
  | dropped {scripted : Scripted} (gone : scripted.views = initial.erase name)
      {earlier later : List Catalog.Attempt} {drop last : Catalog.Attempt} {sql : String}
      {cause : DbError}
      (made : scripted.attempts = earlier ++ drop :: later ++ [last]) (drops : drop.Drops name)
      (called : last.call = .execute sql) (failed : last.failure = some cause) :
      Abandoned initial name (.database cause) scripted

variable {initial : NameMap ViewKind} {name : String}

namespace Underway

variable {scripted : Scripted} {sql : String}

theorem stays (h : Underway initial name scripted)
    (same : (Scripted.database.execute sql scripted).2.views = scripted.views) :
    Underway initial name (Scripted.database.execute sql scripted).2 := by
  cases h with
  | untouched before => exact .untouched (same.trans before)
  | dropped gone made drops => exact .dropped (same.trans gone) (List.mem_append_left _ made) drops

theorem abandoned (h : Underway initial name scripted) {cause : DbError}
    (failed : (Scripted.database.execute sql scripted).1 = .error cause)
    (same : (Scripted.database.execute sql scripted).2.views = scripted.views) :
    Abandoned initial name (.database cause) (Scripted.database.execute sql scripted).2 := by
  cases h with
  | untouched before => exact .untouched (same.trans before)
  | dropped gone made drops =>
    obtain ⟨earlier, later, parted⟩ := List.append_of_mem made
    have attempts := Scripted.attempts_attempt (.execute sql) (Catalog.execute sql) scripted
    rw [parted] at attempts
    refine .dropped (same.trans gone) attempts drops rfl ?_
    exact congrArg Task.failure? failed

end Underway

theorem scripted_quiet (call : Catalog.Call) {operation : Catalog → Except DbError α × Catalog}
    (quiet : ∀ catalog, (operation catalog).2.views = catalog.views) {scripted : Scripted}
    (starts : scripted.views = initial) :
    Task.Settled (fun _ left => left.views = initial)
      (fun error => Abandoned initial name (.database error))
        (Scripted.attempt call operation scripted) := by
  have same := (Scripted.attempt_quiet call quiet scripted).trans starts
  cases ended : (Scripted.attempt call operation scripted).1 with
  | ok value => exact .of_ok ended same
  | error error => exact .of_error ended (.untouched same)

theorem scripted_silent {sql : String} (silent : Catalog.effect? sql = none) :
    Task.Triple (fun scripted => scripted.views = initial) (execute Scripted.database sql)
      (fun _ scripted => scripted.views = initial) (Abandoned initial name) :=
  triple_execute fun _ => scripted_quiet _ (Catalog.views_execute silent)

/-- The failures that a drop ignores leave everything as it stands. -/
theorem scripted_dropStatement (kind : ViewKind) :
    Task.Triple (Underway initial name) (executeLenient Scripted.database (dropStatement kind name))
      (fun _ => Underway initial name) (Abandoned initial name) := by
  apply triple_executeLenient
  intro scripted starts
  rcases Scripted.execute_cases (Catalog.effect?_dropStatement kind name) scripted with
    ⟨⟨error, failed⟩, same⟩ | rule
  · apply Task.Settled.of_error failed
    by_cases missed : error.missesObject = true
    · rw [if_pos missed]
      exact starts.stays same
    · rw [if_neg missed]
      exact starts.abandoned failed same
  · generalize answered : (Scripted.database.execute (dropStatement kind name) scripted).1 =
      answer at rule
    generalize left : (Scripted.database.execute (dropStatement kind name) scripted).2.views =
      views at rule
    cases rule with
    | missing free => exact .of_ok answered (starts.stays left)
    | otherKind message there other => exact .of_error answered (starts.stays left)
    | dropped there =>
      apply Task.Settled.of_ok answered
      cases starts with
      | untouched before =>
        refine .dropped (left.trans (congrArg (·.erase name) before))
          (List.mem_append_right _ (.head _)) ?_
        constructor
        · exact ⟨kind, rfl, there⟩
        · exact congrArg Task.failure? answered
        · exact (congrArg (·.get? name) left).trans (by rw [NameMap.get?_erase, if_pos rfl])
      | dropped gone made drops =>
        rw [gone, NameMap.get?_erase, if_pos rfl] at there
        cases there

theorem scripted_createStatement (kind : ViewKind) (query : String) :
    Task.Triple (Underway initial name)
      (execute Scripted.database (createStatement kind name query))
      (fun _ scripted => scripted.views = initial.insert name kind) (Abandoned initial name) := by
  apply triple_execute
  intro scripted starts
  rcases Scripted.execute_cases (Catalog.effect?_createStatement kind name query) scripted with
    ⟨⟨error, failed⟩, same⟩ | rule
  · exact .of_error failed (starts.abandoned failed same)
  · generalize answered : (Scripted.database.execute (createStatement kind name query) scripted).1 =
      answer at rule
    generalize left :
      (Scripted.database.execute (createStatement kind name query) scripted).2.views = views at rule
    cases rule with
    | created free =>
      apply Task.Settled.of_ok answered
      refine left.trans ?_
      cases starts with
      | untouched before => rw [before]
      | dropped gone made drops => rw [gone, NameMap.insert_erase]
    | taken error there => exact .of_error answered (starts.abandoned answered left)

theorem scripted_createOrReplace (initial : NameMap ViewKind) (name collection sql : String)
    (materialized : Bool) :
    Task.Triple (fun scripted => scripted.views = initial)
      (createOrReplace Scripted.database name collection sql materialized)
      (fun view scripted => view = ⟨name, collection, materialized, rowQuery sql⟩ ∧
        scripted.views = initial.insert name (.ofFlag materialized)) (Abandoned initial name) := by
  have drops :
      Task.Triple (fun scripted => scripted.views = initial) (dropExisting Scripted.database name)
        (fun _ => Underway initial name) (Abandoned initial name) := by
    apply triple_dropExisting
    · exact triple_viewKind fun _ => scripted_quiet _ (Catalog.views_viewKind name)
    · intro kind
      exact (scripted_dropStatement .plain).starting fun _ same => .untouched same
    · intro kind
      exact scripted_dropStatement .materialized
  exact triple_createOrReplace (scripted_silent Catalog.quiet_resolveRowWithNested.1)
    (scripted_silent Catalog.quiet_resolveRow.1) drops fun _ => scripted_createStatement _ _

end View

open Catalog (Scripted)

/-- Whatever calls fail, a replacement that succeeds has left the view that it returns, and one that
fails has left the view as it was or none. The view is lost only if a drop took effect and a
statement after it failed, which is the failure that is reported. No other view changes. -/
theorem failing_replace_leaves_no_wrong_view (catalog : Catalog) (script : List (Option DbError))
    (events : List Event) (name collection sql : String) (materialized : Bool) :
    match View.createOrReplace Scripted.database name collection sql materialized
      ⟨⟨catalog, script, []⟩, events⟩ with
    | .ok view after =>
      view = ⟨name, collection, materialized, View.rowQuery sql⟩ ∧
      after.state.views.get? name = some (.ofFlag materialized) ∧
      ∀ other, other ≠ name → after.state.views.get? other = catalog.views.get? other
    | .error error after =>
      (after.state.views.get? name = catalog.views.get? name ∨ after.state.views.get? name = none) ∧
      (catalog.views.get? name ≠ none → after.state.views.get? name = none →
        ∃ earlier drop later last statement cause, after.state.attempts = earlier ++ drop ::
          later ++ [last] ∧ drop.Drops name ∧ last.call = .execute statement ∧
          last.failure = some cause ∧ error = .database cause) ∧
      ∀ other, other ≠ name → after.state.views.get? other = catalog.views.get? other := by
  have settled := View.scripted_createOrReplace catalog.views name collection sql materialized
    ⟨⟨catalog, script, []⟩, events⟩ rfl
  cases ran : View.createOrReplace Scripted.database name collection sql materialized
      ⟨⟨catalog, script, []⟩, events⟩ with
  | ok view after =>
    rw [ran] at settled
    obtain ⟨rfl, created⟩ := settled
    refine ⟨rfl, ?_, fun other different => ?_⟩
    · rw [created, NameMap.get?_insert, if_pos rfl]
    · rw [created, NameMap.get?_insert, if_neg different]
  | error error after =>
    rw [ran] at settled
    cases settled with
    | untouched same =>
      refine ⟨.inl ?_, fun there gone => ?_, fun other different => ?_⟩
      · rw [same]
      · rw [same] at gone
        exact absurd gone there
      · rw [same]
    | dropped gone made drops called failed =>
      refine ⟨.inr ?_, fun _ _ => ⟨_, _, _, _, _, _, made, drops, called, failed, rfl⟩,
        fun other different => ?_⟩
      · rw [gone, NameMap.get?_erase, if_pos rfl]
      · rw [gone, NameMap.get?_erase, if_neg different]

end DocumentViews
