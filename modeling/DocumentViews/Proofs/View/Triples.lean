import DocumentViews.View.Lifecycle

/-! Pre- and postconditions of tasks, and what each view operation makes of them.
A triple says where a task ends that starts in states of one kind: with a value in a state of a
second kind, or with an error in a state of a third. The operations on views are walked through
once here, for any database and any conditions between the calls. -/
namespace DocumentViews

variable {σ ε ε' α β : Type}

namespace Task

def failure? : Except ε α → Option ε
  | .ok _ => none
  | .error error => some error

/-- What holds of a finished call, by whether it gave a value or an error. -/
def Settled (post : α → σ → Prop) (failed : ε → σ → Prop) : Except ε α × σ → Prop
  | (.ok value, state) => post value state
  | (.error error, state) => failed error state

theorem Settled.of_ok {post : α → σ → Prop} {failed : ε → σ → Prop} {outcome : Except ε α × σ}
    {value : α} (ran : outcome.1 = .ok value) (held : post value outcome.2) :
    Settled post failed outcome := by
  cases outcome with
  | mk answer state =>
    cases ran
    exact held

theorem Settled.of_error {post : α → σ → Prop} {failed : ε → σ → Prop} {outcome : Except ε α × σ}
    {error : ε} (ran : outcome.1 = .error error) (held : failed error outcome.2) :
    Settled post failed outcome := by
  cases outcome with
  | mk answer state =>
    cases ran
    exact held

theorem Settled.conseq {post last : α → σ → Prop} {failed left : ε → σ → Prop}
    {outcome : Except ε α × σ} (h : Settled post failed outcome)
    (ends : ∀ value state, post value state → last value state)
    (fails : ∀ error state, failed error state → left error state) : Settled last left outcome := by
  cases outcome with
  | mk answer state =>
    cases answer with
    | ok value => exact ends value state h
    | error error => exact fails error state h

/-- Every task ends, so this is total correctness. -/
def Triple (pre : σ → Prop) (task : Task σ ε α) (post : α → σ → Prop)
    (failed : ε → σ → Prop) : Prop :=
  ∀ world, pre world.state →
    match task world with
    | .ok value after => post value after.state
    | .error error after => failed error after.state

namespace Triple

variable {pre : σ → Prop} {task : Task σ ε α} {post : α → σ → Prop} {failed : ε → σ → Prop}

theorem of_ok (h : Triple pre task post failed) {world after : World σ} (starts : pre world.state)
    {value : α} (ran : task world = .ok value after) : post value after.state := by
  have settled := h world starts
  rwa [ran] at settled

theorem of_error (h : Triple pre task post failed) {world after : World σ}
    (starts : pre world.state) {error : ε} (ran : task world = .error error after) :
    failed error after.state := by
  have settled := h world starts
  rwa [ran] at settled

theorem any (task : Task σ ε α) :
    Triple (fun _ => True) task (fun _ _ => True) (fun _ _ => True) := by
  intro world _
  split
  · trivial
  · trivial

theorem starting (h : Triple pre task post failed) {first : σ → Prop}
    (stronger : ∀ state, first state → pre state) : Triple first task post failed := by
  intro world held
  exact h world (stronger _ held)

theorem conseq (h : Triple pre task post failed) {last : α → σ → Prop} {left : ε → σ → Prop}
    (ends : ∀ value state, post value state → last value state)
    (fails : ∀ error state, failed error state → left error state) :
    Triple pre task last left := by
  intro world starts
  have settled := h world starts
  cases ran : task world with
  | ok value after =>
    rw [ran] at settled
    exact ends value _ settled
  | error error after =>
    rw [ran] at settled
    exact fails error _ settled

theorem ending (h : Triple pre task post failed) {last : α → σ → Prop}
    (weaker : ∀ value state, post value state → last value state) : Triple pre task last failed :=
  h.conseq weaker fun _ _ held => held

theorem failing (h : Triple pre task post failed) {left : ε → σ → Prop}
    (weaker : ∀ error state, failed error state → left error state) : Triple pre task post left :=
  h.conseq (fun _ _ held => held) weaker

/-- A condition that does not depend on the state may be assumed. -/
theorem lift {fact : Prop} (h : fact → Triple pre task post failed) :
    Triple (fun state => fact ∧ pre state) task post failed := by
  intro world held
  exact h held.1 world held.2

theorem pure {value : α} (held : ∀ state, pre state → post value state) :
    Triple pre (Pure.pure value : Task σ ε α) post failed := by
  intro world starts
  exact held _ starts

theorem throw {error : ε} (held : ∀ state, pre state → failed error state) :
    Triple pre (MonadExcept.throw error : Task σ ε α) post failed := by
  intro world starts
  exact held _ starts

theorem log (event : Event) :
    Triple pre (Task.log event : Task σ ε Unit) (fun _ => pre) failed := by
  intro world starts
  exact starts

theorem bind {next : α → Task σ ε β} {middle : α → σ → Prop} {post : β → σ → Prop}
    (first : Triple pre task middle failed)
    (later : ∀ value, Triple (middle value) (next value) post failed) :
    Triple pre (task >>= next) post failed := by
  intro world starts
  have settled := first world starts
  simp only [Bind.bind, EStateM.bind]
  cases ran : task world with
  | ok value after =>
    rw [ran] at settled
    exact later value after settled
  | error error after =>
    rw [ran] at settled
    exact settled

theorem returning {f : α → β} {post : β → σ → Prop}
    (h : Triple pre task (fun value => post (f value)) failed) :
    Triple pre (task >>= fun value => Pure.pure (f value)) post failed :=
  h.bind fun _ => pure fun _ held => held

theorem widen {failed : ε' → σ → Prop} {wider : ε → ε'}
    (h : Triple pre task post fun error => failed (wider error)) :
    Triple pre (task.widen wider) post failed := by
  intro world starts
  have settled := h world starts
  unfold Task.widen
  cases ran : task world with
  | ok value after =>
    rw [ran] at settled
    exact settled
  | error error after =>
    rw [ran] at settled
    exact settled

theorem call {operation : σ → Except DbError α × σ} {failed : DbError → σ → Prop}
    (h : ∀ state, pre state → Settled post failed (operation state)) :
    Triple pre (Task.call operation) post failed := by
  intro world starts
  have settled := h world.state starts
  unfold Task.call
  cases ran : operation world.state with
  | mk answer state =>
    rw [ran] at settled
    cases answer with
    | ok value => exact settled
    | error error => exact settled

end Triple

end Task

namespace View

variable {db : Database σ} {pre : σ → Prop} {failed : ViewError → σ → Prop}

theorem triple_execute {sql : String} {post : σ → Prop}
    (h : ∀ state, pre state →
      Task.Settled (fun _ => post) (fun error => failed (.database error)) (db.execute sql state)) :
    Task.Triple pre (execute db sql) (fun _ => post) failed :=
  .widen (.call h)

/-- Where an object may be missing, an error that says so counts as success. -/
theorem triple_executeLenient {sql : String} {post : σ → Prop}
    (h : ∀ state, pre state → Task.Settled (fun _ => post)
      (fun error left => if error.missesObject then post left else failed (.database error) left)
      (db.execute sql state)) :
    Task.Triple pre (executeLenient db sql) (fun _ => post) failed := by
  intro world starts
  have settled := h world.state starts
  unfold executeLenient execute Task.widen Task.call
  cases ran : db.execute sql world.state with
  | mk answer state =>
    rw [ran] at settled
    cases answer with
    | ok value => exact settled
    | error error =>
      simp only [Task.Settled] at settled
      by_cases missed : error.missesObject = true
      · simp only [missed, if_true] at settled ⊢
        exact settled
      · simp only [missed] at settled ⊢
        exact settled

theorem triple_viewKind {name : String} {post : Option ViewKind → σ → Prop}
    (h : ∀ state, pre state →
      Task.Settled post (fun error => failed (.database error)) (db.viewKind name state)) :
    Task.Triple pre ((Task.call (db.viewKind name)).widen ViewError.database) post failed :=
  .widen (.call h)

theorem triple_dropExisting {name : String} {asked halfway : Option ViewKind → σ → Prop}
    {post : Bool → σ → Prop}
    (asks : Task.Triple pre ((Task.call (db.viewKind name)).widen .database) asked failed)
    (plain : ∀ kind, Task.Triple (asked kind) (executeLenient db (dropStatement .plain name))
      (fun _ => halfway kind) failed)
    (materialized : ∀ kind, Task.Triple (halfway kind)
      (executeLenient db (dropStatement .materialized name)) (fun _ => post kind.isSome) failed) :
    Task.Triple pre (dropExisting db name) post failed := by
  apply asks.bind
  intro kind
  apply (plain kind).bind
  rintro -
  apply (materialized kind).bind
  rintro -
  exact .pure fun _ held => held

theorem triple_createOrReplace {name collection sql : String} {materialized : Bool}
    {declared installed created : σ → Prop} {dropped : Bool → σ → Prop}
    (declares : Task.Triple pre (execute db Sql.resolveRowWithNested) (fun _ => declared) failed)
    (installs : Task.Triple declared (execute db Sql.resolveRow) (fun _ => installed) failed)
    (drops : Task.Triple installed (dropExisting db name) dropped failed)
    (creates : ∀ existed, Task.Triple (dropped existed)
      (execute db (createStatement (.ofFlag materialized) name (rowQuery sql)))
      (fun _ => created) failed) :
    Task.Triple pre (createOrReplace db name collection sql materialized)
      (fun view state => view = ⟨name, collection, materialized, rowQuery sql⟩ ∧ created state)
      failed := by
  apply Task.Triple.bind (declares.bind fun _ => installs)
  rintro -
  apply drops.bind
  intro existed
  apply (creates existed).bind
  rintro -
  apply (Task.Triple.log _).bind
  rintro -
  exact .pure fun _ held => ⟨rfl, held⟩

end View

end DocumentViews
