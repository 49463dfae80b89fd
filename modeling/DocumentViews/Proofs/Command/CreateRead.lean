import DocumentViews.Proofs.Command.Sessions

/-! Reading what was created.
Creating takes any name of a collection and quotes it; reading refuses names that are not plain
before it asks the database. So a view that was just created is there, and it can be read exactly if
its collection has a plain name. -/
namespace DocumentViews

variable {σ : Type} {store : ViewStore σ} {context : Context σ} {world : World σ}
  {views : NameMap ViewKind}

inductive Command.ReadsViewOf (collection : String) : Command → Prop
  | all : ReadsViewOf collection (.all collection)
  | find (filters : List (String × String)) (page : Page) :
      ReadsViewOf collection (.find collection filters page)
  | findOne (filters : List (String × String)) :
      ReadsViewOf collection (.findOne collection filters)

namespace Command

variable {command : Command} {answer : Answer} {left : NameMap ViewKind}

/-- What succeeds on the ledger succeeds on a store. -/
theorem run_of_attempt (reached : context.database = .ok store.toDatabase)
    (stocked : store.Stocked views world.state)
    (attempted : Ledger.attempt context views command = .ok (answer, left)) :
    ∃ report after, command.run context world = .ok report after ∧
      store.Stocked left after.state := by
  have follows := run_follows reached views command
  cases ran : command.run context world with
  | ok report after =>
    obtain ⟨kept, same, stocked⟩ := follows.of_ok stocked ran
    cases attempted.symm.trans same
    exact ⟨report, after, rfl, stocked⟩
  | error failure after =>
    obtain ⟨same, _⟩ := follows.of_error stocked ran
    cases attempted.symm.trans same

theorem run_of_attempt_error (reached : context.database = .ok store.toDatabase)
    (stocked : store.Stocked views world.state) {failure : Failure}
    (attempted : Ledger.attempt context views command = .error failure) :
    ∃ after, command.run context world = .error failure after := by
  have follows := run_follows reached views command
  cases ran : command.run context world with
  | ok report after =>
    obtain ⟨_, same, _⟩ := follows.of_ok stocked ran
    cases attempted.symm.trans same
  | error other after =>
    obtain ⟨same, _⟩ := follows.of_error stocked ran
    cases attempted.symm.trans same
    exact ⟨after, rfl⟩

/-- A read that is allowed needs a plain name and the view of that name. -/
theorem attempt_read (views : NameMap ViewKind) {collection : String}
    (allowed : (context.access.decide collection .read).allowed = true)
    (reads : command.ReadsViewOf collection) :
    Ledger.attempt context views command =
      ((Reading.readable views collection).mapError .reading).map fun _ => (.read, views) := by
  have steps : Ledger.attempt context views command = (context.permits collection .read >>= fun _ =>
      (Reading.readable views collection).mapError .reading >>= fun _ => .ok (.read, views)) := by
    cases reads <;> rfl
  rw [steps, Context.permits_of_allowed allowed]
  cases (Reading.readable views collection).mapError Failure.reading <;> rfl

end Command

/-- After a create that succeeds, a caller who may read gets documents from every read of the
collection if its name is plain; if it is not, every read is refused for the name. -/
theorem created_views_are_read (store : ViewStore σ) (context : Context σ)
    (reached : context.database = .ok store.toDatabase) (world : World σ)
    (intact : store.Intact world.state) (collection : String) (materialized : Bool)
    (report : Report) (after : World σ)
    (created : (Command.create collection materialized).run context world = .ok report after)
    (allowed : (context.access.decide collection .read).allowed = true) (command : Command)
    (reads : command.ReadsViewOf collection) :
    (Sql.isPlain collection = true → ∃ found last, command.run context after = .ok found last) ∧
    (Sql.isPlain collection = false →
      ∃ last, command.run context after = .error (.reading (.invalidName collection)) last) := by
  obtain ⟨_, _, _, _, stocked⟩ :=
    (Command.stocked_create reached materialized).of_ok ⟨intact, rfl⟩ created
  have attempted := Command.attempt_read
    ((store.views world.state).insert (Sql.viewName collection) (.ofFlag materialized))
      allowed reads
  constructor
  · intro plain
    simp only [Reading.readable, plain, NameMap.contains, NameMap.get?_insert, if_true,
      Option.isSome_some] at attempted
    obtain ⟨found, last, ran, _⟩ := Command.run_of_attempt reached stocked attempted
    exact ⟨found, last, ran⟩
  · intro odd
    simp only [Reading.readable, odd, Bool.false_eq_true, if_false] at attempted
    exact Command.run_of_attempt_error reached stocked attempted

def postsContext : Context Catalog where
  schema := .ok
    { collections := .ofList [("my-posts", ⟨.ofList [("id", ⟨false, []⟩)]⟩),
        ("posts", ⟨.ofList [("id", ⟨false, []⟩)]⟩)]
      relations := [] }
  classify := .standard
  policy := .standard
  access := some ⟨false, [⟨"posts", .create⟩, ⟨"posts", .read⟩,
    ⟨"my-posts", .create⟩, ⟨"my-posts", .read⟩]⟩
  database := .ok Catalog.database

theorem created_views_are_read_posts :
    postsContext.database = .ok Catalog.store.toDatabase ∧ Catalog.store.Intact Catalog.empty ∧
      (postsContext.access.decide "posts" .read).allowed = true ∧ Sql.isPlain "posts" = true ∧
      ∃ report after found last,
        (Command.create "posts" true).run postsContext ⟨Catalog.empty, []⟩ = .ok report after ∧
        (Command.find "posts" [("id", "1")] (Page.first 10)).run postsContext after =
          .ok found last := by
  have allowed : (postsContext.access.decide "posts" .read).allowed = true := by decide
  have attempted : Ledger.attempt postsContext Catalog.empty.views (.create "posts" true) =
      .ok (.created "posts_view" .materialized, .ofList [("posts_view", .materialized)]) := by
    with_unfolding_all rfl
  have stocked : Catalog.store.Stocked Catalog.empty.views (World.mk Catalog.empty []).state :=
    ⟨rfl, rfl⟩
  obtain ⟨report, after, created, _⟩ := Command.run_of_attempt rfl stocked attempted
  have reads :=
    created_views_are_read Catalog.store postsContext rfl ⟨Catalog.empty, []⟩ rfl "posts" true
      report after created allowed _ (.find [("id", "1")] (Page.first 10))
  obtain ⟨found, last, ran⟩ := reads.1 (by decide)
  exact ⟨rfl, rfl, allowed, by decide, report, after, found, last, created, ran⟩

/-- A view that can be created and cannot be read. -/
theorem created_view_refused :
    postsContext.database = .ok Catalog.store.toDatabase ∧ Catalog.store.Intact Catalog.empty ∧
      (postsContext.access.decide "my-posts" .create).allowed = true ∧
      (postsContext.access.decide "my-posts" .read).allowed = true ∧
      ∃ report after,
        (Command.create "my-posts" false).run postsContext ⟨Catalog.empty, []⟩ = .ok report after ∧
        ∀ command, Command.ReadsViewOf "my-posts" command → ∃ last,
          command.run postsContext after = .error (.reading (.invalidName "my-posts")) last := by
  have allowed : (postsContext.access.decide "my-posts" .read).allowed = true := by decide
  have attempted : Ledger.attempt postsContext Catalog.empty.views (.create "my-posts" false) =
      .ok (.created "my-posts_view" .plain, .ofList [("my-posts_view", .plain)]) := by
    with_unfolding_all rfl
  have stocked : Catalog.store.Stocked Catalog.empty.views (World.mk Catalog.empty []).state :=
    ⟨rfl, rfl⟩
  obtain ⟨report, after, created, left⟩ := Command.run_of_attempt rfl stocked attempted
  refine ⟨rfl, rfl, by decide, allowed, report, after, created, fun command reads => ?_⟩
  exact Command.run_of_attempt_error rfl left (Command.attempt_read _ allowed reads)

end DocumentViews
