import DocumentViews.Proofs.Resolution.Chains

/-! Why a resolution fails.
A walk fails only where it looks a collection up, and then for that very collection, however deep it
is. Apart from the root it looks up only what a relation names and the policy admits. So a schema
whose relations name nothing else than collections, or what is excluded anyway, always resolves. -/
namespace DocumentViews

def Relation.mentioned (relation : Relation) : List String :=
  relation.collection :: (relation.related.toList ++ relation.allowed.getD [])

namespace Walk

variable {α β : Type} {cause : String → Prop}

/-- Whatever collection the walk fails for, it is one of these. -/
def FailsFor (cause : String → Prop) (walk : Walk α) : Prop :=
  ∀ missing, walk.outcome = .error missing → cause missing.name

namespace FailsFor

theorem pure (value : α) : FailsFor cause (Pure.pure value : Walk α) := by
  intro missing failed
  cases failed

theorem missing {name : String} (held : cause name) :
    FailsFor cause (Walk.missing name : Walk α) := by
  intro missing failed
  cases failed
  exact held

theorem bind {first : Walk α} {next : α → Walk β} (h : FailsFor cause first)
    (later : ∀ value, FailsFor cause (next value)) : FailsFor cause (first >>= next) := by
  intro missing failed
  rw [outcome_bind] at failed
  cases reached : first.outcome with
  | error earlier =>
    rw [reached] at failed
    cases failed
    exact h missing reached
  | ok value =>
    rw [reached] at failed
    exact later value missing failed

theorem noted (entry : Note) (value : α) : FailsFor cause (do note entry; Pure.pure value) := by
  apply bind
  · intro missing failed
    cases failed
  · intro _
    exact pure value

theorem gather {step : α → Walk (Option β)} {list : List α}
    (each : ∀ item ∈ list, FailsFor cause (step item)) :
    FailsFor cause (Walk.gather step list) := by
  induction list with
  | nil => exact pure []
  | cons item rest ih =>
    apply (each item List.mem_cons_self).bind
    intro found
    apply (ih fun other member => each other (List.mem_cons_of_mem _ member)).bind
    intro others
    exact pure _

end FailsFor

end Walk

/-- A name that the schema knows from its relations only, and that the policy admits. -/
structure Scope.Dangles (scope : Scope) (name : String) : Prop where
  unknown : scope.snapshot.collection? name = none
  admitted : scope.policy.excludes name = false
  mentioned : ∃ relation ∈ scope.snapshot.relations, name ∈ relation.mentioned

namespace Trail

open Walk (FailsFor)

variable {scope : Scope} {trail : Trail scope} {descend : trail.Descent}

theorem target_fails (below : ∀ next going, FailsFor scope.Dangles (descend next going))
    {name : String} {collection : Collection}
    (known : scope.snapshot.collection? name = some collection) :
    FailsFor scope.Dangles (trail.target descend name collection known) := by
  unfold target
  split
  · exact .pure _
  · apply (below _ _).bind
    intro fields
    exact .pure _

theorem sortField_fails (field : String) (relation : Relation) (kind : RelationKind) (name : String)
    (collection : Collection) :
    FailsFor scope.Dangles (trail.sortField field relation kind name collection) := by
  unfold sortField
  split
  · exact .pure _
  · exact .pure _
  · split
    · exact .pure _
    · exact .noted _ _

theorem joined_fails (below : ∀ next going, FailsFor scope.Dangles (descend next going))
    (field : String) (relation : Relation) (kind : RelationKind) (join : Join) {name : String}
    {collection : Collection} (known : scope.snapshot.collection? name = some collection) :
    FailsFor scope.Dangles (trail.joined descend field relation kind join
      name collection known) := by
  unfold joined
  generalize (if kind = .manyToOne then (trail.here, name) else (name, trail.here)) = holders
  dsimp only
  split
  · apply (sortField_fails field relation kind name collection).bind
    intro sort
    apply (target_fails below known).bind
    intro shape
    exact .pure _
  · exact .noted _ _

theorem single_fails (below : ∀ next going, FailsFor scope.Dangles (descend next going))
    (field : String) {relation : Relation} (member : relation ∈ scope.snapshot.relations)
    (kind : RelationKind) {name : String} (mentioned : name ∈ relation.mentioned) :
    FailsFor scope.Dangles (trail.single descend field relation kind name) := by
  unfold single
  split
  · exact .noted _ _
  · rename_i admitted
    split
    · exact .noted _ _
    split
    · exact .noted _ _
    split
    · exact .noted _ _
    split
    · rename_i unknown
      exact .missing ⟨unknown, Bool.eq_false_iff.mpr admitted, relation, member, mentioned⟩
    · exact joined_fails below field relation kind _ _

theorem option_fails (below : ∀ next going, FailsFor scope.Dangles (descend next going))
    (field : String) {relation : Relation} (member : relation ∈ scope.snapshot.relations)
    {name : String} (mentioned : name ∈ relation.mentioned) :
    FailsFor scope.Dangles (trail.option descend field name) := by
  unfold option
  split
  · exact .noted _ _
  · rename_i kept
    split
    · rename_i unknown
      obtain ⟨admitted, _⟩ := filters_eq_false (Bool.eq_false_iff.mpr kept)
      exact .missing ⟨unknown, admitted, relation, member, mentioned⟩
    · apply (target_fails below _).bind
      intro shape
      exact .pure _

theorem several_fails (below : ∀ next going, FailsFor scope.Dangles (descend next going))
    (field : String) {relation : Relation} (member : relation ∈ scope.snapshot.relations) :
    FailsFor scope.Dangles (trail.several descend field relation) := by
  unfold several
  dsimp only
  split
  · refine (FailsFor.gather fun name allowed => ?_).bind fun targets => ?_
    · exact option_fails below field member
        (List.mem_cons_of_mem _ (List.mem_append_right _ allowed))
    · split
      · exact .noted _ _
      · exact .pure _
  · exact .noted _ _

theorem nested_fails (below : ∀ next going, FailsFor scope.Dangles (descend next going))
    (field : String) (info : FieldInfo) {relation : Relation}
    (member : relation ∈ scope.snapshot.relations) (kind : RelationKind) :
    FailsFor scope.Dangles (trail.nested descend field info relation kind) := by
  unfold nested
  split
  · exact several_fails below field member
  split
  · split
    · exact .noted _ _
    · rename_i name related
      have mentioned : name ∈ relation.mentioned := by simp [Relation.mentioned, related]
      exact single_fails below field member _ mentioned
  · exact single_fails below field member _ List.mem_cons_self

theorem field_fails (below : ∀ next going, FailsFor scope.Dangles (descend next going))
    (entry : String × FieldInfo) : FailsFor scope.Dangles (trail.field descend entry) := by
  unfold field
  split
  · exact .pure _
  · rename_i relation kind applies
    apply (nested_fails below entry.1 entry.2 (Scope.relationFor_some applies).1 kind).bind
    intro found
    exact .pure _

theorem expand_fails (trail : Trail scope) : FailsFor scope.Dangles trail.expand := by
  -- by the recursion of the walk, so what lies below is known to fail in this way only
  induction trail using expand.induct with
  | case1 trail ih =>
    rw [expand]
    apply FailsFor.gather
    intro entry _
    exact field_fails ih entry

end Trail

theorem Scope.resolve_fails (scope : Scope) {missing : MissingCollection}
    (failed : scope.resolve.outcome = .error missing) :
    scope.snapshot.collection? missing.name = none ∧
      (missing.name = scope.root ∨ scope.Dangles missing.name) := by
  unfold resolve at failed
  split at failed
  · rename_i unknown
    cases failed
    exact ⟨unknown, .inl rfl⟩
  · split at failed
    · cases failed
    · rename_i collection known _
      have walked : Walk.FailsFor scope.Dangles (Trail.mk scope.root [] collection known).expand :=
        Trail.expand_fails _
      have dangles := (walked.bind fun fields => .pure (Shape.mk scope.root fields)) missing failed
      exact ⟨dangles.unknown, .inr dangles⟩

/-- A resolution fails for a collection that is missing, and that is the root or is admitted and
named by some relation. Where the root is known, and all that relations name is known or
excluded, it succeeds. -/
theorem resolution_fails_for_dangling (scope : Scope) :
    (∀ missing, scope.resolve.outcome = .error missing →
      scope.snapshot.collection? missing.name = none ∧
        (missing.name = scope.root ∨ scope.policy.excludes missing.name = false ∧
          ∃ relation ∈ scope.snapshot.relations, missing.name ∈ relation.mentioned)) ∧
    ((scope.snapshot.collection? scope.root).isSome →
      (∀ relation ∈ scope.snapshot.relations, ∀ name ∈ relation.mentioned,
        (scope.snapshot.collection? name).isSome ∨ scope.policy.excludes name = true) →
      ∃ shape, scope.resolve.outcome = .ok shape) := by
  constructor
  · intro missing failed
    obtain ⟨unknown, root | dangles⟩ := scope.resolve_fails failed
    · exact ⟨unknown, .inl root⟩
    · exact ⟨unknown, .inr ⟨dangles.admitted, dangles.mentioned⟩⟩
  · intro rooted closed
    cases outcome : scope.resolve.outcome with
    | ok shape => exact ⟨shape, rfl⟩
    | error missing =>
      exfalso
      obtain ⟨unknown, root | dangles⟩ := scope.resolve_fails outcome
      · rw [← root, unknown] at rooted
        cases rooted
      · obtain ⟨relation, member, mentioned⟩ := dangles.mentioned
        rcases closed relation member _ mentioned with known | excluded
        · rw [unknown] at known
          cases known
        · rw [dangles.admitted] at excluded
          cases excluded

def writtenBy (authors : String) : Scope :=
  { pagesScope with
    snapshot := { pagesScope.snapshot with
      relations := [
        ⟨"pages", "author", some authors,
          some ⟨some "pages", some "author", some authors, some "id"⟩, none⟩,
        ⟨"pages", "item", none, none, some ⟨none, none, some ["notes", "people"], none, none⟩⟩] } }

/-- The missing collection matters unless it is excluded. -/
theorem resolution_fails_for_dangling_authors :
    (writtenBy "authors").resolve.outcome = .error ⟨"authors"⟩ ∧
      (writtenBy "authors").snapshot.collection? "authors" = none ∧
      (∃ relation ∈ (writtenBy "authors").snapshot.relations, "authors" ∈ relation.mentioned) ∧
      (writtenBy "directus_users").snapshot.collection? "directus_users" = none ∧
      ∃ shape, (writtenBy "directus_users").resolve.outcome = .ok shape := by
  have failed : (writtenBy "authors").resolve.outcome = .error ⟨"authors"⟩ := by
    with_unfolding_all rfl
  obtain ⟨unknown, root | ⟨_, named⟩⟩ :=
    (resolution_fails_for_dangling (writtenBy "authors")).1 _ failed
  · exact absurd root (by decide)
  · have resolved :=
      (resolution_fails_for_dangling (writtenBy "directus_users")).2 rfl (by decide +kernel)
    exact ⟨failed, unknown, named, rfl, resolved⟩

end DocumentViews
