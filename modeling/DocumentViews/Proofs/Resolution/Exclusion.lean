import DocumentViews.Proofs.NameMap
import DocumentViews.Proofs.Resolution.Chains
import DocumentViews.Proofs.Resolution.Narrowing

/-! Leaving out more collections prunes the shape and changes nothing else.
The pruned shape is computed from the old one alone, with the schema at hand to tell which fields
have a column to fall back to. No other decision of the walk is disturbed, at whatever depth. -/
namespace DocumentViews

def Snapshot.isVirtual (snapshot : Snapshot) (collection field : String) : Bool :=
  ((snapshot.collection? collection).bind fun found => found.fields.get? field).any fun info =>
    info.virtual

namespace Shape

/-- What stands for a nested field without targets: its column, unless it is virtual. -/
def fallback (snapshot : Snapshot) (holder field : String) : List Field :=
  if snapshot.isVirtual holder field then [] else [.scalar field]

mutual
/-- The shape without the targets that are left out. -/
def pruned (snapshot : Snapshot) (excludes : String → Bool) : Shape → Shape
  | .mk collection fields => .mk collection (prunedFields snapshot excludes collection fields)

def prunedFields (snapshot : Snapshot) (excludes : String → Bool) (holder : String) :
    List Field → List Field
  | [] => []
  | .scalar name :: rest => .scalar name :: prunedFields snapshot excludes holder rest
  | .relation name link target :: rest =>
    (if excludes target.collection then fallback snapshot holder name
      else [.relation name link (pruned snapshot excludes target)]) ++
        prunedFields snapshot excludes holder rest
  | .polymorphic name discriminant targets :: rest =>
    (match prunedTargets snapshot excludes targets with
      | [] => fallback snapshot holder name
      | left => [.polymorphic name discriminant left]) ++ prunedFields snapshot excludes holder rest

def prunedTargets (snapshot : Snapshot) (excludes : String → Bool) : List Shape → List Shape
  | [] => []
  | target :: rest =>
    if excludes target.collection then prunedTargets snapshot excludes rest
    else pruned snapshot excludes target :: prunedTargets snapshot excludes rest
end

variable {snapshot : Snapshot} {excludes : String → Bool}

theorem prunedFields_scalars (holder : String) (collection : Collection) :
    prunedFields snapshot excludes holder collection.scalars = collection.scalars := by
  unfold Collection.scalars
  induction collection.columns with
  | nil => rfl
  | cons name rest ih => rw [List.map_cons, prunedFields, ih]

end Shape

namespace Trail

variable {scope : Scope} {policy : Policy} {trail : Trail scope}

theorem prunedTargets_of_forall {lefts targets : List Shape}
    (h : List.Forall₂ (fun left target => left = target.pruned scope.snapshot policy.excludes) lefts
      (remaining policy targets)) :
    Shape.prunedTargets scope.snapshot policy.excludes targets = lefts := by
  induction targets generalizing lefts with
  | nil =>
    cases h
    rfl
  | cons target rest ih =>
    rw [Shape.prunedTargets]
    split
    · rename_i cut
      rw [remaining, List.filter_cons_of_neg (by simp [cut])] at h
      exact ih h
    · rename_i kept
      rw [remaining, List.filter_cons_of_pos (by simp [kept])] at h
      cases h with
      | cons here others => rw [ih others, here]

theorem fallback_eq {entry : String × FieldInfo}
    (member : entry ∈ trail.collection.fields.entries) :
    Shape.fallback scope.snapshot trail.here entry.1 = (plain entry.1 entry.2).toList := by
  have held := (NameMap.mem_entries_iff _ _).mp member
  have same : scope.snapshot.isVirtual trail.here entry.1 = entry.2.virtual := by
    rw [Snapshot.isVirtual, trail.known, Option.bind_some, held]
    rfl
  rw [Shape.fallback, same, plain]
  split <;> rfl

theorem leaves_pruned {entry : String × FieldInfo}
    (member : entry ∈ trail.collection.fields.entries) {left found : Option Field}
    (h : Leaves policy (fun left target => left = target.pruned scope.snapshot policy.excludes)
      entry left found)
    (rest : List Field) :
    left.toList ++ Shape.prunedFields scope.snapshot policy.excludes trail.here rest =
      Shape.prunedFields scope.snapshot policy.excludes trail.here (found.toList ++ rest) := by
  obtain ⟨inner, outer, remains, rfl, rfl⟩ := h
  have column := trail.fallback_eq member
  cases remains with
  | nothing =>
    rw [Option.none_or, plain]
    split
    · rfl
    · rfl
  | joined admitted same =>
    subst same
    show _ = Shape.prunedFields _ _ _ (.relation entry.1 _ _ :: rest)
    rw [Shape.prunedFields, if_neg (Bool.eq_false_iff.mp admitted)]
    rfl
  | excluded cut =>
    show (plain entry.1 entry.2).toList ++ _ =
      Shape.prunedFields _ _ _ (.relation entry.1 _ _ :: rest)
    rw [Shape.prunedFields, if_pos cut, column]
  | @chosen discriminant lefts targets inhabited each =>
    obtain ⟨first, others, rfl⟩ := List.exists_cons_of_ne_nil inhabited
    show _ = Shape.prunedFields _ _ _ (.polymorphic entry.1 _ _ :: rest)
    rw [Shape.prunedFields, prunedTargets_of_forall each]
    rfl
  | emptied gone =>
    rw [← List.forall₂_nil_left_iff] at gone
    show (plain entry.1 entry.2).toList ++ _ =
      Shape.prunedFields _ _ _ (.polymorphic entry.1 _ _ :: rest)
    rw [Shape.prunedFields, prunedTargets_of_forall gone, column]

theorem target_pruned (depth : policy.maxDepth = scope.policy.maxDepth)
    (revisits : policy.revisitRoot = scope.policy.revisitRoot)
    (below : ∀ next : Trail scope, trail.HopsTo next →
      Walk.Tracks
        (fun lefts fields =>
          lefts = Shape.prunedFields scope.snapshot policy.excludes next.here fields)
        (next.under policy).expand next.expand) :
    TracksBelow policy (fun left target => left = target.pruned scope.snapshot policy.excludes)
      trail (fun next _ => next.expand) (fun next _ => next.expand) := by
  intro name collection known _
  let next := trail.onward name collection known
  have ends : (next.under policy).ends = next.ends := by
    show ((next.here == scope.root && !policy.revisitRoot) ||
      decide (policy.maxDepth.toNat ≤ next.repetitions)) = _
    rw [depth, revisits]
    rfl
  unfold target
  split
  · rename_i stop
    split
    · apply Walk.Tracks.pure
      rw [Shape.pruned, Shape.prunedFields_scalars]
    · rename_i going
      exact absurd (ends.symm.trans stop) going
  · rename_i going
    split
    · rename_i stop
      exact absurd (ends.trans stop) going
    · rename_i onward
      apply (below next ⟨rfl, Bool.eq_false_iff.mpr onward⟩).bind
      intro lefts fields _ same
      apply Walk.Tracks.pure
      rw [Shape.pruned, same]
      rfl

theorem expand_pruned (narrows : policy.Narrows scope.policy)
    (depth : policy.maxDepth = scope.policy.maxDepth) (trail : Trail scope) :
    Walk.Tracks
      (fun lefts fields =>
        lefts = Shape.prunedFields scope.snapshot policy.excludes trail.here fields)
      (trail.under policy).expand trail.expand := by
  induction trail using Trail.expand.induct with
  | case1 trail ih =>
    rw [expand, expand]
    apply Walk.Tracks.gather (Leaves policy fun left target =>
      left = target.pruned scope.snapshot policy.excludes)
    · rfl
    · rintro entry member left found _ fields - leaves rfl
      exact leaves_pruned member leaves fields
    · intro entry _
      exact field_tracks narrows (target_pruned depth narrows.revisitRoot ih) entry

end Trail

theorem Policy.excludes_of_listed {policy wide : Policy}
    (names : ∀ name ∈ wide.excluded.keys, name ∈ policy.excluded.keys)
    (starts : ∀ start ∈ wide.excludedStarts, start ∈ policy.excludedStarts) {name : String}
    (h : wide.excludes name = true) : policy.excludes name = true := by
  rw [excludes, Bool.or_eq_true, List.any_eq_true] at h ⊢
  rcases h with listed | ⟨start, member, front⟩
  · left
    exact (NameMap.mem_keys_iff _ _).mp (names name ((NameMap.mem_keys_iff _ _).mpr listed))
  · right
    exact ⟨start, starts start member, front⟩

/-- Under a policy that leaves out more, the walk finds the old shape without the targets
left out. -/
theorem more_excluded_prunes (scope : Scope) (policy : Policy)
    (depth : policy.maxDepth = scope.policy.maxDepth)
    (revisits : policy.revisitRoot = scope.policy.revisitRoot)
    (more : ∀ name, scope.policy.excludes name = true → policy.excludes name = true)
    (root : policy.excludes scope.root = false) {shape : Shape}
    (h : scope.resolve.outcome = .ok shape) :
    (scope.under policy).resolve.outcome = .ok (shape.pruned scope.snapshot policy.excludes) := by
  have narrows : policy.Narrows scope.policy := ⟨more, revisits⟩
  have walked : Walk.Tracks (fun left found => left = found.pruned scope.snapshot policy.excludes)
      (scope.under policy).resolve scope.resolve := by
    apply Scope.resolve_tracks policy (root.trans (narrows.admitted root).symm)
    · intro collection cut
      cases root.symm.trans cut
    · rintro ⟨_, _, collection, known⟩ rfl rfl fields reached
      obtain ⟨lefts, ended, rfl⟩ := Trail.expand_pruned narrows depth _ fields reached
      exact ⟨_, ended, rfl⟩
  obtain ⟨left, resolved, rfl⟩ := walked shape h
  exact resolved

/-- Pages without people lose their author and one kind of item; without notes as well, the
item is a column again. -/
theorem more_excluded_prunes_pages :
    let fewer : Policy := { Policy.standard with excludedStarts := ["directus_", "peo"] }
    let fewest : Policy :=
      { fewer with excluded := Policy.names ["notes", "directus_users", "directus_files"] }
    pagesScope.resolve.outcome = .ok pagesShape ∧
      (pagesScope.under fewer).resolve.outcome =
        .ok (.mk "pages" [.scalar "author", .scalar "collection",
          .polymorphic "item" "collection" [.mk "notes" [.scalar "id"]]]) ∧
      (pagesScope.under fewest).resolve.outcome =
        .ok (.mk "pages" [.scalar "author", .scalar "collection", .scalar "item"]) := by
  intro fewer fewest
  have resolved : pagesScope.resolve.outcome = .ok pagesShape := by with_unfolding_all rfl
  have first := more_excluded_prunes pagesScope fewer rfl rfl
    (fun _ => Policy.excludes_of_listed (by decide +kernel) (by decide +kernel)) rfl resolved
  have second := more_excluded_prunes pagesScope fewest rfl rfl
    (fun _ => Policy.excludes_of_listed (by decide +kernel) (by decide +kernel)) rfl resolved
  exact ⟨resolved, first, second⟩

end DocumentViews
