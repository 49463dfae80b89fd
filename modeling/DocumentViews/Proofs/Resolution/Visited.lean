import DocumentViews.Proofs.Resolution.Step

/-! The nodes of a resolved shape and the trails that lead to them.
Each node stands at the end of a chain of collections from the root. In a resolved shape that chain
is a trail of the walk, and the fields of the node are what the walk shows there. Properties of all
nodes follow from this and from what one collection may turn into. -/
namespace DocumentViews

/-- The nodes of a shape, each with the collections above it, its parent first. -/
inductive Shape.Node (shape : Shape) : List String → Shape → Prop
  | root : shape.Node [] shape
  | step {above : List String} {node target : Shape} {field : Field}
      (within : shape.Node above node) (member : field ∈ node.fields)
      (leads : target ∈ field.targets) :
      shape.Node (node.collection :: above) target

theorem Field.isNested_of_target {field : Field} {target : Shape} (leads : target ∈ field.targets) :
    field.isNested = true := by
  cases field with
  | scalar name => cases leads
  | relation name link target => rfl
  | polymorphic name discriminant targets => rfl

theorem Collection.isNested_scalars {collection : Collection} {field : Field}
    (member : field ∈ collection.scalars) : field.isNested = false := by
  obtain ⟨name, _, rfl⟩ := List.mem_map.mp member
  rfl

namespace Trail

variable {scope : Scope} {trail : Trail scope}

/-- Whether the walk shows the columns only: of an excluded root, and below the root where the trail
ends. -/
def halts (trail : Trail scope) : Bool :=
  match trail.above with
  | [] => scope.policy.excludes trail.here
  | _ :: _ => trail.ends

def HasFields (trail : Trail scope) (fields : List Field) : Prop :=
  if trail.halts then fields = trail.collection.scalars else trail.expand.outcome = .ok fields

theorem HasFields.isNested_eq_false {fields : List Field} (h : trail.HasFields fields)
    (stop : trail.halts = true) {field : Field} (member : field ∈ fields) :
    field.isNested = false := by
  rw [HasFields, if_pos stop] at h
  exact Collection.isNested_scalars (h ▸ member)

theorem HasFields.expand_ok {fields : List Field} (h : trail.HasFields fields)
    (going : trail.halts = false) :
    trail.expand.outcome = .ok fields := by
  rwa [HasFields, if_neg (Bool.eq_false_iff.mp going)] at h

theorem halts_of_above {parent : String} {rest : List String}
    (path : trail.above = parent :: rest) :
    trail.halts = trail.ends := by
  unfold halts
  split
  · rename_i none
    rw [path] at none
    cases none
  · rfl

theorem eq_of_path {one other : Trail scope} (here : one.here = other.here)
    (above : one.above = other.above) :
    one = other := by
  obtain ⟨name, path, collection, known⟩ := one
  obtain ⟨name', path', collection', known'⟩ := other
  subst here above
  obtain rfl : collection = collection' := Option.some.inj (known.symm.trans known')
  rfl

theorem Makes.lands {descend : trail.Descent} {entry : String × FieldInfo} {field : Field}
    (h : trail.Makes descend entry field) {target : Shape} (leads : target ∈ field.targets) :
    trail.Lands descend target := by
  cases h with
  | column real => cases leads
  | joins joins => exact List.mem_singleton.mp leads ▸ joins.lands
  | chooses chooses => exact chooses.lands target leads

end Trail

/-- A node that the walk shows at the end of the chain of collections above it. -/
def Visited (scope : Scope) (above : List String) (node : Shape) : Prop :=
  ∃ trail : Trail scope, trail.here = node.collection ∧ trail.above = above ∧
    trail.HasFields node.fields

variable {scope : Scope}

theorem Trail.Lands.visited {trail : Trail scope} {shape : Shape}
    (h : trail.Lands (fun next _ => next.expand) shape) :
    Visited scope (trail.here :: trail.above) shape := by
  obtain ⟨next, here, path, shown⟩ := h
  refine ⟨next, here, path, ?_⟩
  rw [HasFields, halts_of_above path]
  rcases shown with ⟨stop, columns⟩ | ⟨going, below⟩
  · rwa [if_pos stop]
  · rwa [if_neg (Bool.eq_false_iff.mp going.2)]

namespace Visited

variable {above : List String} {node : Shape}

theorem nested (h : Visited scope above node) {field : Field} (member : field ∈ node.fields)
    (nests : field.isNested = true) :
    ∃ trail : Trail scope, trail.here = node.collection ∧ trail.above = above ∧
      trail.halts = false ∧ ∃ entry ∈ trail.collection.fields.entries,
      trail.Makes (fun next _ => next.expand) entry field := by
  obtain ⟨trail, here, path, shown⟩ := h
  cases stop : trail.halts with
  | true =>
    rw [shown.isNested_eq_false stop member] at nests
    cases nests
  | false => exact ⟨trail, here, path, stop, Trail.expand_makes (shown.expand_ok stop) member⟩

/-- The step of a visit: from a node to the targets of its fields. -/
theorem below (h : Visited scope above node) {field : Field} (member : field ∈ node.fields)
    {target : Shape} (leads : target ∈ field.targets) :
    Visited scope (node.collection :: above) target := by
  obtain ⟨trail, here, path, _, entry, _, made⟩ := h.nested member (Field.isNested_of_target leads)
  have visited := (made.lands leads).visited
  rwa [here, path] at visited

end Visited

theorem Scope.resolve_of_unknown (unknown : scope.snapshot.collection? scope.root = none) :
    scope.resolve = Walk.missing scope.root := by
  unfold Scope.resolve
  split
  · rfl
  · rename_i known
    cases unknown.symm.trans known

theorem Scope.resolve_of_known {collection : Collection}
    (known : scope.snapshot.collection? scope.root = some collection) :
    scope.resolve =
      if scope.policy.excludes scope.root then pure (.mk scope.root collection.scalars)
      else (⟨scope.root, [], collection, known⟩ : Trail scope).expand >>= fun fields =>
        pure (.mk scope.root fields) := by
  unfold Scope.resolve
  split
  · rename_i unknown
    cases unknown.symm.trans known
  · rename_i other again
    cases again.symm.trans known
    rfl

theorem Scope.resolve_visited {shape : Shape} (h : scope.resolve.outcome = .ok shape) :
    Visited scope [] shape := by
  unfold Scope.resolve at h
  split at h
  · cases h
  · rename_i collection known
    let start : Trail scope := ⟨scope.root, [], collection, known⟩
    have halts : start.halts = scope.policy.excludes scope.root := rfl
    split at h
    · rename_i stop
      cases Walk.pure_ok h
      refine ⟨start, rfl, rfl, ?_⟩
      rw [Trail.HasFields, if_pos (halts.trans stop)]
      rfl
    · rename_i going
      obtain ⟨fields, walked, h⟩ := Walk.bind_ok h
      cases Walk.pure_ok h
      refine ⟨start, rfl, rfl, ?_⟩
      rw [Trail.HasFields, halts, if_neg going]
      exact walked

/-- The walk visits every node of the shape that it returns. -/
theorem Scope.node_visited {shape : Shape} (h : scope.resolve.outcome = .ok shape)
    {above : List String} {node : Shape} (reached : shape.Node above node) :
    Visited scope above node := by
  induction reached with
  | root => exact resolve_visited h
  | step within member leads ih => exact ih.below member leads

end DocumentViews
