import DocumentViews.Resolution.Resolve

/-! What one collection of a walk may turn into.
A successful walk is taken apart once, function by function, with the walk below a target left as a
parameter. Every guard that a field has passed is kept, so that later results never open the walk
again. Notes and failures are not described here. -/
namespace DocumentViews

namespace Walk

variable {α β γ : Type}

theorem bind_ok {first : Walk α} {next : α → Walk β} {result : β}
    (h : (first >>= next).outcome = .ok result) :
    ∃ value, first.outcome = .ok value ∧ (next value).outcome = .ok result := by
  rw [outcome_bind] at h
  cases reached : first.outcome with
  | error missing => rw [reached] at h; cases h
  | ok value => rw [reached] at h; exact ⟨value, rfl, h⟩

theorem pure_ok {value result : α} (h : (pure value : Walk α).outcome = .ok result) :
    value = result :=
  Except.ok.inj h

theorem note_none_ok {entry : Note} {result : Option α}
    (h : (do note entry; pure none : Walk (Option α)).outcome = .ok result) : result = none := by
  obtain ⟨_, _, h⟩ := bind_ok h
  exact (pure_ok h).symm

theorem gather_cons_ok {step : α → Walk (Option β)} {item : α} {rest : List α} {found : List β}
    (h : (gather step (item :: rest)).outcome = .ok found) :
    ∃ head others, (step item).outcome = .ok head ∧ (gather step rest).outcome = .ok others ∧
      found = head.toList ++ others := by
  obtain ⟨head, made, h⟩ := bind_ok h
  obtain ⟨others, later, h⟩ := bind_ok h
  exact ⟨head, others, made, later, (pure_ok h).symm⟩

theorem mem_gather {step : α → Walk (Option β)} {list : List α} {found : List β} {value : β}
    (h : (gather step list).outcome = .ok found) (member : value ∈ found) :
    ∃ item ∈ list, (step item).outcome = .ok (some value) := by
  induction list generalizing found with
  | nil =>
    cases pure_ok h
    cases member
  | cons item rest ih =>
    obtain ⟨head, others, made, later, rfl⟩ := gather_cons_ok h
    rcases List.mem_append.mp member with here | there
    · have same : head = some value := Option.mem_toList.mp here
      exact ⟨item, List.mem_cons_self, same ▸ made⟩
    · obtain ⟨origin, known, made⟩ := ih later there
      exact ⟨origin, List.mem_cons_of_mem item known, made⟩

/-- A label that each step fixes beforehand labels the whole result. -/
theorem map_gather {step : α → Walk (Option β)} {label : β → γ} {told : α → Option γ}
    (fixed : ∀ item result, (step item).outcome = .ok result → result.map label = told item)
    {list : List α} {found : List β} (h : (gather step list).outcome = .ok found) :
    found.map label = list.filterMap told := by
  induction list generalizing found with
  | nil =>
    cases pure_ok h
    rfl
  | cons item rest ih =>
    obtain ⟨head, others, made, later, rfl⟩ := gather_cons_ok h
    have told := fixed item head made
    rw [List.map_append, ih later]
    cases head with
    | none => rw [List.filterMap_cons_none told.symm]; rfl
    | some value => rw [List.filterMap_cons_some told.symm]; rfl

end Walk

theorem Snapshot.hasField_of_known {snapshot : Snapshot} {name field : String}
    {collection : Collection} (known : snapshot.collection? name = some collection)
    (held : collection.fields.contains field) :
    snapshot.hasField name field := by
  rw [hasField, known]
  exact held

theorem Scope.ne_root {scope : Scope} {name : String}
    (h : (name == scope.root && !scope.policy.revisitRoot) = false)
    (fixed : scope.policy.revisitRoot = false) :
    name ≠ scope.root := by
  simpa [fixed] using h

theorem Scope.relationFor_some {scope : Scope} {name field : String} {collection : Collection}
    {relation : Relation} {kind : RelationKind}
    (h : scope.relationFor name collection field = some (relation, kind)) :
    relation ∈ scope.snapshot.relations ∧ scope.classify relation name field = some kind := by
  obtain ⟨found, member, made⟩ := List.exists_of_findSome?_eq_some h
  obtain ⟨_, classified, same⟩ := Option.map_eq_some_iff.mp made
  cases same
  exact ⟨(List.mem_filter.mp member).1, classified⟩

namespace Trail

variable {scope : Scope}

/-- A shape one hop further: the columns of its collection where the trail ends, else what the walk
below finds. -/
def Lands (trail : Trail scope) (descend : trail.Descent) (shape : Shape) : Prop :=
  ∃ next : Trail scope, next.here = shape.collection ∧ next.above = trail.here :: trail.above ∧
    (next.ends = true ∧ shape.fields = next.collection.scalars ∨
      ∃ going : trail.HopsTo next, (descend next going).outcome = .ok shape.fields)

/-- The relation that applies to a field, the kind it is nested as and the collection it
leads to. -/
structure Relates (trail : Trail scope) (entry : String × FieldInfo) (relation : Relation)
    (kind : RelationKind) (name : String) : Prop where
  applies : ∃ classified, scope.relationFor trail.here trail.collection entry.1 =
    some (relation, classified) ∧ kind = if classified = .oneToMany ∧ entry.2.hasTag "m2a" then
    .manyToAny else classified
  leads : (if kind = .manyToOne then relation.related else some relation.collection) = some name

/-- All that is known of a field that joins the rows of one target. -/
structure Joins (trail : Trail scope) (descend : trail.Descent) (entry : String × FieldInfo)
    (link : Link) (target : Shape) : Prop where
  relation : ∃ relation, trail.Relates entry relation link.kind target.collection ∧
    relation.join? = some link.join ∧ ∀ sort, link.sort = some sort → relation.sortField = some sort
  admitted : scope.policy.excludes target.collection = false
  apart : target.collection ≠ trail.here
  forward : link.kind = .manyToOne → trail.parent? ≠ some target.collection
  columns : if link.kind = .manyToOne
    then scope.snapshot.hasField trail.here link.join.column ∧
      scope.snapshot.hasField target.collection link.join.foreignColumn
    else scope.snapshot.hasField target.collection link.join.column ∧
      scope.snapshot.hasField trail.here link.join.foreignColumn
  sorted : ∀ sort, link.sort = some sort →
    link.kind ≠ .manyToOne ∧ scope.snapshot.hasField target.collection sort
  lands : trail.Lands descend target

/-- All that is known of a field that refers to rows of several collections. -/
structure Chooses (trail : Trail scope) (descend : trail.Descent) (entry : String × FieldInfo)
    (discriminant : String) (targets : List Shape) : Prop where
  relation : ∃ relation, scope.relationFor trail.here trail.collection entry.1 =
    some (relation, .manyToAny) ∧ relation.collection = trail.here ∧ relation.field = entry.1 ∧
    discriminant = relation.discriminant.getD standardDiscriminant ∧
    targets.map Shape.collection = (relation.allowed.getD []).filter fun name => !trail.filters name
  named : trail.collection.fields.contains discriminant
  inhabited : targets ≠ []
  lands : ∀ target ∈ targets, trail.Lands descend target

/-- What a field of the collection where the trail stands may turn into. -/
inductive Makes (trail : Trail scope) (descend : trail.Descent) (entry : String × FieldInfo) :
    Field → Prop
  | column (real : entry.2.virtual = false) : trail.Makes descend entry (.scalar entry.1)
  | joins {link : Link} {target : Shape} (h : trail.Joins descend entry link target) :
      trail.Makes descend entry (.relation entry.1 link target)
  | chooses {discriminant : String} {targets : List Shape}
      (h : trail.Chooses descend entry discriminant targets) :
      trail.Makes descend entry (.polymorphic entry.1 discriminant targets)

variable {trail : Trail scope} {descend : trail.Descent} {entry : String × FieldInfo}

theorem filters_eq_false {name : String} (h : trail.filters name = false) :
    scope.policy.excludes name = false ∧ (scope.policy.revisitRoot = false → name ≠ scope.root) ∧
      name ≠ trail.here ∧ trail.parent? ≠ some name := by
  simp only [filters, Bool.or_eq_false_iff, beq_eq_false_iff_ne] at h
  obtain ⟨⟨⟨admitted, root⟩, apart⟩, forward⟩ := h
  exact ⟨admitted, Scope.ne_root root, apart, forward⟩

theorem target_ok {name : String} {collection : Collection}
    {known : scope.snapshot.collection? name = some collection} {shape : Shape}
    (h : (trail.target descend name collection known).outcome = .ok shape) :
    shape.collection = name ∧ trail.Lands descend shape := by
  unfold target at h
  split at h
  · rename_i stop
    cases Walk.pure_ok h
    exact ⟨rfl, trail.onward name collection known, rfl, rfl, .inl ⟨stop, rfl⟩⟩
  · obtain ⟨fields, below, h⟩ := Walk.bind_ok h
    cases Walk.pure_ok h
    exact ⟨rfl, trail.onward name collection known, rfl, rfl, .inr ⟨_, below⟩⟩

theorem sortField_ok {field : String} {relation : Relation} {kind : RelationKind}
    {name : String} {collection : Collection} {sort : String}
    (h : (trail.sortField field relation kind name collection).outcome = .ok (some sort)) :
    kind ≠ .manyToOne ∧ collection.fields.contains sort ∧ relation.sortField = some sort := by
  unfold sortField at h
  split at h
  · cases Walk.pure_ok h
  · cases Walk.pure_ok h
  · rename_i several given
    split at h
    · rename_i held
      cases Walk.pure_ok h
      exact ⟨several, held, given⟩
    · cases Walk.note_none_ok h

theorem joined_ok {relation : Relation} {kind : RelationKind} {join : Join} {name : String}
    {collection : Collection} {known : scope.snapshot.collection? name = some collection}
    {made : Field} (relates : trail.Relates entry relation kind name)
    (admitted : scope.policy.excludes name = false) (apart : name ≠ trail.here)
    (forward : kind = .manyToOne → trail.parent? ≠ some name) (joins : relation.join? = some join)
    (h : (trail.joined descend entry.1 relation kind join name collection known).outcome =
      .ok (some made)) :
    trail.Makes descend entry made := by
  unfold joined at h
  generalize paired : (if kind = .manyToOne then (trail.here, name) else (name, trail.here)) =
    holders at h
  dsimp only at h
  split at h
  · rename_i columns
    obtain ⟨sort, sorted, h⟩ := Walk.bind_ok h
    obtain ⟨shape, below, h⟩ := Walk.bind_ok h
    cases Walk.pure_ok h
    obtain ⟨rfl, lands⟩ := target_ok below
    refine .joins ⟨⟨relation, relates, joins, ?_⟩, admitted, apart, forward, ?_, ?_, lands⟩
    · intro column same
      cases same
      exact (sortField_ok sorted).2.2
    · rw [Bool.and_eq_true] at columns
      split at paired
      · rename_i single
        subst paired
        rwa [if_pos single]
      · rename_i several
        subst paired
        rwa [if_neg several]
    · intro column same
      cases same
      obtain ⟨several, held, _⟩ := sortField_ok sorted
      exact ⟨several, Snapshot.hasField_of_known known held⟩
  · cases Walk.note_none_ok h

theorem single_ok {relation : Relation} {kind : RelationKind} {name : String} {made : Field}
    (relates : trail.Relates entry relation kind name)
    (h : (trail.single descend entry.1 relation kind name).outcome = .ok (some made)) :
    trail.Makes descend entry made := by
  unfold single at h
  split at h
  · cases Walk.note_none_ok h
  · rename_i admitted
    split at h
    · cases Walk.note_none_ok h
    · rename_i apart
      split at h
      · cases Walk.note_none_ok h
      · rename_i forward
        split at h
        · cases Walk.note_none_ok h
        · rename_i join joins
          split at h
          · cases h
          · exact joined_ok relates (Bool.eq_false_iff.mpr admitted) apart
              (fun single back => forward ⟨single, back⟩) joins h

theorem option_ok {field name : String} {result : Option Shape}
    (h : (trail.option descend field name).outcome = .ok result) :
    result.map Shape.collection = Option.guard (fun name => !trail.filters name) name ∧
      ∀ shape, result = some shape → trail.Lands descend shape := by
  unfold option at h
  split at h
  · rename_i filtered
    cases Walk.note_none_ok h
    refine ⟨?_, fun shape same => by cases same⟩
    simp [Option.guard, filtered]
  · rename_i kept
    split at h
    · cases h
    · obtain ⟨shape, below, h⟩ := Walk.bind_ok h
      cases Walk.pure_ok h
      obtain ⟨rfl, lands⟩ := target_ok below
      refine ⟨?_, fun _ same => Option.some.inj same ▸ lands⟩
      simp [Option.guard, kept]

theorem several_ok {relation : Relation} {made : Field}
    (applies : scope.relationFor trail.here trail.collection entry.1 = some (relation, .manyToAny))
    (stored : relation.collection = trail.here) (own : relation.field = entry.1)
    (h : (trail.several descend entry.1 relation).outcome = .ok (some made)) :
    trail.Makes descend entry made := by
  unfold several at h
  dsimp only at h
  split at h
  · rename_i named
    obtain ⟨targets, gathered, h⟩ := Walk.bind_ok h
    split at h
    · cases Walk.note_none_ok h
    · rename_i left
      cases Walk.pure_ok h
      refine .chooses ⟨⟨relation, applies, stored, own, rfl, ?_⟩, named, ?_, ?_⟩
      · rw [Walk.map_gather (fun _ _ found => (option_ok found).1) gathered]
        exact congrFun List.filterMap_eq_filter _
      · intro empty
        exact left (List.isEmpty_iff.mpr empty)
      · intro target member
        obtain ⟨name, _, found⟩ := Walk.mem_gather gathered member
        exact (option_ok found).2 target rfl
  · cases Walk.note_none_ok h

theorem nested_ok {relation : Relation} {kind : RelationKind} {made : Field}
    (applies : scope.relationFor trail.here trail.collection entry.1 = some (relation, kind))
    (h : (trail.nested descend entry.1 entry.2 relation kind).outcome = .ok (some made)) :
    trail.Makes descend entry made := by
  unfold nested at h
  split at h
  · rename_i own
    obtain ⟨rfl, stored, field⟩ := own
    exact several_ok applies stored field h
  · split at h
    · rename_i single
      subst single
      split at h
      · cases Walk.note_none_ok h
      · rename_i name related
        exact single_ok ⟨⟨_, applies, rfl⟩, related⟩ h
    · rename_i several
      refine single_ok ⟨⟨kind, applies, rfl⟩, if_neg ?_⟩ h
      split
      · intro single
        cases single
      · exact several

theorem field_ok {made : Field}
    (h : (trail.field descend entry).outcome = .ok (some made)) :
    trail.Makes descend entry made := by
  have column : plain entry.1 entry.2 = some made → trail.Makes descend entry made := by
    intro shown
    unfold plain at shown
    split at shown
    · cases shown
    · rename_i real
      cases shown
      exact .column (Bool.eq_false_iff.mpr real)
  unfold field at h
  split at h
  · exact column (Walk.pure_ok h)
  · rename_i relation kind applies
    obtain ⟨found, made, h⟩ := Walk.bind_ok h
    cases found with
    | none => exact column (Walk.pure_ok h)
    | some nested =>
      cases Walk.pure_ok h
      exact nested_ok applies made

/-- Each field of a walked collection is made from one of the entries there, with the same walk
below it. -/
theorem expand_makes {fields : List Field} (h : trail.expand.outcome = .ok fields)
    {field : Field} (member : field ∈ fields) :
    ∃ entry ∈ trail.collection.fields.entries,
      trail.Makes (fun next _ => next.expand) entry field := by
  rw [expand] at h
  obtain ⟨entry, known, made⟩ := Walk.mem_gather h member
  exact ⟨entry, known, field_ok made⟩

end Trail

end DocumentViews
