import DocumentViews.Proofs.Resolution.Identifiers
import DocumentViews.Proofs.Sql.Routing

/-! Where the choices of a resolved shape send a name.
Resolution filters the collections that a field may refer to, and the compiler parts what is left
into targets that nest further, whose selects travel in a map by collection, and flat ones. The map
keeps one select for each collection. Nothing is lost by that: two targets of one field and one
collection come from the same trail, so they are equal. -/
namespace DocumentViews

variable {scope : Scope} {shape : Shape}

namespace Trail

/-- One hop further on a trail, the collection determines the shape. -/
theorem Lands.unique {trail : Trail scope} {descend : trail.Descent} {one other : Shape}
    (h : trail.Lands descend one) (h' : trail.Lands descend other)
    (same : one.collection = other.collection) :
    one = other := by
  obtain ⟨next, here, path, shown⟩ := h
  obtain ⟨next', here', path', shown'⟩ := h'
  -- both are what the walk shows at the end of one trail
  obtain rfl : next = next' := eq_of_path (by rw [here, here', same]) (by rw [path, path'])
  have fields : one.fields = other.fields := by
    rcases shown with ⟨stop, columns⟩ | ⟨going, below⟩ <;>
      rcases shown' with ⟨stop', columns'⟩ | ⟨going', below'⟩
    · rw [columns, columns']
    · exact absurd stop (Bool.eq_false_iff.mp going'.2)
    · exact absurd stop' (Bool.eq_false_iff.mp going.2)
    · exact Except.ok.inj (below.symm.trans below')
  cases one
  cases other
  exact congrArg₂ Shape.mk same fields

theorem filters_eq_false_iff {trail : Trail scope} (name : String) : trail.filters name = false ↔
    scope.policy.excludes name = false ∧ (scope.policy.revisitRoot = false → name ≠ scope.root) ∧
      name ≠ trail.here ∧ trail.parent? ≠ some name := by
  constructor
  · exact filters_eq_false
  · rintro ⟨admitted, root, apart, forward⟩
    cases fixed : scope.policy.revisitRoot with
    | true => simp [filters, admitted, fixed, apart, forward]
    | false => simp [filters, admitted, root fixed, apart, forward]

end Trail

/-- No two targets of one collection differ. -/
def Shape.Distinct (targets : List Shape) : Prop :=
  ∀ one ∈ targets, ∀ other ∈ targets, one.collection = other.collection → one = other

theorem Visited.distinct {above : List String} {node : Shape} (h : Visited scope above node)
    {field discriminant : String} {targets : List Shape}
    (member : .polymorphic field discriminant targets ∈ node.fields) : Shape.Distinct targets := by
  obtain ⟨trail, _, _, _, entry, _, made⟩ := h.nested member rfl
  cases made with
  | chooses chooses =>
    intro one isTarget other isTargetToo same
    exact (chooses.lands one isTarget).unique (chooses.lands other isTargetToo) same

namespace Shape

theorem Distinct.filter {targets : List Shape} (h : Distinct targets) (property : Shape → Bool) :
    Distinct (targets.filter property) := by
  intro one isTarget other isTargetToo
  exact h one (List.mem_filter.mp isTarget).1 other (List.mem_filter.mp isTargetToo).1

theorem Distinct.find?_eq {targets : List Shape} (h : Distinct targets) {target : Shape}
    (member : target ∈ targets) :
    (targets.reverse.find? fun other => other.collection = target.collection) = some target := by
  have there :
      (targets.reverse.find? fun other => other.collection = target.collection).isSome := by
    rw [List.find?_isSome]
    exact ⟨target, List.mem_reverse.mpr member, by simp⟩
  obtain ⟨last, found⟩ := Option.isSome_iff_exists.mp there
  have isTarget : last ∈ targets := List.mem_reverse.mp (List.mem_of_find?_eq_some found)
  have same : last.collection = target.collection := by simpa using List.find?_some found
  rw [found, h last isTarget target member same]

theorem Distinct.mem_kept {targets : List Shape} (h : Distinct targets) {target : Shape}
    (member : target ∈ targets) :
    target ∈ kept targets := by
  have held : (NameMap.ofList (targets.map fun target => (target.collection, target))).get?
      target.collection = some target := by
    rw [NameMap.get?_ofList, ← List.map_reverse, List.find?_map, Option.map_map]
    exact congrArg (Option.map id) (h.find?_eq member)
  exact List.mem_map.mpr ⟨(target.collection, target), (NameMap.mem_entries_iff _ _).mpr held, rfl⟩

theorem Distinct.get?_selects {targets : List Shape} (h : Distinct targets) {target : Shape}
    (member : target ∈ targets) :
    (Sql.selects targets).get? target.collection = some (Sql.compile target) := by
  rw [Sql.get?_selects, h.find?_eq member]
  cases target
  rfl

theorem choicesOfFields_eq (fields : List Field) :
    choicesOfFields fields = fields.flatMap fun field =>
    match field with
    | .scalar _ => []
    | .relation _ _ target => target.choices
    | .polymorphic _ _ targets =>
      if targets.any hasNested then [targets.filter hasNested] else [] := by
  induction fields with
  | nil => rfl
  | cons field rest ih => cases field <;> simp [choicesOfFields, ih]

/-- A node that a shape joins, outside of maps. -/
inductive Joined (shape : Shape) : Shape → Prop
  | self : shape.Joined shape
  | join {node target : Shape} {name : String} {link : Link} (within : shape.Joined node)
      (member : .relation name link target ∈ node.fields) : shape.Joined target

/-- What a node passes on to the one that joins it reaches the shape. -/
theorem Joined.subset {α : Type} {found : Shape → List α}
    (step : ∀ {node target name link}, .relation name link target ∈ node.fields →
      found target ⊆ found node)
    {node : Shape} (h : shape.Joined node) : found node ⊆ found shape := by
  induction h with
  | self => exact List.Subset.refl _
  | join _ member ih => exact List.Subset.trans (step member) ih

theorem Joined.choices {node : Shape} (h : shape.Joined node) : node.choices ⊆ shape.choices := by
  refine h.subset fun {node} {_} {_} {_} member targets chosen => ?_
  cases node with
  | mk collection fields =>
    rw [Shape.choices, choicesOfFields_eq]
    exact List.mem_flatMap.mpr ⟨_, member, chosen⟩

theorem Joined.offered {node : Shape} (h : shape.Joined node) :
    Sql.offered node ⊆ Sql.offered shape := by
  refine h.subset fun {node} {_} {_} {_} member choice held => ?_
  rw [Sql.offered_eq, Sql.offeredByFields_eq]
  exact List.mem_flatMap.mpr ⟨_, member, held⟩

theorem mapped_succ {depth : Nat} {query target : Shape} {targets : List Shape}
    (deep : query ∈ shape.mapped depth) (chosen : targets ∈ query.choices)
    (stays : target ∈ kept targets) : target ∈ shape.mapped (depth + 1) := by
  induction depth generalizing shape with
  | zero =>
    cases List.mem_singleton.mp deep
    exact List.mem_flatMap.mpr ⟨targets, chosen, List.mem_flatMap.mpr ⟨target, stays, .head _⟩⟩
  | succ depth ih =>
    obtain ⟨others, first, deep⟩ := List.mem_flatMap.mp deep
    obtain ⟨next, kept, deep⟩ := List.mem_flatMap.mp deep
    exact List.mem_flatMap.mpr ⟨others, first, List.mem_flatMap.mpr ⟨next, kept, ih deep⟩⟩

/-- Every node that nests further is joined by the root or by a select in some map. -/
theorem node_compiled (h : scope.resolve.outcome = .ok shape) {above : List String} {node : Shape}
    (reached : shape.Node above node) (nests : node.hasNested = true) :
    ∃ depth, ∃ query ∈ shape.mapped depth, query.Joined node := by
  induction reached with
  | root => exact ⟨0, shape, .head _, .self⟩
  | @step above node target field within member leads ih =>
    have holds : node.hasNested = true :=
      List.any_eq_true.mpr ⟨field, member, Field.isNested_of_target leads⟩
    obtain ⟨depth, query, deep, joined⟩ := ih holds
    cases field with
    | scalar name => cases leads
    | relation name link only =>
      cases List.mem_singleton.mp leads
      exact ⟨depth, query, deep, joined.join member⟩
    | polymorphic name discriminant targets =>
      have chosen : targets.filter hasNested ∈ node.choices := by
        cases node with
        | mk collection fields =>
          rw [Shape.choices, choicesOfFields_eq]
          have some : targets.any hasNested = true := List.any_eq_true.mpr ⟨target, leads, nests⟩
          exact List.mem_flatMap.mpr ⟨_, member, by simp [some]⟩
      -- the map keeps one target of each collection, and there is no other than this one
      have distinct := ((scope.node_visited h within).distinct member).filter hasNested
      have stays := distinct.mem_kept (List.mem_filter.mpr ⟨leads, nests⟩)
      exact ⟨depth + 1, target, mapped_succ deep (joined.choices chosen) stays, .self⟩

end Shape

namespace Sql

def ChoiceBelow (shape : Shape) (choice : Choice) : Prop :=
  ∃ above node field discriminant targets, shape.Node above node ∧
    .polymorphic field discriminant targets ∈ node.fields ∧
    choice = choiceOf node.collection field discriminant targets

mutual
theorem below_of_offered : (shape : Shape) → {choice : Choice} → choice ∈ offered shape →
    ChoiceBelow shape choice
  | .mk collection fields, _, member =>
    below_of_offeredByFields (.mk collection fields) fields (fun _ held => held) member

theorem below_of_offeredByFields (holder : Shape) :
    (fields : List Field) → (∀ field ∈ fields, field ∈ holder.fields) →
    {choice : Choice} → choice ∈ offeredByFields holder.collection fields →
    ChoiceBelow holder choice
  | [], _, _, member => by cases member
  | .scalar _ :: rest, part, _, member =>
    below_of_offeredByFields holder rest (fun field held => part field (.tail _ held)) member
  | .relation _ _ target :: rest, part, _, member => by
    rcases List.mem_append.mp member with inner | later
    · obtain ⟨_, node, field, discriminant, targets, reached, found⟩ :=
        below_of_offered target inner
      have first : holder.Node [holder.collection] target :=
        .step .root (part _ (.head _)) (.head _)
      exact ⟨_, node, field, discriminant, targets, first.trans reached, found⟩
    · exact below_of_offeredByFields holder rest (fun field held => part field (.tail _ held)) later
  | .polymorphic name discriminant targets :: rest, part, _, member => by
    rcases List.mem_cons.mp member with rfl | later
    · exact ⟨[], holder, name, discriminant, targets, .root, part _ (.head _), rfl⟩
    · exact below_of_offeredByFields holder rest (fun field held => part field (.tail _ held)) later
end

end Sql

/-- What the choice of a polymorphic field does with names. -/
structure Routed (scope : Scope) (above : List String) (node : Shape) (field discriminant : String)
    (targets : List Shape) (choice : Sql.Choice) : Prop where
  name : choice.name = field
  columns : ∀ branch ∈ choice.branches,
    branch.compared = (node.collection, discriminant) ∧ branch.item = (node.collection, field)
  /-- No name is looked up in both ways. -/
  disjoint : ∀ name ∈ choice.nested, name ∉ choice.flat
  /-- Those that are looked up are the allowed collections that pass the filters. -/
  complete : ∃ collection relation, scope.snapshot.collection? node.collection = some collection ∧
    scope.relationFor node.collection collection field = some (relation, .manyToAny) ∧
    ∀ name, name ∈ choice.nested ∨ name ∈ choice.flat ↔ name ∈ relation.allowed.getD [] ∧
      scope.policy.excludes name = false ∧ (scope.policy.revisitRoot = false → name ≠ scope.root) ∧
      name ≠ node.collection ∧ above.head? ≠ some name
  nested : ∀ name, name ∈ choice.nested ↔ ∃ target ∈ targets, target.hasNested = true ∧
    target.collection = name
  /-- A map is for the names that are looked up with it. -/
  keys : ∀ branch ∈ choice.branches, ∀ selects, branch.selects = some selects →
    ∀ name, name ∈ selects.map (·.1) ↔ name ∈ choice.nested
  /-- A target that nests further is found in the map, with its own select. -/
  found : ∀ target ∈ targets, target.hasNested = true → ∃ branch selects,
    choice.taken target.collection = some branch ∧ branch.selects = some selects ∧
    ∀ sql, (target.collection, sql) ∈ selects ↔ sql = Sql.compile target
  /-- No lookup in a map misses. -/
  hits : ∀ name branch selects, choice.taken name = some branch → branch.selects = some selects →
    ∃ sql, (name, sql) ∈ selects
  flat : ∀ name ∈ choice.flat, ∃ branch, choice.taken name = some branch ∧ branch.selects = none
  other : ∀ name, name ∉ choice.nested → name ∉ choice.flat → choice.taken name = none
  distinct : Shape.Distinct targets

namespace Shape.Distinct

variable {targets : List Shape} (h : Distinct targets) (holder field discriminant : String)

include h

theorem not_mem_flat {name : String}
    (listed : name ∈ (Sql.choiceOf holder field discriminant targets).nested) :
    name ∉ (Sql.choiceOf holder field discriminant targets).flat := by
  intro inFlat
  obtain ⟨one, isTarget, nests, here⟩ := (Sql.mem_nested_choiceOf ..).mp listed
  obtain ⟨other, isTargetToo, ends, there⟩ := (Sql.mem_flat_choiceOf ..).mp inFlat
  rw [h one isTarget other isTargetToo (here.trans there.symm), ends] at nests
  cases nests

theorem taken_nested {target : Shape} (member : target ∈ targets)
    (nests : target.hasNested = true) :
    ∃ branch selects, (Sql.choiceOf holder field discriminant targets).taken target.collection =
      some branch ∧ branch.selects = some selects ∧ ∀ sql, (target.collection, sql) ∈ selects ↔
      sql = Sql.compile target := by
  have listed := (Sql.mem_nested_choiceOf holder field discriminant targets target.collection).mpr
    ⟨target, member, nests, rfl⟩
  have held := (h.filter hasNested).get?_selects (List.mem_filter.mpr ⟨member, nests⟩)
  refine ⟨_, _, (Sql.taken_choiceOf ..).trans (if_pos listed), rfl, fun sql => ?_⟩
  rw [NameMap.mem_entries_iff, held]
  exact ⟨fun same => (Option.some.inj same).symm, fun same => same ▸ rfl⟩

theorem taken_flat {name : String}
    (listed : name ∈ (Sql.choiceOf holder field discriminant targets).flat) :
    ∃ branch, (Sql.choiceOf holder field discriminant targets).taken name = some branch ∧
      branch.selects = none := by
  have apart : name ∉ (Sql.choiceOf holder field discriminant targets).nested :=
    fun inNested => h.not_mem_flat holder field discriminant inNested listed
  exact ⟨_, (Sql.taken_choiceOf ..).trans ((if_neg apart).trans (if_pos listed)), rfl⟩

/-- Only names of targets that nest further fall to a branch with a map. -/
theorem taken_hits {name : String} {branch : Sql.Branch} {selects : List (String × String)}
    (falls : (Sql.choiceOf holder field discriminant targets).taken name = some branch)
    (handed : branch.selects = some selects) : ∃ sql, (name, sql) ∈ selects := by
  by_cases listed : name ∈ targets.map Shape.collection
  · obtain ⟨target, member, rfl⟩ := List.mem_map.mp listed
    cases nests : target.hasNested with
    | true =>
      obtain ⟨_, _, falls', handed', only⟩ := h.taken_nested holder field discriminant member nests
      cases falls'.symm.trans falls
      cases handed'.symm.trans handed
      exact ⟨_, (only _).mpr rfl⟩
    | false =>
      have inFlat := (Sql.mem_flat_choiceOf holder field discriminant targets target.collection).mpr
        ⟨target, member, nests, rfl⟩
      obtain ⟨_, falls', bare⟩ := h.taken_flat holder field discriminant inFlat
      cases falls'.symm.trans falls
      cases bare.symm.trans handed
  · rw [← Sql.mem_choiceOf holder field discriminant, not_or] at listed
    rw [Sql.taken_choiceOf, if_neg listed.1, if_neg listed.2] at falls
    cases falls

end Shape.Distinct

theorem Visited.routed {above : List String} {node : Shape} (h : Visited scope above node)
    {field discriminant : String} {targets : List Shape}
    (member : .polymorphic field discriminant targets ∈ node.fields) :
    Routed scope above node field discriminant targets
      (Sql.choiceOf node.collection field discriminant targets) := by
  have distinct := h.distinct member
  constructor
  case name => rfl
  case columns =>
    intro branch held
    obtain ⟨compared, item, _⟩ := Sql.mem_branches_choiceOf _ _ _ _ held
    exact ⟨compared, item⟩
  case disjoint => exact fun name listed => distinct.not_mem_flat _ _ _ listed
  case complete =>
    obtain ⟨trail, here, path, _, entry, _, made⟩ := h.nested member rfl
    cases made with
    | chooses chooses =>
      obtain ⟨relation, applies, _, _, _, names⟩ := chooses.relation
      refine ⟨trail.collection, relation, here ▸ trail.known, here ▸ applies, fun name => ?_⟩
      rw [Sql.mem_choiceOf, names, List.mem_filter, Bool.not_eq_true', Trail.filters_eq_false_iff,
        Trail.parent?, here, path]
  case nested => exact Sql.mem_nested_choiceOf _ _ _ _
  case keys =>
    intro branch held selects handed name
    obtain ⟨_, _, none | some⟩ := Sql.mem_branches_choiceOf _ _ _ _ held
    · cases none.symm.trans handed
    · cases some.symm.trans handed
      rw [Sql.mem_nested_choiceOf]
      refine (Sql.mem_keys_selects _ name).trans ?_
      simp only [List.mem_filter, and_assoc]
  case found => exact fun target isTarget nests => distinct.taken_nested _ _ _ isTarget nests
  case hits => exact fun name branch selects falls handed => distinct.taken_hits _ _ _ falls handed
  case flat => exact fun name listed => distinct.taken_flat _ _ _ listed
  case other =>
    intro name notNested notFlat
    rw [Sql.taken_choiceOf, if_neg notNested, if_neg notFlat]
  case distinct => exact distinct

/-- Every polymorphic field of a resolved shape has its choice in the root select or in a select
some maps deep, and every choice in any of these selects belongs to such a field. Each target falls
to one branch of it, a lookup in a map always finds the select of that very target, and all other
names give the empty object. -/
theorem resolved_choices_routed (h : scope.resolve.outcome = .ok shape) :
    (∀ above node, shape.Node above node → ∀ field discriminant targets,
      .polymorphic field discriminant targets ∈ node.fields →
      ∃ depth selects sql choices choice, Sql.decoded depth (Sql.compile shape) = some selects ∧
        sql ∈ selects ∧ Sql.choices sql = some choices ∧ choice ∈ choices ∧
        Routed scope above node field discriminant targets choice) ∧
    ∀ depth, ∃ selects, Sql.decoded depth (Sql.compile shape) = some selects ∧ ∀ sql ∈ selects,
      ∃ choices, Sql.choices sql = some choices ∧ ∀ choice ∈ choices,
        ∃ above node field discriminant targets, shape.Node above node ∧
        .polymorphic field discriminant targets ∈ node.fields ∧
        Routed scope above node field discriminant targets choice := by
  constructor
  · intro above node reached field discriminant targets member
    have nests : node.hasNested = true := List.any_eq_true.mpr ⟨_, member, rfl⟩
    obtain ⟨depth, query, deep, joined⟩ := Shape.node_compiled h reached nests
    have own : Sql.choiceOf node.collection field discriminant targets ∈ Sql.offered node := by
      rw [Sql.offered_eq, Sql.offeredByFields_eq]
      exact List.mem_flatMap.mpr ⟨_, member, .head _⟩
    exact ⟨depth, _, Sql.compile query, _, _, Sql.decoded_compile depth shape,
      List.mem_map_of_mem deep, Sql.choices_compile query, joined.offered own,
      (scope.node_visited h reached).routed member⟩
  · intro depth
    refine ⟨_, Sql.decoded_compile depth shape, fun sql member => ?_⟩
    obtain ⟨query, deep, rfl⟩ := List.mem_map.mp member
    obtain ⟨above, reached⟩ := Shape.node_of_mapped deep
    refine ⟨_, Sql.choices_compile query, fun choice held => ?_⟩
    obtain ⟨below, node, field, discriminant, targets, inner, member, rfl⟩ :=
      Sql.below_of_offered query held
    exact ⟨_, node, field, discriminant, targets, reached.trans inner, member,
      (scope.node_visited h (reached.trans inner)).routed member⟩

/-- Pages that list the collections of their item twice. -/
def repeatedScope : Scope :=
  { pagesScope with
    snapshot := { pagesScope.snapshot with
      relations := [
        ⟨"pages", "author", some "people",
          some ⟨some "pages", some "author", some "people", some "id"⟩,
          some ⟨some "pages", none, none, none, none⟩⟩,
        ⟨"pages", "item", none, none,
          some ⟨none, none, some ["people", "notes", "pages", "people", "notes"], none, none⟩⟩] } }

theorem resolved_choices_routed_repeated :
    let targets : List Shape :=
      [authorShape, .mk "notes" [.scalar "id"], authorShape, .mk "notes" [.scalar "id"]]
    let shape : Shape :=
      .mk "pages" [.relation "author" ⟨.manyToOne, ⟨"pages", "author", "id"⟩, none⟩ authorShape,
        .scalar "collection", .polymorphic "item" "collection" targets]
    repeatedScope.resolve.outcome = .ok shape ∧
      ∃ depth selects sql choices choice, Sql.decoded depth (Sql.compile shape) = some selects ∧
        sql ∈ selects ∧ Sql.choices sql = some choices ∧ choice ∈ choices ∧
        Routed repeatedScope [] shape "item" "collection" targets choice := by
  intro targets shape
  have resolved : repeatedScope.resolve.outcome = .ok shape := by with_unfolding_all rfl
  exact ⟨resolved, (resolved_choices_routed resolved).1 [] shape .root "item" "collection" targets
    (.tail _ (.tail _ (.head _)))⟩

end DocumentViews
