import DocumentViews.Proofs.Resolution.Visited

/-! Chains of collections in a resolved shape: where they turn back, and how often they repeat a
hop. Both results are about every node of every shape that a walk returns, for any schema,
classifier and policy. That a walk always ends is not stated here. -/
namespace DocumentViews

variable {scope : Scope}

namespace Trail

variable {trail : Trail scope} {descend : trail.Descent} {entry : String × FieldInfo}

theorem ends_eq_false (going : trail.ends = false) :
    (scope.policy.revisitRoot = false → trail.here ≠ scope.root) ∧
      trail.repetitions < scope.policy.maxDepth.toNat := by
  simp only [ends, Bool.or_eq_false_iff, decide_eq_false_iff_not, Nat.not_le] at going
  exact ⟨Scope.ne_root going.1, going.2⟩

theorem ends_of_root (back : trail.here = scope.root) (fixed : scope.policy.revisitRoot = false) :
    trail.ends = true := by
  cases going : trail.ends with
  | true => rfl
  | false => exact absurd back ((ends_eq_false going).1 fixed)

theorem repetitions_of_above {parent : String} {rest : List String}
    (path : trail.above = parent :: rest) :
    trail.repetitions = (hops (trail.here :: parent :: rest)).count (parent, trail.here) := by
  rw [repetitions, taken, path, hops]

theorem Chooses.filters_eq_false {discriminant : String} {targets : List Shape}
    (h : trail.Chooses descend entry discriminant targets) {target : Shape}
    (member : target ∈ targets) :
    trail.filters target.collection = false := by
  obtain ⟨relation, _, _, _, _, names⟩ := h.relation
  have kept : target.collection ∈ targets.map Shape.collection := List.mem_map_of_mem member
  rw [names, List.mem_filter] at kept
  simpa using kept.2

theorem Makes.admitted {field : Field} (h : trail.Makes descend entry field) {target : Shape}
    (leads : target ∈ field.targets) :
    scope.policy.excludes target.collection = false ∧ target.collection ≠ trail.here := by
  cases h with
  | column real => cases leads
  | joins joins =>
    cases List.mem_singleton.mp leads
    exact ⟨joins.admitted, joins.apart⟩
  | chooses chooses =>
    obtain ⟨admitted, _, apart, _⟩ := Trail.filters_eq_false (chooses.filters_eq_false leads)
    exact ⟨admitted, apart⟩

theorem Lands.isNested_eq_false {target : Shape} (h : trail.Lands descend target)
    (back : target.collection = scope.root) (fixed : scope.policy.revisitRoot = false)
    {field : Field} (member : field ∈ target.fields) : field.isNested = false := by
  obtain ⟨next, here, _, shown⟩ := h
  have stop : next.ends = true := ends_of_root (here.trans back) fixed
  rcases shown with ⟨_, columns⟩ | ⟨going, _⟩
  · exact Collection.isNested_scalars (columns ▸ member)
  · rw [going.2] at stop
    cases stop

end Trail

theorem Visited.going {above : List String} {node : Shape} (h : Visited scope above node)
    {field : Field} (member : field ∈ node.fields) (nests : field.isNested = true) {parent : String}
    {rest : List String} (path : above = parent :: rest) :
    (scope.policy.revisitRoot = false → node.collection ≠ scope.root) ∧
      (hops (node.collection :: above)).count (parent, node.collection) <
        scope.policy.maxDepth.toNat := by
  obtain ⟨trail, here, same, going, _⟩ := h.nested member nests
  subst path
  rw [Trail.halts_of_above same] at going
  have passed := Trail.ends_eq_false going
  rwa [Trail.repetitions_of_above same, here] at passed

theorem Visited.apart {above : List String} {node : Shape} (h : Visited scope above node)
    {field : Field} (member : field ∈ node.fields) {target : Shape}
    (leads : target ∈ field.targets) :
    target.collection ≠ node.collection := by
  obtain ⟨trail, here, _, _, entry, _, made⟩ := h.nested member (Field.isNested_of_target leads)
  rw [← here]
  exact (made.admitted leads).2

/-- No chain of collections through a node turns back where it must not. -/
structure CutsCycles (scope : Scope) (above : List String) (node : Shape) : Prop where
  /-- No target is excluded. -/
  admitted : ∀ field ∈ node.fields, ∀ target ∈ field.targets,
    scope.policy.excludes target.collection = false
  /-- No target is the collection of the node. -/
  apart : ∀ field ∈ node.fields, ∀ target ∈ field.targets, target.collection ≠ node.collection
  /-- A many-to-one relation does not lead back to the parent. -/
  joinsForward : ∀ name link target, .relation name link target ∈ node.fields →
    link.kind = .manyToOne → above.head? ≠ some target.collection
  /-- A polymorphic field does not lead back to the parent. -/
  choosesForward : ∀ name discriminant targets, .polymorphic name discriminant targets ∈
    node.fields → ∀ target ∈ targets, above.head? ≠ some target.collection
  /-- A polymorphic field does not lead back to a root that is not revisited. -/
  choosesRoot : scope.policy.revisitRoot = false →
    ∀ name discriminant targets, .polymorphic name discriminant targets ∈ node.fields →
      ∀ target ∈ targets, target.collection ≠ scope.root
  /-- A relation that leads back to a root that is not revisited shows its columns only. -/
  joinsRoot : scope.policy.revisitRoot = false →
    ∀ name link target, .relation name link target ∈ node.fields → target.collection = scope.root →
      ∀ field ∈ target.fields, field.isNested = false
  /-- A root that is not revisited stands only at the two ends of a chain. -/
  rootAtEnds : scope.policy.revisitRoot = false →
    ∀ i, (node.collection :: above)[i]? = some scope.root → i = 0 ∨ i = above.length

theorem root_at_ends {shape : Shape} (h : scope.resolve.outcome = .ok shape)
    (fixed : scope.policy.revisitRoot = false) {above : List String} {node : Shape}
    (reached : shape.Node above node) (i : Nat)
    (found : (node.collection :: above)[i]? = some scope.root) :
    i = 0 ∨ i = above.length := by
  induction reached generalizing i with
  | root =>
    have bound := (List.getElem?_eq_some_iff.mp found).1
    exact .inl (by simpa using bound)
  | @step above node target field within member leads ih =>
    cases i with
    | zero => exact .inl rfl
    | succ i =>
      rw [List.getElem?_cons_succ] at found
      have visited := scope.node_visited h within
      -- The node nests a field, so it is the root only where the chain starts.
      rcases ih i found with rfl | rfl
      · cases above with
        | nil => exact .inr rfl
        | cons parent rest =>
          have different := (visited.going member (Field.isNested_of_target leads) rfl).1 fixed
          exact absurd (Option.some.inj found) different
      · exact .inr rfl

/-- Every node of a resolved shape cuts the cycles of the schema. -/
theorem resolved_cuts_cycles {shape : Shape} (h : scope.resolve.outcome = .ok shape)
    {above : List String} {node : Shape} (reached : shape.Node above node) :
    CutsCycles scope above node := by
  have visited := scope.node_visited h reached
  constructor
  case admitted =>
    intro field member target leads
    obtain ⟨trail, _, _, _, entry, _, made⟩ :=
      visited.nested member (Field.isNested_of_target leads)
    exact (made.admitted leads).1
  case apart =>
    intro field member target leads
    obtain ⟨trail, here, _, _, entry, _, made⟩ :=
      visited.nested member (Field.isNested_of_target leads)
    rw [← here]
    exact (made.admitted leads).2
  case joinsForward =>
    intro name link target member single
    obtain ⟨trail, _, path, _, entry, _, made⟩ := visited.nested member rfl
    cases made with
    | joins joins => exact path ▸ joins.forward single
  case choosesForward =>
    intro name discriminant targets member target leads
    obtain ⟨trail, _, path, _, entry, _, made⟩ := visited.nested member rfl
    cases made with
    | chooses chooses =>
      obtain ⟨_, _, _, forward⟩ := Trail.filters_eq_false (chooses.filters_eq_false leads)
      exact path ▸ forward
  case choosesRoot =>
    intro fixed name discriminant targets member target leads
    obtain ⟨trail, _, _, _, entry, _, made⟩ := visited.nested member rfl
    cases made with
    | chooses chooses =>
      obtain ⟨_, different, _, _⟩ := Trail.filters_eq_false (chooses.filters_eq_false leads)
      exact different fixed
  case joinsRoot =>
    intro fixed name link target member back field inner
    obtain ⟨trail, _, _, _, entry, _, made⟩ := visited.nested member rfl
    cases made with
    | joins joins => exact joins.lands.isNested_eq_false back fixed inner
  case rootAtEnds =>
    intro fixed i found
    exact root_at_ends h fixed reached i found

/-- Pages know their author and show an item; people know their pages. -/
def pagesScope : Scope where
  snapshot :=
    { collections := .ofList [
        ("notes", ⟨.ofList [("id", ⟨false, []⟩)]⟩),
        ("pages", ⟨.ofList [("author", ⟨false, []⟩), ("collection", ⟨false, []⟩),
          ("item", ⟨false, []⟩)]⟩),
        ("people", ⟨.ofList [("id", ⟨false, []⟩), ("pages", ⟨true, []⟩)]⟩)]
      relations := [
        ⟨"pages", "author", some "people",
          some ⟨some "pages", some "author", some "people", some "id"⟩,
          some ⟨some "pages", none, none, none, none⟩⟩,
        ⟨"pages", "item", none, none,
          some ⟨none, none, some ["notes", "pages", "people"], none, none⟩⟩] }
  classify := .standard
  policy := .standard
  root := "pages"

def authorShape : Shape :=
  .mk "people" [.scalar "id", .relation "pages" ⟨.oneToMany, ⟨"pages", "author", "id"⟩, none⟩
    (.mk "pages" [.scalar "author", .scalar "collection", .scalar "item"])]

def pagesShape : Shape :=
  .mk "pages" [.relation "author" ⟨.manyToOne, ⟨"pages", "author", "id"⟩, none⟩ authorShape,
    .scalar "collection",
    .polymorphic "item" "collection" [.mk "notes" [.scalar "id"], authorShape]]

theorem resolved_cuts_cycles_pages :
    pagesScope.resolve.outcome = .ok pagesShape ∧ pagesShape.Node ["pages"] authorShape ∧
      CutsCycles pagesScope ["pages"] authorShape := by
  have resolved : pagesScope.resolve.outcome = .ok pagesShape := by with_unfolding_all rfl
  have reached : pagesShape.Node ["pages"] authorShape := .step .root (.head _) (.head _)
  exact ⟨resolved, reached, resolved_cuts_cycles resolved reached⟩

/-- No chain of collections through a node repeats a hop too often. -/
structure BoundsHops (scope : Scope) (above : List String) (node : Shape) : Prop where
  /-- No hop occurs more often than the policy allows; the first time is always allowed. -/
  repeated : ∀ hop, (hops (node.collection :: above)).count hop ≤ max 1 scope.policy.maxDepth.toNat
  /-- A hop that reaches the bound leads to a node that shows its columns only. -/
  stops : ∀ parent rest, above = parent :: rest →
    scope.policy.maxDepth.toNat ≤ (hops (node.collection :: above)).count
      (parent, node.collection) → ∀ field ∈ node.fields, field.isNested = false
  /-- A hop that the chain has left behind was below the bound when it was taken. -/
  passed : ∀ child parent rest, child :: parent :: rest <:+ above →
    (hops (child :: parent :: rest)).count (parent, child) < scope.policy.maxDepth.toNat

/-- The invariant along a chain: a node that nests a field has room for each hop once more. -/
theorem count_hops {shape : Shape} (h : scope.resolve.outcome = .ok shape) {above : List String}
    {node : Shape} (reached : shape.Node above node) (hop : String × String) :
    (hops (node.collection :: above)).count hop ≤ max 1 scope.policy.maxDepth.toNat ∧
      ∀ field ∈ node.fields, field.isNested = true →
        (hops (node.collection :: above)).count hop < max 1 scope.policy.maxDepth.toNat := by
  induction reached with
  | root =>
    have none : (hops [shape.collection]).count hop = 0 := rfl
    have positive : 0 < max 1 scope.policy.maxDepth.toNat := by omega
    rw [none]
    exact ⟨Nat.zero_le _, fun _ _ _ => positive⟩
  | @step above node target field within member leads ih =>
    have room := ih.2 field member (Field.isNested_of_target leads)
    have added : hops (target.collection :: node.collection :: above)
        = (node.collection, target.collection) :: hops (node.collection :: above) := rfl
    have visited := scope.node_visited h (.step within member leads)
    by_cases latest : (node.collection, target.collection) = hop
    · subst latest
      refine ⟨?_, fun inner there nests => ?_⟩
      · rw [added, List.count_cons_self]
        omega
      · have below := (visited.going there nests rfl).2
        omega
    · rw [added, List.count_cons_of_ne latest]
      exact ⟨Nat.le_of_lt room, fun _ _ _ => room⟩

theorem count_passed {shape : Shape} (h : scope.resolve.outcome = .ok shape) {above : List String}
    {node : Shape} (reached : shape.Node above node) {child parent : String} {rest : List String}
    (part : child :: parent :: rest <:+ above) :
    (hops (child :: parent :: rest)).count (parent, child) < scope.policy.maxDepth.toNat := by
  induction reached with
  | root => cases List.suffix_nil.mp part
  | @step above node target field within member leads ih =>
    rcases List.suffix_cons_iff.mp part with whole | earlier
    · obtain ⟨rfl, path⟩ := List.cons.inj whole
      have visited := scope.node_visited h within
      have below := (visited.going member (Field.isNested_of_target leads) path.symm).2
      rwa [← path] at below
    · exact ih earlier

/-- Every chain of a resolved shape repeats its hops within the bound of the policy. -/
theorem resolved_bounds_hops {shape : Shape} (h : scope.resolve.outcome = .ok shape)
    {above : List String} {node : Shape} (reached : shape.Node above node) :
    BoundsHops scope above node := by
  constructor
  case repeated =>
    intro hop
    exact (count_hops h reached hop).1
  case stops =>
    intro parent rest path full field member
    have visited := scope.node_visited h reached
    cases nests : field.isNested with
    | false => rfl
    | true =>
      have below := (visited.going member nests path).2
      omega
  case passed =>
    intro child parent rest part
    exact count_passed h reached part

/-- Countries have a capital, cities a mayor and mayors a country; the round is made twice. -/
def roundScope : Scope where
  snapshot :=
    { collections := .ofList [
        ("cities", ⟨.ofList [("id", ⟨false, []⟩), ("mayor", ⟨false, []⟩)]⟩),
        ("countries", ⟨.ofList [("capital", ⟨false, []⟩), ("id", ⟨false, []⟩)]⟩),
        ("people", ⟨.ofList [("country", ⟨false, []⟩), ("id", ⟨false, []⟩)]⟩)]
      relations := [
        ⟨"countries", "capital", some "cities",
          some ⟨some "countries", some "capital", none, some "id"⟩, none⟩,
        ⟨"cities", "mayor", some "people",
          some ⟨some "cities", some "mayor", none, some "id"⟩, none⟩,
        ⟨"people", "country", some "countries",
          some ⟨some "people", some "country", none, some "id"⟩, none⟩] }
  classify := .standard
  policy := { Policy.standard with revisitRoot := true }
  root := "countries"

def lastCity : Shape := .mk "cities" [.scalar "id", .scalar "mayor"]

def countryWith (capital : Shape) : Shape :=
  .mk "countries" [.relation "capital" ⟨.manyToOne, ⟨"countries", "capital", "id"⟩, none⟩ capital,
    .scalar "id"]

def mayorWith (country : Shape) : Shape :=
  .mk "people" [.relation "country" ⟨.manyToOne, ⟨"people", "country", "id"⟩, none⟩ country,
    .scalar "id"]

def cityWith (mayor : Shape) : Shape :=
  .mk "cities" [.scalar "id", .relation "mayor" ⟨.manyToOne, ⟨"cities", "mayor", "id"⟩, none⟩ mayor]

theorem resolved_bounds_hops_round :
    roundScope.resolve.outcome = .ok (countryWith (cityWith (mayorWith (countryWith lastCity)))) ∧
      (countryWith (cityWith (mayorWith (countryWith lastCity)))).Node
        ["countries", "people", "cities", "countries"] lastCity ∧
      BoundsHops roundScope ["countries", "people", "cities", "countries"] lastCity := by
  have resolved : roundScope.resolve.outcome
      = .ok (countryWith (cityWith (mayorWith (countryWith lastCity)))) := by with_unfolding_all rfl
  have first : (countryWith (cityWith (mayorWith (countryWith lastCity)))).Node ["countries"]
      (cityWith (mayorWith (countryWith lastCity))) := .step .root (.head _) (.head _)
  have mayor := first.step (.tail _ (.head _)) (.head _)
  have again := mayor.step (.head _) (.head _)
  have reached := again.step (.head _) (.head _)
  exact ⟨resolved, reached, resolved_bounds_hops resolved reached⟩

end DocumentViews
