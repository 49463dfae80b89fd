import DocumentViews.Proofs.Resolution.Chains
import Mathlib.Algebra.BigOperators.Group.Finset.Basic
import Mathlib.Algebra.Order.BigOperators.Group.Finset
import Mathlib.Data.Finset.Prod

/-! Every walk ends, and how deep it can go.
The recursion of a walk is unrolled a fixed number of times, with an arbitrary answer put in place
of the calls below. Deep enough, the answer is never asked for, whether the walk succeeds or fails.
No schema is assumed to be free of cycles; only the hops along one chain are counted. -/
namespace DocumentViews

variable {scope : Scope}

/-- The number of collections along a chain that no walk exceeds. -/
def Scope.longestChain (scope : Scope) : Nat :=
  1 + scope.snapshot.collections.keys.length * (scope.snapshot.collections.keys.length - 1) *
    max 1 scope.policy.maxDepth.toNat

/-- There are n (n - 1) hops between n different names, each taken at most so often. -/
theorem length_le_of_count {names : List String} {taken : List (String × String)} {limit : Nat}
    (known : ∀ hop ∈ taken, hop.1 ∈ names ∧ hop.2 ∈ names) (apart : ∀ hop ∈ taken, hop.1 ≠ hop.2)
    (counted : ∀ hop, taken.count hop ≤ limit) :
    taken.length ≤ names.length * (names.length - 1) * limit := by
  have between : taken.toFinset ⊆ names.toFinset.offDiag := by
    intro hop member
    have member := List.mem_toFinset.mp member
    obtain ⟨hp, hc⟩ := known hop member
    exact Finset.mem_offDiag.mpr ⟨List.mem_toFinset.mpr hp,
      List.mem_toFinset.mpr hc, apart hop member⟩
  have pairs : names.toFinset.offDiag.card ≤ names.length * (names.length - 1) := by
    have few : names.toFinset.card ≤ names.length := List.toFinset_card_le names
    rw [Finset.offDiag_card, ← Nat.mul_sub_one]
    exact Nat.mul_le_mul few (by omega)
  have summed : taken.length = ∑ hop ∈ taken.toFinset, taken.count hop := by
    convert (List.sum_toFinset_count_eq_length taken).symm
  calc taken.length = ∑ hop ∈ taken.toFinset, taken.count hop := summed
    _ ≤ taken.toFinset.card * limit := Finset.sum_le_card_nsmul _ _ _ fun hop _ => counted hop
    _ ≤ names.length * (names.length - 1) * limit :=
      Nat.mul_le_mul_right _ ((Finset.card_le_card between).trans pairs)

/-- Hops that a walk may have behind it: between different known collections, none too often. -/
structure Affordable (scope : Scope) (taken : List (String × String)) : Prop where
  known : ∀ hop ∈ taken, hop.1 ∈ scope.snapshot.collections.keys ∧
    hop.2 ∈ scope.snapshot.collections.keys
  apart : ∀ hop ∈ taken, hop.1 ≠ hop.2
  counted : ∀ hop, taken.count hop ≤ max 1 scope.policy.maxDepth.toNat

namespace Affordable

theorem nil : Affordable scope [] := by
  constructor
  · intro hop member
    cases member
  · intro hop member
    cases member
  · intro hop
    simp

theorem cons {taken : List (String × String)} {parent child : String} (h : Affordable scope taken)
    (hp : parent ∈ scope.snapshot.collections.keys) (hc : child ∈ scope.snapshot.collections.keys)
    (apart : parent ≠ child)
    (room : ((parent, child) :: taken).count (parent, child) ≤ max 1 scope.policy.maxDepth.toNat) :
    Affordable scope ((parent, child) :: taken) := by
  constructor
  · intro hop member
    rcases List.mem_cons.mp member with rfl | earlier
    · exact ⟨hp, hc⟩
    · exact h.known hop earlier
  · intro hop member
    rcases List.mem_cons.mp member with rfl | earlier
    · exact apart
    · exact h.apart hop earlier
  · intro hop
    by_cases latest : (parent, child) = hop
    · subst latest
      exact room
    · rw [List.count_cons_of_ne latest]
      exact h.counted hop

theorem length_lt {taken : List (String × String)} (h : Affordable scope taken) :
    taken.length < scope.longestChain := by
  have total := length_le_of_count h.known h.apart h.counted
  unfold Scope.longestChain
  omega

end Affordable

namespace Trail

variable {trail : Trail scope}

/-- The walk unrolled a number of times, with a given answer in place of the calls further below. -/
def unrolled (below : Trail scope → Walk (List Field)) : Nat → Trail scope → Walk (List Field)
  | 0, trail => below trail
  | depth + 1, trail =>
    Walk.gather (trail.field fun next _ => unrolled below depth next)
      trail.collection.fields.entries

def Agree (first second : trail.Descent) : Prop :=
  ∀ next going, next.here ≠ trail.here → first next going = second next going

theorem target_agree {first second : trail.Descent} (same : Agree first second) {name : String}
    {collection : Collection} (known : scope.snapshot.collection? name = some collection)
    (apart : name ≠ trail.here) :
    trail.target first name collection known = trail.target second name collection known := by
  unfold target
  split
  · rfl
  · exact congrArg (fun walk => walk >>= fun fields => pure (Shape.mk name fields)) (same _ _ apart)

theorem joined_agree {first second : trail.Descent} (same : Agree first second) (field : String)
    (relation : Relation) (kind : RelationKind) (join : Join) {name : String}
    {collection : Collection} (known : scope.snapshot.collection? name = some collection)
    (apart : name ≠ trail.here) :
    trail.joined first field relation kind join name collection known =
      trail.joined second field relation kind join name collection known := by
  unfold joined
  rw [target_agree same known apart]

theorem single_agree {first second : trail.Descent} (same : Agree first second) (field : String)
    (relation : Relation) (kind : RelationKind) (name : String) :
    trail.single first field relation kind name = trail.single second field relation kind name := by
  unfold single
  split
  · rfl
  split
  · rfl
  · rename_i apart
    split
    · rfl
    split
    · rfl
    split
    · rfl
    · exact joined_agree same field relation kind _ _ apart

theorem option_agree {first second : trail.Descent} (same : Agree first second)
    (field name : String) :
    trail.option first field name = trail.option second field name := by
  unfold option
  split
  · rfl
  · rename_i kept
    have apart := (filters_eq_false (Bool.eq_false_iff.mpr kept)).2.2.1
    split
    · rfl
    · rw [target_agree same _ apart]

theorem field_agree {first second : trail.Descent} (same : Agree first second)
    (entry : String × FieldInfo) :
    trail.field first entry = trail.field second entry := by
  have several : ∀ relation, trail.several first entry.1 relation =
      trail.several second entry.1 relation := by
    intro relation
    unfold several
    rw [funext (option_agree same entry.1)]
  have nested : ∀ relation kind,
      trail.nested first entry.1 entry.2 relation kind = trail.nested second entry.1 entry.2
        relation kind := by
    intro relation kind
    unfold nested
    simp only [several, single_agree same]
  unfold field
  simp only [nested]

theorem affordable_of_hopsTo {next : Trail scope} (h : Affordable scope trail.taken)
    (leads : trail.HopsTo next) (apart : next.here ≠ trail.here) : Affordable scope next.taken := by
  have taken : next.taken = (trail.here, next.here) :: trail.taken := by
    rw [Trail.taken, leads.1, hops, Trail.taken]
  have below := (ends_eq_false leads.2).2
  rw [repetitions_of_above leads.1] at below
  rw [taken]
  apply h.cons trail.mem_keys_of_known next.mem_keys_of_known apart.symm
  rw [hops] at below
  rw [Trail.taken]
  omega

theorem unrolled_eq_expand (below : Trail scope → Walk (List Field)) {depth : Nat}
    (h : Affordable scope trail.taken) (deep : scope.longestChain ≤ depth + trail.taken.length) :
    unrolled below depth trail = trail.expand := by
  -- every level pays for one hop, so a trail at the last level would have taken more than
  -- it can afford
  induction depth generalizing trail with
  | zero =>
    have short := h.length_lt
    omega
  | succ depth ih =>
    rw [unrolled, expand]
    have same : Agree (fun next (_ : trail.HopsTo next) => unrolled below depth next)
        (fun next _ => next.expand) := by
      intro next going apart
      have longer : next.taken.length = trail.taken.length + 1 := by
        rw [Trail.taken, going.1, hops, List.length_cons, Trail.taken]
      apply ih (affordable_of_hopsTo h going apart)
      omega
    rw [funext (field_agree same)]

end Trail

theorem length_hops (last : String) (above : List String) :
    (hops (last :: above)).length = above.length := by
  induction above generalizing last with
  | nil => rfl
  | cons parent rest ih => rw [hops, List.length_cons, ih, List.length_cons]

theorem Visited.mem_keys {above : List String} {node : Shape} (h : Visited scope above node) :
    node.collection ∈ scope.snapshot.collections.keys := by
  obtain ⟨trail, here, _⟩ := h
  rw [← here]
  exact trail.mem_keys_of_known

theorem Scope.node_affordable {shape : Shape} (h : scope.resolve.outcome = .ok shape)
    {above : List String} {node : Shape} (reached : shape.Node above node) :
    Affordable scope (hops (node.collection :: above)) := by
  induction reached with
  | root => exact .nil
  | @step above node target field within member leads ih =>
    have visited := scope.node_visited h within
    have reached := within.step member leads
    rw [hops]
    apply ih.cons visited.mem_keys (scope.node_visited h reached).mem_keys
      (visited.apart member leads).symm
    exact (count_hops h reached (node.collection, target.collection)).1

/-- The recursion of a walk ends: unrolled as often as the longest chain has collections, it is the
whole walk from any start, and what is put below it is never asked for. Where the walk returns a
shape, none of its chains is longer. -/
theorem resolution_ends (scope : Scope) :
    (∀ start : Trail scope, start.above = [] → ∀ below : Trail scope → Walk (List Field),
      Trail.unrolled below scope.longestChain start = start.expand) ∧
    ∀ shape, scope.resolve.outcome = .ok shape → ∀ above node, shape.Node above node →
      (node.collection :: above).length ≤ scope.longestChain := by
  constructor
  · intro start path below
    have none : start.taken = [] := by
      rw [Trail.taken, path]
      rfl
    apply Trail.unrolled_eq_expand below
    · rw [none]
      exact .nil
    · omega
  · intro shape resolved above node reached
    have bound := (scope.node_affordable resolved reached).length_lt
    rw [length_hops] at bound
    rw [List.length_cons]
    omega

/-- Three collections in a round, each hop allowed twice: chains of five, of at most thirteen. -/
theorem resolution_ends_round :
    roundScope.longestChain = 13 ∧
      (∀ (collection : Collection)
        (known : roundScope.snapshot.collection? "countries" = some collection)
        (below : Trail roundScope → Walk (List Field)),
        Trail.unrolled below 13 ⟨"countries", [], collection, known⟩ =
          Trail.expand ⟨"countries", [], collection, known⟩) ∧
      roundScope.resolve.outcome = .ok (countryWith (cityWith (mayorWith (countryWith lastCity)))) ∧
      ["cities", "countries", "people", "cities", "countries"].length ≤
        roundScope.longestChain := by
  have thirteen : roundScope.longestChain = 13 := by decide +kernel
  have ends := resolution_ends roundScope
  have resolved : roundScope.resolve.outcome
      = .ok (countryWith (cityWith (mayorWith (countryWith lastCity)))) := by with_unfolding_all rfl
  have city : (countryWith (cityWith (mayorWith (countryWith lastCity)))).Node ["countries"]
      (cityWith (mayorWith (countryWith lastCity))) := .step .root (.head _) (.head _)
  have mayor := city.step (.tail _ (.head _)) (.head _)
  have again := mayor.step (.head _) (.head _)
  have reached := again.step (.head _) (.head _)
  refine ⟨thirteen, ?_, resolved, ends.2 _ resolved _ _ reached⟩
  intro collection known below
  rw [thirteen] at ends
  exact ends.1 _ rfl below

end DocumentViews
