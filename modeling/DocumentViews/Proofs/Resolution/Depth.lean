import DocumentViews.Proofs.Resolution.Chains
import DocumentViews.Proofs.Resolution.Narrowing

/-! A smaller depth only cuts the shape off.
Two walks that differ in nothing but how often a hop may be repeated decide alike on every field:
the path decides, and never the bound. So where the walk with the larger bound finds a shape, the
other one finds the same shape, except that some of its nodes show their columns only. -/
namespace DocumentViews

namespace Shape

mutual
/-- The first shape is the second one with some nodes cut off. A node may show its columns
only where the hop to it has been taken as often as the limit says; the list holds the
collections above. -/
inductive Truncates (snapshot : Snapshot) (limit : Nat) : List String → Shape → Shape → Prop
  | cut {parent name : String} {rest : List String} {collection : Collection} {fields : List Field}
      (known : snapshot.collection? name = some collection)
      (spent : limit ≤ (hops (name :: parent :: rest)).count (parent, name)) :
      Truncates snapshot limit (parent :: rest) (.mk name collection.scalars) (.mk name fields)
  | kept {above : List String} {name : String} {lefts fields : List Field}
      (each : TruncatesFields snapshot limit (name :: above) lefts fields) :
      Truncates snapshot limit above (.mk name lefts) (.mk name fields)

/-- Fields one by one: the same but for their targets. -/
inductive TruncatesFields (snapshot : Snapshot) (limit : Nat) :
    List String → List Field → List Field → Prop
  | nil {above : List String} : TruncatesFields snapshot limit above [] []
  | scalar {above : List String} {name : String} {lefts fields : List Field}
      (others : TruncatesFields snapshot limit above lefts fields) :
      TruncatesFields snapshot limit above (.scalar name :: lefts) (.scalar name :: fields)
  | relation {above : List String} {name : String} {link : Link} {left target : Shape}
      {lefts fields : List Field}
      (here : Truncates snapshot limit above left target)
      (others : TruncatesFields snapshot limit above lefts fields) :
      TruncatesFields snapshot limit above (.relation name link left :: lefts)
        (.relation name link target :: fields)
  | polymorphic {above : List String} {name discriminant : String} {inner targets : List Shape}
      {lefts fields : List Field} (here : TruncatesTargets snapshot limit above inner targets)
      (others : TruncatesFields snapshot limit above lefts fields) :
      TruncatesFields snapshot limit above (.polymorphic name discriminant inner :: lefts)
        (.polymorphic name discriminant targets :: fields)

inductive TruncatesTargets (snapshot : Snapshot) (limit : Nat) :
    List String → List Shape → List Shape → Prop
  | nil {above : List String} : TruncatesTargets snapshot limit above [] []
  | cons {above : List String} {left target : Shape} {lefts targets : List Shape}
      (here : Truncates snapshot limit above left target)
      (others : TruncatesTargets snapshot limit above lefts targets) :
      TruncatesTargets snapshot limit above (left :: lefts) (target :: targets)
end

variable {snapshot : Snapshot} {limit : Nat} {above : List String}

theorem truncatesTargets_of_forall {lefts targets : List Shape}
    (h : List.Forall₂ (Truncates snapshot limit above) lefts targets) :
    TruncatesTargets snapshot limit above lefts targets := by
  induction h with
  | nil => exact .nil
  | cons here _ ih => exact .cons here ih

theorem truncates_scalars (collection : Collection) :
    TruncatesFields snapshot limit above collection.scalars collection.scalars := by
  unfold Collection.scalars
  induction collection.columns with
  | nil => exact .nil
  | cons name rest ih => exact .scalar ih

end Shape

def Policy.bounded (policy : Policy) (limit : UInt64) : Policy := { policy with maxDepth := limit }

namespace Trail

variable {scope : Scope} {limit : UInt64} {trail : Trail scope}

theorem ends_bounded (shallower : limit ≤ scope.policy.maxDepth) :
    (trail.under (scope.policy.bounded limit)).ends =
      (trail.ends || decide (limit.toNat ≤ trail.repetitions)) := by
  have smaller : limit.toNat ≤ scope.policy.maxDepth.toNat := UInt64.le_iff_toNat_le.mp shallower
  have root : (trail.under (scope.policy.bounded limit)).ends =
      ((trail.here == scope.root && !scope.policy.revisitRoot) ||
        decide (limit.toNat ≤ trail.repetitions)) := rfl
  rw [root, ends, Bool.or_assoc, ← Bool.decide_or]
  congr 2
  apply propext
  omega

theorem target_truncates (shallower : limit ≤ scope.policy.maxDepth)
    (below : ∀ next : Trail scope, trail.HopsTo next →
      Walk.Tracks (Shape.TruncatesFields scope.snapshot limit.toNat (next.here :: next.above))
        (next.under (scope.policy.bounded limit)).expand next.expand) :
    TracksBelow (scope.policy.bounded limit)
      (Shape.Truncates scope.snapshot limit.toNat (trail.here :: trail.above)) trail
      (fun next _ => next.expand) (fun next _ => next.expand) := by
  intro name collection known _
  let next := trail.onward name collection known
  have bounded : (next.under (scope.policy.bounded limit)).ends =
      (next.ends || decide (limit.toNat ≤ next.repetitions)) := ends_bounded shallower
  unfold target
  split
  · rename_i stop
    split
    · exact .pure (.kept (Shape.truncates_scalars collection))
    · rename_i going
      -- only the smaller bound stops here
      have spent : limit.toNat ≤ next.repetitions := by
        have either := bounded.symm.trans stop
        simpa [next, Bool.eq_false_iff.mpr going] using either
      rw [repetitions_of_above rfl] at spent
      intro found h
      obtain ⟨fields, _, h⟩ := Walk.bind_ok h
      cases Walk.pure_ok h
      exact ⟨_, rfl, .cut known spent⟩
  · rename_i going
    split
    · rename_i stop
      exact absurd (bounded.trans (by simp [next, stop])) going
    · rename_i onward
      apply (below next ⟨rfl, Bool.eq_false_iff.mpr onward⟩).bind
      intro lefts fields _ each
      exact .pure (.kept each)

/-- No target of a field that was found is left out by the policy it was found under. -/
theorem remaining_found {descend : trail.Descent} {entry : String × FieldInfo}
    {name discriminant : String} {targets : List Shape}
    (made : (trail.field descend entry).outcome =
      .ok (some (.polymorphic name discriminant targets))) :
    remaining scope.policy targets = targets ∧ targets ≠ [] := by
  have makes := field_ok made
  constructor
  · apply List.filter_eq_self.mpr
    intro target member
    rw [(makes.admitted member).1]
    rfl
  · cases makes with
    | chooses chooses => exact chooses.inhabited

theorem leaves_truncated {descend : trail.Descent} {entry : String × FieldInfo}
    {left found : Option Field} (made : (trail.field descend entry).outcome = .ok found)
    (h : Leaves (scope.policy.bounded limit)
      (Shape.Truncates scope.snapshot limit.toNat (trail.here :: trail.above)) entry left found)
    {lefts fields : List Field}
    (others : Shape.TruncatesFields scope.snapshot limit.toNat
      (trail.here :: trail.above) lefts fields) :
    Shape.TruncatesFields scope.snapshot limit.toNat (trail.here :: trail.above)
      (left.toList ++ lefts) (found.toList ++ fields) := by
  obtain ⟨inner, outer, remains, rfl, rfl⟩ := h
  cases remains with
  | nothing =>
    unfold plain
    split
    · exact others
    · exact .scalar others
  | joined _ here => exact .relation here others
  | excluded cut =>
    have admitted := ((field_ok made).admitted (.head _)).1
    cases admitted.symm.trans cut
  | chosen _ each =>
    have same : remaining (scope.policy.bounded limit) _ = _ := (remaining_found made).1
    rw [same] at each
    exact .polymorphic (Shape.truncatesTargets_of_forall each) others
  | emptied none =>
    have same : remaining (scope.policy.bounded limit) _ = _ := (remaining_found made).1
    exact absurd (same.symm.trans none) (remaining_found made).2

theorem expand_truncates (shallower : limit ≤ scope.policy.maxDepth) (trail : Trail scope) :
    Walk.Tracks (Shape.TruncatesFields scope.snapshot limit.toNat (trail.here :: trail.above))
      (trail.under (scope.policy.bounded limit)).expand trail.expand := by
  induction trail using Trail.expand.induct with
  | case1 trail ih =>
    have narrows : (scope.policy.bounded limit).Narrows scope.policy := ⟨fun _ cut => cut, rfl⟩
    rw [expand, expand]
    apply Walk.Tracks.gather (Leaves (scope.policy.bounded limit)
      (Shape.Truncates scope.snapshot limit.toNat (trail.here :: trail.above)))
    · exact .nil
    · intro entry _ left found lefts fields made leaves others
      exact leaves_truncated made leaves others
    · intro entry _
      exact field_tracks narrows (target_truncates shallower ih) entry

end Trail

/-- Where a walk finds a shape, the walk with a smaller bound on repeated hops finds that shape with
nodes cut off, each of them at a hop that was taken as often as the smaller bound allows. -/
theorem smaller_depth_truncates (scope : Scope) {limit : UInt64}
    (shallower : limit ≤ scope.policy.maxDepth) {shape : Shape}
    (h : scope.resolve.outcome = .ok shape) :
    ∃ left, (scope.under { scope.policy with maxDepth := limit }).resolve.outcome = .ok left ∧
      Shape.Truncates scope.snapshot limit.toNat [] left shape := by
  apply Scope.resolve_tracks (scope.policy.bounded limit) rfl _ _ shape h
  · intro collection _
    exact .kept (Shape.truncates_scalars collection)
  · rintro ⟨_, _, collection, known⟩ rfl rfl found reached
    obtain ⟨lefts, walked, each⟩ := Trail.expand_truncates shallower _ found reached
    exact ⟨lefts, walked, .kept each⟩

/-- With one hop each, people no longer show their pages, neither as author nor as item. -/
theorem smaller_depth_truncates_pages :
    let person : Shape := .mk "people" [.scalar "id"]
    let left : Shape :=
      .mk "pages"
        [.relation "author" ⟨.manyToOne, ⟨"pages", "author", "id"⟩, none⟩ person,
         .scalar "collection",
         .polymorphic "item" "collection" [.mk "notes" [.scalar "id"], person]]
    (1 : UInt64) ≤ pagesScope.policy.maxDepth ∧ pagesScope.resolve.outcome = .ok pagesShape ∧
      (pagesScope.under { pagesScope.policy with maxDepth := 1 }).resolve.outcome = .ok left ∧
      Shape.Truncates pagesScope.snapshot 1 [] left pagesShape := by
  intro person left
  have shallower : (1 : UInt64) ≤ pagesScope.policy.maxDepth := by decide
  have resolved : pagesScope.resolve.outcome = .ok pagesShape := by with_unfolding_all rfl
  obtain ⟨found, again, truncates⟩ := smaller_depth_truncates pagesScope shallower resolved
  have cut :
      (pagesScope.under { pagesScope.policy with maxDepth := 1 }).resolve.outcome = .ok left := by
    with_unfolding_all rfl
  cases again.symm.trans cut
  exact ⟨shallower, resolved, cut, truncates⟩

end DocumentViews
