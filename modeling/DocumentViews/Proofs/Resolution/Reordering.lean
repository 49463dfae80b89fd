import DocumentViews.Proofs.NameMap
import DocumentViews.Proofs.Resolution.Chains
import Mathlib.Data.List.Perm.Basic

/-! Where the order of relations does not matter.
A walk looks at the relations in one place only: it takes the first one that applies to a field. If
no field has two to choose from, all orders of the relations lead to the same walk, with the same
notes, whether it succeeds or fails. -/
namespace DocumentViews

namespace Scope

def candidates (scope : Scope) (name : String) (collection : Collection) (field : String) :
    List Relation :=
  scope.snapshot.relations.filter fun relation =>
    concerns relation name collection && (scope.classify relation name field).isSome

/-- No field of a collection has more than one relation that applies to it. -/
def Unambiguous (scope : Scope) : Prop :=
  ∀ entry ∈ scope.snapshot.collections.entries, ∀ field ∈ entry.2.fields.keys,
    (scope.candidates entry.1 entry.2 field).length ≤ 1

instance (scope : Scope) : Decidable scope.Unambiguous :=
  inferInstanceAs (Decidable (∀ entry ∈ scope.snapshot.collections.entries,
    ∀ field ∈ entry.2.fields.keys, (scope.candidates entry.1 entry.2 field).length ≤ 1))

def reordered (scope : Scope) (relations : List Relation) : Scope :=
  { scope with snapshot := { scope.snapshot with relations := relations } }

end Scope

theorem findSome?_eq_of_perm {α β : Type} {f : α → Option β} {first second : List α}
    (perm : second.Perm first) (few : (first.filter fun item => (f item).isSome).length ≤ 1) :
    second.findSome? f = first.findSome? f := by
  have found : (second.filterMap f).Perm (first.filterMap f) := perm.filterMap f
  have same : second.filterMap f = first.filterMap f := by
    have length : (first.filterMap f).length ≤ 1 := by
      rwa [List.length_filterMap_eq_countP, List.countP_eq_length_filter]
    match listed : first.filterMap f with
    | [] => exact List.perm_nil.mp (listed ▸ found)
    | [value] => exact List.perm_singleton.mp (listed ▸ found)
    | _ :: _ :: _ =>
      rw [listed] at length
      simp at length
  rw [← List.head?_filterMap, same, List.head?_filterMap]

variable {scope : Scope} {relations : List Relation}

theorem Scope.relationFor_reordered (perm : relations.Perm scope.snapshot.relations)
    {name field : String} {collection : Collection}
    (few : (scope.candidates name collection field).length ≤ 1) :
    (scope.reordered relations).relationFor name collection field =
      scope.relationFor name collection field := by
  apply findSome?_eq_of_perm (perm.filter _)
  rw [List.filter_filter]
  simpa [candidates, Scope.reordered, Bool.and_comm] using few

namespace Trail

def reordered (trail : Trail scope) (relations : List Relation) :
    Trail (scope.reordered relations) :=
  ⟨trail.here, trail.above, trail.collection, trail.known⟩

/-- Apart from the choice of a relation, a field is walked without a look at the relations. -/
theorem nested_reordered (trail : Trail scope) {lower : (trail.reordered relations).Descent}
    {descend : trail.Descent}
    (below : ∀ next going, lower (next.reordered relations) going = descend next going)
    (field : String) (info : FieldInfo) (relation : Relation) (kind : RelationKind) :
    (trail.reordered relations).nested lower field info relation kind =
      trail.nested descend field info relation kind := by
  have same : lower = fun next going =>
    descend ⟨next.here, next.above, next.collection, next.known⟩ going := by
    funext next going
    exact below ⟨next.here, next.above, next.collection, next.known⟩ going
  subst same
  rfl

theorem field_of_none {trail : Trail scope} {entry : String × FieldInfo}
    (none : scope.relationFor trail.here trail.collection entry.1 = none)
    (descend : trail.Descent) :
    trail.field descend entry = pure (plain entry.1 entry.2) := by
  rw [field, none]

theorem field_of_some {trail : Trail scope} {entry : String × FieldInfo} {relation : Relation}
    {kind : RelationKind} (applies : scope.relationFor trail.here trail.collection entry.1 =
      some (relation, kind)) (descend : trail.Descent) :
    trail.field descend entry = trail.nested descend entry.1 entry.2 relation kind >>= fun found =>
      pure (found.or (plain entry.1 entry.2)) := by
  rw [field, applies]

theorem field_reordered (clear : scope.Unambiguous) (perm : relations.Perm scope.snapshot.relations)
    (trail : Trail scope) {lower : (trail.reordered relations).Descent} {descend : trail.Descent}
    (below : ∀ next going, lower (next.reordered relations) going = descend next going)
    {entry : String × FieldInfo} (listed : entry ∈ trail.collection.fields.entries) :
    (trail.reordered relations).field lower entry = trail.field descend entry := by
  have stands : (trail.here, trail.collection) ∈ scope.snapshot.collections.entries :=
    (NameMap.mem_entries_iff _ _).mpr trail.known
  have few := clear _ stands entry.1 (List.mem_map_of_mem listed)
  have same : (scope.reordered relations).relationFor trail.here trail.collection entry.1
      = scope.relationFor trail.here trail.collection entry.1 :=
        Scope.relationFor_reordered perm few
  cases found : scope.relationFor trail.here trail.collection entry.1 with
  | none => exact (field_of_none (same.trans found) lower).trans (field_of_none found descend).symm
  | some applied =>
    obtain ⟨relation, kind⟩ := applied
    rw [field_of_some found descend]
    apply (field_of_some (same.trans found) lower).trans
    exact congrArg (· >>= _) (nested_reordered trail below entry.1 entry.2 relation kind)

end Trail

theorem Walk.gather_congr {α β : Type} {step other : α → Walk (Option β)} {list : List α}
    (same : ∀ item ∈ list, step item = other item) : gather step list = gather other list := by
  induction list with
  | nil => rfl
  | cons item rest ih =>
    rw [gather, gather, same item List.mem_cons_self, ih fun later member =>
      same later (List.mem_cons_of_mem item member)]

theorem Trail.expand_reordered (clear : scope.Unambiguous)
    (perm : relations.Perm scope.snapshot.relations) (trail : Trail scope) :
    (trail.reordered relations).expand = trail.expand := by
  induction trail using expand.induct with
  | case1 trail ih =>
    rw [expand, expand]
    exact Walk.gather_congr fun entry listed => field_reordered clear perm trail ih listed

/-- Where no field has two relations to choose from, all orders of the relations give the same walk:
the same shape or failure, after the same notes in the same order. -/
theorem resolve_eq_of_perm_relations (clear : scope.Unambiguous)
    (perm : relations.Perm scope.snapshot.relations) :
    (scope.reordered relations).resolve = scope.resolve := by
  cases known : scope.snapshot.collection? scope.root with
  | none =>
    have unknown : (scope.reordered relations).resolve = Walk.missing scope.root :=
      Scope.resolve_of_unknown known
    rw [unknown, Scope.resolve_of_unknown known]
  | some collection =>
    let start : Trail scope := ⟨scope.root, [], collection, known⟩
    calc (scope.reordered relations).resolve
      _ = if scope.policy.excludes scope.root then pure (.mk scope.root collection.scalars)
          else (start.reordered relations).expand >>= fun fields => pure (.mk scope.root fields) :=
        @Scope.resolve_of_known (scope.reordered relations) collection known
      _ = scope.resolve := by rw [start.expand_reordered clear perm, Scope.resolve_of_known known]

/-- Pages with their relations the other way round: one target is left out, and noted, in
both walks. -/
theorem resolve_eq_of_perm_relations_pages :
    pagesScope.Unambiguous ∧ pagesScope.snapshot.relations.reverse ≠ pagesScope.snapshot.relations ∧
      (pagesScope.reordered pagesScope.snapshot.relations.reverse).resolve = pagesScope.resolve ∧
      pagesScope.resolve = ⟨[⟨"pages", "item", .filtered "pages"⟩], .ok pagesShape⟩ := by
  have clear : pagesScope.Unambiguous := by decide +kernel
  have turned : pagesScope.snapshot.relations.reverse ≠ pagesScope.snapshot.relations := by decide
  exact ⟨clear, turned, resolve_eq_of_perm_relations clear (List.reverse_perm _), by
    with_unfolding_all rfl⟩

end DocumentViews
