import DocumentViews.Proofs.Resolution.Step
import Mathlib.Data.List.Forall2

/-! Two walks over one schema, the second under a policy that leaves out at least as much.
Whatever the first walk finds at a field, the second finds what the policy leaves of it, and it
never fails where the first one succeeds. How the targets themselves compare is left open: the walk
below them is a parameter of both, as in the description of a single step. -/
namespace DocumentViews

namespace Walk

variable {α β γ δ : Type}

/-- For all that the second walk finds, the first one finds something related to it. -/
def Tracks (related : α → β → Prop) (less : Walk α) (more : Walk β) : Prop :=
  ∀ found, more.outcome = .ok found → ∃ left, less.outcome = .ok left ∧ related left found

namespace Tracks

variable {related : α → β → Prop} {result : γ → δ → Prop}

theorem pure {left : α} {found : β} (h : related left found) :
    Tracks related (Pure.pure left) (Pure.pure found) := by
  intro value same
  cases pure_ok same
  exact ⟨left, rfl, h⟩

theorem missing (less : Walk α) (name : String) : Tracks related less (Walk.missing name) := by
  intro value same
  cases same

theorem bind {less : Walk α} {more : Walk β} {next : α → Walk γ} {next' : β → Walk δ}
    (first : Tracks related less more)
    (later : ∀ left found, more.outcome = .ok found → related left found →
      Tracks result (next left) (next' found)) :
    Tracks result (less >>= next) (more >>= next') := by
  intro value h
  obtain ⟨found, reached, h⟩ := bind_ok h
  obtain ⟨left, begun, holds⟩ := first found reached
  obtain ⟨last, ended, h⟩ := later left found reached holds value h
  refine ⟨last, ?_, h⟩
  rw [outcome_bind, begun]
  exact ended

theorem noted (entry entry' : Note) {left : α} {found : β} (h : related left found) :
    Tracks related (do note entry; Pure.pure left) (do note entry'; Pure.pure found) := by
  intro value same
  obtain ⟨_, _, same⟩ := bind_ok same
  cases pure_ok same
  exact ⟨left, rfl, h⟩

theorem ite {test test' : Prop} [Decidable test] [Decidable test'] {less other : Walk α}
    {more other' : Walk β} (same : test ↔ test') (yes : test' → Tracks related less more)
    (no : ¬ test' → Tracks related other other') :
    Tracks related (if test then less else other) (if test' then more else other') := by
  by_cases holds : test'
  · rw [if_pos holds, if_pos (same.mpr holds)]
    exact yes holds
  · rw [if_neg holds, if_neg (holds ∘ same.mp)]
    exact no holds

theorem refl {walk : Walk α} : Tracks Eq walk walk := by
  intro found reached
  exact ⟨found, reached, rfl⟩

theorem gather {step : α → Walk (Option γ)} {step' : α → Walk (Option δ)}
    {whole : List γ → List δ → Prop} (each : α → Option γ → Option δ → Prop) {list : List α}
    (nil : whole [] []) (cons : ∀ item ∈ list, ∀ left found lefts founds, (step' item).outcome =
      .ok found → each item left found → whole lefts founds →
      whole (left.toList ++ lefts) (found.toList ++ founds))
    (steps : ∀ item ∈ list, Tracks (each item) (step item) (step' item)) :
    Tracks whole (Walk.gather step list) (Walk.gather step' list) := by
  induction list with
  | nil => exact pure nil
  | cons item rest ih =>
    have below := ih (fun other member => cons other (.tail _ member))
      (fun other member => steps other (.tail _ member))
    apply (steps item (.head _)).bind
    intro left found reached here
    apply below.bind
    intro lefts founds _ there
    exact pure (cons item (.head _) left found lefts founds reached here there)

end Tracks

end Walk

/-- A policy that leaves out at least as much as another one and treats the root alike. -/
structure Policy.Narrows (policy wide : Policy) : Prop where
  excludes : ∀ name, wide.excludes name = true → policy.excludes name = true
  revisitRoot : policy.revisitRoot = wide.revisitRoot

theorem Policy.Narrows.admitted {policy wide : Policy} (narrows : policy.Narrows wide)
    {name : String} (h : policy.excludes name = false) : wide.excludes name = false := by
  cases cut : wide.excludes name with
  | false => rfl
  | true => exact (narrows.excludes name cut).symm.trans h

def Scope.under (scope : Scope) (policy : Policy) : Scope := { scope with policy := policy }

namespace Trail

variable {scope : Scope} {policy : Policy}

def under (trail : Trail scope) (policy : Policy) : Trail (scope.under policy) :=
  ⟨trail.here, trail.above, trail.collection, trail.known⟩

def remaining (policy : Policy) (targets : List Shape) : List Shape :=
  targets.filter fun target => !policy.excludes target.collection

/-- What a policy leaves of a nested field, and what the field was. -/
inductive Remains (policy : Policy) (related : Shape → Shape → Prop) (field : String) :
    Option Field → Option Field → Prop
  | nothing : Remains policy related field none none
  | joined {link : Link} {left target : Shape}
      (admitted : policy.excludes target.collection = false) (h : related left target) :
      Remains policy related field (some (.relation field link left))
        (some (.relation field link target))
  | excluded {link : Link} {target : Shape} (h : policy.excludes target.collection = true) :
      Remains policy related field none (some (.relation field link target))
  | chosen {discriminant : String} {lefts targets : List Shape} (inhabited : lefts ≠ [])
      (h : List.Forall₂ related lefts (remaining policy targets)) :
      Remains policy related field (some (.polymorphic field discriminant lefts))
        (some (.polymorphic field discriminant targets))
  | emptied {discriminant : String} {targets : List Shape} (h : remaining policy targets = []) :
      Remains policy related field none (some (.polymorphic field discriminant targets))

def TracksBelow (policy : Policy) (related : Shape → Shape → Prop) (trail : Trail scope)
    (lower : (trail.under policy).Descent) (descend : trail.Descent) : Prop :=
  ∀ name collection (known : scope.snapshot.collection? name = some collection),
    policy.excludes name = false →
    Walk.Tracks related ((trail.under policy).target lower name collection known)
      (trail.target descend name collection known)

variable {related : Shape → Shape → Prop} {trail : Trail scope}
  {lower : (trail.under policy).Descent} {descend : trail.Descent} {field name : String}
  {relation : Relation} {kind : RelationKind}

theorem joined_tracks (below : TracksBelow policy related trail lower descend) {join : Join}
    {collection : Collection} (known : scope.snapshot.collection? name = some collection)
    (admitted : policy.excludes name = false) :
    Walk.Tracks (Remains policy related field)
      ((trail.under policy).joined lower field relation kind join name collection known)
      (trail.joined descend field relation kind join name collection known) := by
  have sorts : Walk.Tracks Eq ((trail.under policy).sortField field relation kind name collection)
      (trail.sortField field relation kind name collection) := Walk.Tracks.refl
  apply Walk.Tracks.ite Iff.rfl
  · intro columns
    apply sorts.bind
    rintro sort _ - rfl
    apply (below name collection known admitted).bind
    intro left shape reached holds
    obtain ⟨rfl, -⟩ := target_ok reached
    exact .pure (.joined admitted holds)
  · intro columns
    exact .noted _ _ .nothing

theorem single_found {found : Field}
    (h : (trail.single descend field relation kind name).outcome = .ok (some found)) :
    ∃ link target, found = .relation field link target ∧ target.collection = name := by
  unfold single at h
  split at h
  · cases Walk.note_none_ok h
  split at h
  · cases Walk.note_none_ok h
  split at h
  · cases Walk.note_none_ok h
  split at h
  · cases Walk.note_none_ok h
  split at h
  · cases h
  unfold joined at h
  generalize (if kind = .manyToOne then (trail.here, name) else (name, trail.here)) = holders at h
  dsimp only at h
  split at h
  · obtain ⟨sort, _, h⟩ := Walk.bind_ok h
    obtain ⟨shape, reached, h⟩ := Walk.bind_ok h
    cases Walk.pure_ok h
    exact ⟨_, shape, rfl, (target_ok reached).1⟩
  · cases Walk.note_none_ok h

theorem single_tracks (narrows : policy.Narrows scope.policy)
    (below : TracksBelow policy related trail lower descend) :
    Walk.Tracks (Remains policy related field)
      ((trail.under policy).single lower field relation kind name)
      (trail.single descend field relation kind name) := by
  cases cut : policy.excludes name with
  | true =>
    intro found h
    refine ⟨none, ?_, ?_⟩
    · unfold single
      rw [if_pos (by exact cut)]
      rfl
    · cases found with
      | none => exact .nothing
      | some made =>
        obtain ⟨link, target, rfl, rfl⟩ := single_found h
        exact .excluded cut
  | false =>
    have kept : ¬ (scope.under policy).policy.excludes name = true := Bool.eq_false_iff.mp cut
    unfold single
    rw [if_neg kept, if_neg (Bool.eq_false_iff.mp (narrows.admitted cut))]
    apply Walk.Tracks.ite Iff.rfl
    · intro self
      exact .noted _ _ .nothing
    intro apart
    apply Walk.Tracks.ite Iff.rfl
    · intro back
      exact .noted _ _ .nothing
    intro forward
    cases relation.join? with
    | none => exact .noted _ _ .nothing
    | some join =>
      dsimp only [Scope.under]
      split
      · exact .missing _ _
      · exact joined_tracks below _ cut

theorem filters_under (narrows : policy.Narrows scope.policy) (name : String) :
    (trail.under policy).filters name = (policy.excludes name || trail.filters name) := by
  have root : (scope.under policy).policy.revisitRoot = scope.policy.revisitRoot :=
    narrows.revisitRoot
  unfold filters
  rw [root]
  cases cut : policy.excludes name with
  | true => simp [Scope.under, cut]
  | false => simp [Scope.under, under, parent?, cut, narrows.admitted cut]

theorem option_tracks (narrows : policy.Narrows scope.policy)
    (below : TracksBelow policy related trail lower descend) :
    Walk.Tracks (fun left found => List.Forall₂ related left.toList (remaining policy found.toList))
      ((trail.under policy).option lower field name) (trail.option descend field name) := by
  have filters := trail.filters_under narrows name
  cases cut : policy.excludes name with
  | true =>
    intro found h
    refine ⟨none, ?_, ?_⟩
    · unfold option
      rw [if_pos (by rw [filters, cut]; rfl)]
      rfl
    · have emptied : remaining policy found.toList = [] := by
        cases found with
        | none => rfl
        | some shape =>
          have named := (option_ok h).1
          have named : shape.collection = name := (Option.guard_eq_some_iff.mp named.symm).1.symm
          simp [remaining, named, cut]
      show List.Forall₂ related [] (remaining policy found.toList)
      rw [emptied]
      exact .nil
  | false =>
    rw [cut, Bool.false_or] at filters
    unfold option
    apply Walk.Tracks.ite (by rw [filters])
    · intro filtered
      exact .noted _ _ .nil
    intro kept
    dsimp only [Scope.under]
    split
    · exact .missing _ _
    · rename_i collection known
      apply (below name collection known cut).bind
      intro left shape reached holds
      obtain ⟨rfl, -⟩ := target_ok reached
      apply Walk.Tracks.pure
      simpa [remaining, cut] using holds

theorem several_tracks (narrows : policy.Narrows scope.policy)
    (below : TracksBelow policy related trail lower descend) :
    Walk.Tracks (Remains policy related field) ((trail.under policy).several lower field relation)
      (trail.several descend field relation) := by
  unfold several
  apply Walk.Tracks.ite Iff.rfl
  · intro named
    have gathered :
        Walk.Tracks (fun lefts founds => List.Forall₂ related lefts (remaining policy founds))
          (Walk.gather ((trail.under policy).option lower field) (relation.allowed.getD []))
          (Walk.gather (trail.option descend field) (relation.allowed.getD [])) := by
      apply Walk.Tracks.gather fun _ left found =>
        List.Forall₂ related left.toList (remaining policy found.toList)
      · exact .nil
      · intro name _ left found lefts founds _ here there
        rw [remaining, List.filter_append]
        exact List.rel_append here there
      · intro name _
        exact option_tracks narrows below
    apply gathered.bind
    intro lefts targets _ each
    cases targets with
    | nil =>
      cases each
      exact .noted _ _ .nothing
    | cons target rest =>
      cases lefts with
      | nil =>
        intro found h
        cases Walk.pure_ok h
        exact ⟨none, rfl, .emptied (List.forall₂_nil_left_iff.mp each)⟩
      | cons left others => exact .pure (.chosen (List.cons_ne_nil _ _) each)
  · intro unnamed
    exact .noted _ _ .nothing

theorem nested_tracks (narrows : policy.Narrows scope.policy)
    (below : TracksBelow policy related trail lower descend) (info : FieldInfo) :
    Walk.Tracks (Remains policy related field)
      ((trail.under policy).nested lower field info relation kind)
      (trail.nested descend field info relation kind) := by
  unfold nested
  apply Walk.Tracks.ite Iff.rfl
  · intro own
    exact several_tracks narrows below
  intro other
  apply Walk.Tracks.ite Iff.rfl
  · intro single
    cases relation.related with
    | none => exact .noted _ _ .nothing
    | some name => exact single_tracks narrows below
  · intro several
    exact single_tracks narrows below

/-- What a policy leaves of a field: of a nested one as above, and else the column if there
is one. -/
def Leaves (policy : Policy) (related : Shape → Shape → Prop) (entry : String × FieldInfo)
    (left found : Option Field) : Prop :=
  ∃ inner outer, Remains policy related entry.1 inner outer ∧
    left = inner.or (plain entry.1 entry.2) ∧ found = outer.or (plain entry.1 entry.2)

theorem field_tracks (narrows : policy.Narrows scope.policy)
    (below : TracksBelow policy related trail lower descend) (entry : String × FieldInfo) :
    Walk.Tracks (Leaves policy related entry) ((trail.under policy).field lower entry)
      (trail.field descend entry) := by
  unfold field
  have same : (scope.under policy).relationFor (trail.under policy).here
      (trail.under policy).collection entry.1 = scope.relationFor trail.here trail.collection
      entry.1 := rfl
  rw [same]
  cases scope.relationFor trail.here trail.collection entry.1 with
  | none => exact .pure ⟨none, none, .nothing, rfl, rfl⟩
  | some applied =>
    apply (nested_tracks narrows below entry.2).bind
    intro left found _ remains
    exact .pure ⟨left, found, remains, rfl, rfl⟩

end Trail

/-- The whole walks compare as the walks from the root do. -/
theorem Scope.resolve_tracks {scope : Scope} (policy : Policy) {related : Shape → Shape → Prop}
    (same : policy.excludes scope.root = scope.policy.excludes scope.root)
    (hidden : ∀ collection : Collection, policy.excludes scope.root = true →
      related (.mk scope.root collection.scalars) (.mk scope.root collection.scalars))
    (walked : ∀ start : Trail scope, start.here = scope.root → start.above = [] →
      Walk.Tracks (fun lefts fields => related (.mk scope.root lefts) (.mk scope.root fields))
        (start.under policy).expand start.expand) :
    Walk.Tracks related (scope.under policy).resolve scope.resolve := by
  unfold resolve
  dsimp only [under]
  split
  · exact .missing _ _
  · rename_i collection known
    apply Walk.Tracks.ite (by rw [same])
    · intro cut
      exact .pure (hidden collection (same.trans cut))
    · intro going
      apply (walked ⟨scope.root, [], collection, known⟩ rfl rfl).bind
      intro lefts fields _ holds
      exact .pure holds

end DocumentViews
