import DocumentViews.Proofs.Resolution.Visited
import Mathlib.Data.List.Perm.Basic

/-! The log of a walk, visit by visit.
A visit is made to one field of the collection where a trail stands. It makes remarks of its own,
and sets off the visits to the fields of its targets. The log of a walk that succeeds consists of
the remarks of its visits, each visit as often as it is made, and what is noted from the start of a
visit to its end stands there in one piece. -/
namespace DocumentViews

/-- Notes with whole logs written in between. -/
inductive Woven : List (List Note) → List Note → List Note → Prop
  | nil : Woven [] [] []
  | own {logs : List (List Note)} {loud quiet : List Note} (note : Note)
      (rest : Woven logs loud quiet) :
      Woven logs (note :: loud) (note :: quiet)
  | log {logs : List (List Note)} {loud quiet : List Note} (log : List Note)
      (rest : Woven logs loud quiet) :
      Woven (log :: logs) (log ++ loud) quiet

namespace Woven

variable {logs others : List (List Note)} {loud quiet later after : List Note}

theorem refl (notes : List Note) : Woven [] notes notes := by
  induction notes with
  | nil => exact nil
  | cons note rest ih => exact ih.own note

theorem append (h : Woven logs loud quiet) (next : Woven others later after) :
    Woven (logs ++ others) (loud ++ later) (quiet ++ after) := by
  induction h with
  | nil => exact next
  | own note _ ih => exact ih.own note
  | log log _ ih =>
    rw [List.append_assoc]
    exact ih.log log

theorem perm (h : Woven logs loud quiet) : loud.Perm (quiet ++ logs.flatten) := by
  induction h with
  | nil => exact .refl []
  | own note _ ih => exact ih.cons note
  | log log _ ih => exact (ih.append_left log).trans (List.perm_append_comm_assoc log _ _)

theorem sublist (h : Woven logs loud quiet) : quiet.Sublist loud := by
  induction h with
  | nil => exact .slnil
  | own note _ ih => exact ih.cons_cons note
  | log log _ ih => exact ih.trans (List.sublist_append_right log _)

theorem infix_of_mem (h : Woven logs loud quiet) {log : List Note} (member : log ∈ logs) :
    log <:+: loud := by
  induction h with
  | nil => cases member
  | own note _ ih => exact (ih member).trans (List.infix_cons List.infix_rfl)
  | log first _ ih =>
    rcases List.mem_cons.mp member with rfl | there
    · exact (List.prefix_append log _).isInfix
    · exact (ih there).trans (List.suffix_append first _).isInfix

end Woven

namespace Walk

variable {α β : Type}

def silent (walk : Walk α) : Walk α := ⟨[], walk.outcome⟩

theorem notes_bind {first : Walk α} {value : α} (h : first.outcome = .ok value)
    (next : α → Walk β) :
    (first >>= next).notes = first.notes ++ (next value).notes := by
  show (first.andThen next).notes = _
  rw [andThen, h]

theorem notes_gather {step : α → Walk (Option β)} {list : List α} {found : List β}
    (h : (gather step list).outcome = .ok found) :
    (gather step list).notes = list.flatMap fun item => (step item).notes := by
  induction list generalizing found with
  | nil => rfl
  | cons item rest ih =>
    obtain ⟨head, others, made, later, _⟩ := gather_cons_ok h
    rw [gather, notes_bind made, notes_bind later, ih later, List.flatMap_cons]
    exact congrArg _ (List.append_nil _)

theorem gather_each {step : α → Walk (Option β)} {list : List α} {found : List β}
    (h : (gather step list).outcome = .ok found) {item : α} (member : item ∈ list) :
    ∃ made, (step item).outcome = .ok made ∧ ∀ value ∈ made, value ∈ found := by
  induction list generalizing found with
  | nil => cases member
  | cons first rest ih =>
    obtain ⟨head, others, made, later, rfl⟩ := gather_cons_ok h
    rcases List.mem_cons.mp member with rfl | there
    · exact ⟨head, made, fun value here => List.mem_append_left _ (Option.mem_toList.mpr here)⟩
    · obtain ⟨result, reached, kept⟩ := ih later there
      exact ⟨result, reached, fun value here => List.mem_append_right _ (kept value here)⟩

end Walk

namespace Trail

variable {scope : Scope} {α β : Type}

def beyond (trail : Trail scope) (f : (next : Trail scope) → trail.HopsTo next → List α)
    (target : Shape) : List α :=
  match known : scope.snapshot.collection? target.collection with
  | none => []
  | some collection =>
    if stop : (trail.onward target.collection collection known).ends then []
    else f (trail.onward target.collection collection known) ⟨rfl, Bool.eq_false_iff.mpr stop⟩

def echo (trail : Trail scope) : Shape → List Note := trail.beyond fun next _ => next.expand.notes

/-- One walk gives the same as another and weaves the walks below its targets into the notes. -/
def Echoes (trail : Trail scope) (targets : α → List Shape) (loud quiet : Walk α) : Prop :=
  ∀ value, loud.outcome = .ok value →
    quiet.outcome = .ok value ∧ Woven ((targets value).map trail.echo) loud.notes quiet.notes

variable {trail : Trail scope}

theorem beyond_of_hopsTo (f : (next : Trail scope) → trail.HopsTo next → List α) {target : Shape}
    {next : Trail scope} (here : next.here = target.collection) (going : trail.HopsTo next) :
    trail.beyond f target = f next going := by
  obtain ⟨name, above, collection, known⟩ := next
  have path := going.1
  subst here path
  unfold beyond
  split
  · rename_i unknown
    cases unknown.symm.trans known
  · rename_i other again
    cases again.symm.trans known
    exact dif_neg (Bool.eq_false_iff.mp going.2)

theorem beyond_of_ends (f : (next : Trail scope) → trail.HopsTo next → List α) {target : Shape}
    {next : Trail scope} (here : next.here = target.collection)
    (path : next.above = trail.here :: trail.above) (stop : next.ends = true) :
    trail.beyond f target = [] := by
  obtain ⟨name, above, collection, known⟩ := next
  subst here path
  unfold beyond
  split
  · rfl
  · rename_i other again
    cases again.symm.trans known
    exact dif_pos stop

namespace Echoes

variable {targets : α → List Shape}

theorem same {walk : Walk α} (none : ∀ value, walk.outcome = .ok value → targets value = []) :
    trail.Echoes targets walk walk := by
  intro value h
  rw [none value h]
  exact ⟨h, .refl _⟩

theorem bind {loud quiet : Walk α} {next other : α → Walk β} {all : β → List Shape}
    (later : α → β → List Shape) (first : trail.Echoes targets loud quiet)
    (second : ∀ value, trail.Echoes (later value) (next value) (other value))
    (both : ∀ value result, (next value).outcome = .ok result →
      all result = targets value ++ later value result) :
    trail.Echoes all (loud >>= next) (quiet >>= other) := by
  intro result h
  obtain ⟨value, reached, h⟩ := Walk.bind_ok h
  obtain ⟨same, woven⟩ := first value reached
  obtain ⟨again, rest⟩ := second value result h
  refine ⟨?_, ?_⟩
  · rw [Walk.outcome_bind, same]
    exact again
  · rw [Walk.notes_bind reached, Walk.notes_bind same, both value result h, List.map_append]
    exact woven.append rest

theorem pure (value : α) (none : targets value = []) :
    trail.Echoes targets (Pure.pure value) (Pure.pure value) :=
  same fun result h => by rw [← Walk.pure_ok h, none]

theorem after (first : Walk α) {next other : α → Walk β} {all : β → List Shape}
    (each : ∀ value, trail.Echoes all (next value) (other value)) :
    trail.Echoes all (first >>= next) (first >>= other) := by
  have none : trail.Echoes (fun _ => []) first first := same fun _ _ => rfl
  exact none.bind (fun _ => all) each fun _ _ _ => rfl

theorem map {loud quiet : Walk α} {all : β → List Shape} (f : α → β)
    (first : trail.Echoes targets loud quiet) (kept : ∀ value, all (f value) = targets value) :
    trail.Echoes all (loud >>= fun value => Pure.pure (f value)) (quiet >>=
      fun value => Pure.pure (f value)) := by
  apply first.bind (fun _ _ => []) fun value => pure (f value) rfl
  intro value result h
  rw [← Walk.pure_ok h, kept, List.append_nil]

theorem gather {step other : α → Walk (Option Shape)}
    (each : ∀ item, trail.Echoes Option.toList (step item) (other item)) (list : List α) :
    trail.Echoes id (Walk.gather step list) (Walk.gather other list) := by
  induction list with
  | nil => exact pure [] rfl
  | cons item rest ih =>
    -- the targets of the later items are what is left of the result behind those of the first
    apply (each item).bind (fun found result => result.drop found.toList.length)
    · intro found
      apply ih.map
      intro others
      exact List.drop_left
    · intro found result h
      obtain ⟨others, _, h⟩ := Walk.bind_ok h
      rw [← Walk.pure_ok h, List.drop_left]
      rfl

end Echoes

abbrev loudly (trail : Trail scope) : trail.Descent := fun next _ => next.expand

abbrev quietly (trail : Trail scope) : trail.Descent := fun next _ => next.expand.silent

def targetsOf (made : Option Field) : List Shape := made.elim [] Field.targets

theorem dropped_echoes (field : String) (about : Remark) :
    trail.Echoes targetsOf (do trail.remark field about; pure none)
      (do trail.remark field about; pure none) :=
  .same fun _ h => by rw [Walk.note_none_ok h]; rfl

theorem target_echoes {name : String} {collection : Collection}
    (known : scope.snapshot.collection? name = some collection) :
    trail.Echoes ([·]) (trail.target trail.loudly name collection known)
      (trail.target trail.quietly name collection known) := by
  intro shape h
  by_cases stop : (trail.onward name collection known).ends = true
  · rw [target, dif_pos stop] at h ⊢
    rw [target, dif_pos stop]
    cases Walk.pure_ok h
    have none : trail.echo (.mk name collection.scalars) = [] :=
      @beyond_of_ends _ _ trail _ _ (trail.onward name collection known) rfl rfl stop
    rw [List.map_singleton, none]
    exact ⟨rfl, .log [] .nil⟩
  · rw [target, dif_neg stop] at h ⊢
    rw [target, dif_neg stop]
    obtain ⟨fields, below, h⟩ := Walk.bind_ok h
    cases Walk.pure_ok h
    have going : trail.HopsTo (trail.onward name collection known) :=
      ⟨rfl, Bool.eq_false_iff.mpr stop⟩
    have heard : trail.echo (.mk name fields) = (trail.onward name collection known).expand.notes :=
      beyond_of_hopsTo _ rfl going
    have unheard : (trail.quietly (trail.onward name collection known) going).outcome =
        .ok fields := below
    rw [Walk.notes_bind below, Walk.notes_bind unheard, Walk.outcome_bind, unheard,
      List.map_singleton, heard]
    exact ⟨rfl, .log _ .nil⟩

theorem joined_echoes (field : String) (relation : Relation) (kind : RelationKind) (join : Join)
    {name : String} {collection : Collection}
    (known : scope.snapshot.collection? name = some collection) :
    trail.Echoes targetsOf
      (trail.joined trail.loudly field relation kind join name collection known)
      (trail.joined trail.quietly field relation kind join name collection known) := by
  unfold joined
  dsimp only
  generalize (if kind = .manyToOne then (trail.here, name) else (name, trail.here)) = holders
  split
  · apply Echoes.after
    intro sort
    exact (target_echoes known).map _ fun _ => rfl
  · exact dropped_echoes field _

theorem single_echoes (field : String) (relation : Relation) (kind : RelationKind) (name : String) :
    trail.Echoes targetsOf (trail.single trail.loudly field relation kind name)
      (trail.single trail.quietly field relation kind name) := by
  unfold single
  split
  · exact dropped_echoes field _
  · split
    · exact dropped_echoes field _
    · split
      · exact dropped_echoes field _
      · split
        · exact dropped_echoes field _
        · split
          · exact .same fun _ h => by cases h
          · rename_i known
            exact joined_echoes field relation kind _ known

theorem option_echoes (field name : String) :
    trail.Echoes Option.toList (trail.option trail.loudly field name)
      (trail.option trail.quietly field name) := by
  unfold option
  split
  · exact .same fun _ h => by rw [Walk.note_none_ok h]; rfl
  · split
    · exact .same fun _ h => by cases h
    · rename_i known
      exact (target_echoes known).map _ fun _ => rfl

theorem several_echoes (field : String) (relation : Relation) :
    trail.Echoes targetsOf (trail.several trail.loudly field relation)
      (trail.several trail.quietly field relation) := by
  unfold several
  dsimp only
  split
  · apply (Echoes.gather (option_echoes field) _).bind (fun _ _ => [])
    · intro targets
      exact .same fun _ _ => rfl
    · intro targets made h
      split at h
      · rename_i empty
        rw [Walk.note_none_ok h, List.isEmpty_iff.mp empty]
        rfl
      · rw [← Walk.pure_ok h]
        exact (List.append_nil _).symm
  · exact dropped_echoes field _

theorem nested_echoes (field : String) (info : FieldInfo) (relation : Relation)
    (kind : RelationKind) :
    trail.Echoes targetsOf (trail.nested trail.loudly field info relation kind)
      (trail.nested trail.quietly field info relation kind) := by
  unfold nested
  split
  · exact several_echoes field relation
  · split
    · split
      · exact dropped_echoes field _
      · exact single_echoes field relation _ _
    · exact single_echoes field relation _ _

theorem targetsOf_plain (field : String) (info : FieldInfo) :
    targetsOf (plain field info) = [] := by
  unfold plain
  split <;> rfl

theorem field_echoes (entry : String × FieldInfo) :
    trail.Echoes targetsOf (trail.field trail.loudly entry) (trail.field trail.quietly entry) := by
  unfold field
  split
  · exact .pure _ (targetsOf_plain _ _)
  · apply (nested_echoes _ _ _ _).map
    intro found
    cases found with
    | none => exact targetsOf_plain _ _
    | some made => rfl

end Trail

/-- A field of the collection where a trail stands. -/
structure Visit (scope : Scope) where
  trail : Trail scope
  entry : String × FieldInfo

namespace Visit

variable {scope : Scope}

def walk (visit : Visit scope) : Walk (Option Field) :=
  visit.trail.field visit.trail.loudly visit.entry

/-- What a visit notes itself, when the walks below its targets note nothing. -/
def remarks (visit : Visit scope) : List Note :=
  (visit.trail.field visit.trail.quietly visit.entry).notes

def targets (visit : Visit scope) : List Shape :=
  match visit.walk.outcome with
  | .ok made => Trail.targetsOf made
  | .error _ => []

variable {visit : Visit scope}

theorem woven {made : Option Field} (h : visit.walk.outcome = .ok made) :
    Woven (visit.targets.map visit.trail.echo) visit.walk.notes visit.remarks := by
  have same : visit.targets = Trail.targetsOf made := by rw [targets, h]
  rw [same]
  exact (Trail.field_echoes visit.entry made h).2

theorem lands {target : Shape} (member : target ∈ visit.targets) :
    visit.trail.Lands visit.trail.loudly target := by
  unfold targets at member
  split at member
  · rename_i made h
    cases made with
    | none => cases member
    | some field => exact (Trail.field_ok h).lands member
  · cases member

end Visit

namespace Trail

variable {scope : Scope}

def visits (trail : Trail scope) : List (Visit scope) :=
  trail.collection.fields.entries.flatMap fun entry =>
    ⟨trail, entry⟩ :: (Visit.targets ⟨trail, entry⟩).flatMap
      (trail.beyond fun next _ => next.visits)
termination_by trail.budget
decreasing_by exact budget_lt_of_hopsTo ‹_›

variable {trail : Trail scope} {fields : List Field}

theorem notes_expand (h : trail.expand.outcome = .ok fields) :
    trail.expand.notes = trail.collection.fields.entries.flatMap fun entry =>
        (Visit.mk trail entry).walk.notes := by
  rw [expand] at h ⊢
  exact Walk.notes_gather h

theorem visit_ok (h : trail.expand.outcome = .ok fields) {entry : String × FieldInfo}
    (listed : entry ∈ trail.collection.fields.entries) :
    ∃ made, (Visit.mk trail entry).walk.outcome = .ok made ∧ ∀ field ∈ made, field ∈ fields := by
  rw [expand] at h
  exact Walk.gather_each h listed

theorem visit_infix (h : trail.expand.outcome = .ok fields) {entry : String × FieldInfo}
    (listed : entry ∈ trail.collection.fields.entries) :
    (Visit.mk trail entry).walk.notes <:+: trail.expand.notes := by
  rw [notes_expand h, List.flatMap_def]
  exact List.infix_of_mem_flatten (List.mem_map_of_mem listed)

theorem visit_of_field (h : trail.expand.outcome = .ok fields) {field : Field}
    (member : field ∈ fields) :
    ∃ entry ∈ trail.collection.fields.entries, (Visit.mk trail entry).walk.outcome =
      .ok (some field) := by
  rw [expand] at h
  exact Walk.mem_gather h member

theorem field_of_target (h : trail.expand.outcome = .ok fields) {entry : String × FieldInfo}
    (listed : entry ∈ trail.collection.fields.entries) {target : Shape}
    (leads : target ∈ (Visit.mk trail entry).targets) :
    ∃ field ∈ fields, target ∈ field.targets := by
  obtain ⟨made, reached, kept⟩ := visit_ok h listed
  rw [Visit.targets, reached] at leads
  cases made with
  | none => cases leads
  | some field => exact ⟨field, kept field rfl, leads⟩

/-- The log below a trail consists of the remarks of the visits from there on. -/
theorem expand_perm (h : trail.expand.outcome = .ok fields) :
    trail.expand.notes.Perm (trail.visits.flatMap Visit.remarks) := by
  induction trail using visits.induct generalizing fields with
  | case1 trail ih =>
    -- where the trail ends there is neither a note nor a visit, and else the induction is
    -- on the walk below
    have below (entry : String × FieldInfo) (target : Shape)
        (leads : target ∈ (Visit.mk trail entry).targets) :
        (trail.echo target).Perm
          ((trail.beyond (fun next _ => next.visits) target).flatMap Visit.remarks) := by
      obtain ⟨next, here, path, ⟨stop, _⟩ | ⟨going, reached⟩⟩ := Visit.lands leads
      · rw [echo, beyond_of_ends _ here path stop, beyond_of_ends _ here path stop]
        rfl
      · rw [echo, beyond_of_hopsTo _ here going, beyond_of_hopsTo _ here going]
        exact ih next going reached
    rw [notes_expand h, visits, List.flatMap_assoc]
    apply List.Perm.flatMap_left
    intro entry listed
    obtain ⟨made, reached, _⟩ := visit_ok h listed
    rw [List.flatMap_cons, List.flatMap_assoc]
    apply (Visit.woven reached).perm.trans
    rw [← List.flatMap_def]
    exact (List.Perm.flatMap_left _ (below entry)).append_left _

end Trail

/-- A visit that is made on the way to a shape, and the node that comes of the collection
visited. -/
structure Visit.MadeAt {scope : Scope} (visit : Visit scope) (shape node : Shape) : Prop where
  reached : shape.Node visit.trail.above node
  here : visit.trail.here = node.collection
  going : visit.trail.halts = false
  listed : visit.entry ∈ visit.trail.collection.fields.entries

namespace Scope

def visits (scope : Scope) : List (Visit scope) :=
  match known : scope.snapshot.collection? scope.root with
  | none => []
  | some collection =>
    if scope.policy.excludes scope.root then []
    else (⟨scope.root, [], collection, known⟩ : Trail scope).visits

variable {scope : Scope} {shape node : Shape} {trail : Trail scope}

theorem visits_of_known {collection : Collection}
    (known : scope.snapshot.collection? scope.root = some collection) :
    scope.visits = if scope.policy.excludes scope.root then []
      else (⟨scope.root, [], collection, known⟩ : Trail scope).visits := by
  unfold visits
  split
  · rename_i unknown
    cases unknown.symm.trans known
  · rename_i other again
    cases again.symm.trans known
    rfl

/-- A walk that succeeds is the walk from its root on, or shows the columns of an excluded root. -/
theorem resolve_from_root (h : scope.resolve.outcome = .ok shape) :
    ∃ start : Trail scope, start.here = shape.collection ∧ start.above = [] ∧
      (start.halts = true ∧ scope.resolve.notes = [] ∧ scope.visits = [] ∨
        start.halts = false ∧ start.expand.outcome = .ok shape.fields ∧
          scope.resolve.notes = start.expand.notes ∧ scope.visits = start.visits) := by
  cases known : scope.snapshot.collection? scope.root with
  | none =>
    rw [resolve_of_unknown known] at h
    cases h
  | some collection =>
    let start : Trail scope := ⟨scope.root, [], collection, known⟩
    have halts : start.halts = scope.policy.excludes scope.root := rfl
    rw [resolve_of_known known] at h ⊢
    rw [visits_of_known known]
    cases stop : scope.policy.excludes scope.root with
    | true =>
      rw [if_pos stop] at h
      cases Walk.pure_ok h
      exact ⟨start, rfl, rfl, .inl ⟨halts.trans stop, rfl, rfl⟩⟩
    | false =>
      rw [stop, if_neg Bool.false_ne_true] at h
      obtain ⟨fields, walked, h⟩ := Walk.bind_ok h
      cases Walk.pure_ok h
      refine ⟨start, rfl, rfl, .inr ⟨halts.trans stop, walked, ?_, rfl⟩⟩
      rw [if_neg Bool.false_ne_true, Walk.notes_bind walked]
      exact List.append_nil _

theorem expand_of_node (h : scope.resolve.outcome = .ok shape)
    (reached : shape.Node trail.above node) (here : trail.here = node.collection)
    (going : trail.halts = false) : trail.expand.outcome = .ok node.fields := by
  obtain ⟨other, same, above, shown⟩ := scope.node_visited h reached
  cases Trail.eq_of_path (here.trans same.symm) above.symm
  exact shown.expand_ok going

/-- What is noted below a node stands in the log in one piece, and the visits from there on
are among all. -/
theorem within_of_node (h : scope.resolve.outcome = .ok shape)
    (reached : shape.Node trail.above node) (here : trail.here = node.collection)
    (going : trail.halts = false) :
    trail.expand.notes <:+: scope.resolve.notes ∧ trail.visits ⊆ scope.visits := by
  generalize path : trail.above = above at reached
  induction reached generalizing trail with
  | root =>
    obtain ⟨start, root, top, ⟨stop, _⟩ | ⟨_, _, notes, visits⟩⟩ := resolve_from_root h
    · cases Trail.eq_of_path (here.trans root.symm) (path.trans top.symm)
      cases going.symm.trans stop
    · cases Trail.eq_of_path (here.trans root.symm) (path.trans top.symm)
      exact ⟨notes ▸ List.infix_rfl, visits ▸ List.Subset.refl _⟩
  | @step above node target field within member leads ih =>
    obtain ⟨parent, stands, before, goingOn, _⟩ :=
      (scope.node_visited h within).nested member (Field.isNested_of_target leads)
    obtain ⟨notes, visits⟩ := ih stands goingOn before
    -- the target is one of a visit to the parent, and this trail is the one that leads on to it
    have walked := expand_of_node h (before ▸ within) stands goingOn
    obtain ⟨entry, listed, made⟩ := Trail.visit_of_field walked member
    have found : target ∈ (Visit.mk parent entry).targets := by
      rw [Visit.targets, made]
      exact leads
    have goes : parent.HopsTo trail :=
      ⟨by rw [path, stands, before], (Trail.halts_of_above path).symm.trans going⟩
    constructor
    · have heard : parent.echo target = trail.expand.notes := Trail.beyond_of_hopsTo _ here goes
      have visited : trail.expand.notes <:+: (Visit.mk parent entry).walk.notes :=
        heard ▸ (Visit.woven made).infix_of_mem (List.mem_map_of_mem found)
      exact (visited.trans (Trail.visit_infix walked listed)).trans notes
    · intro visit later
      apply visits
      rw [Trail.visits]
      refine List.mem_flatMap.mpr ⟨entry, listed,
        List.mem_cons_of_mem _ (List.mem_flatMap.mpr ⟨target, found, ?_⟩)⟩
      rwa [Trail.beyond_of_hopsTo _ here goes]

theorem madeAt_of_mem_visits (h : scope.resolve.outcome = .ok shape)
    (reached : shape.Node trail.above node) (here : trail.here = node.collection)
    (going : trail.halts = false) {visit : Visit scope} (member : visit ∈ trail.visits) :
    ∃ node, visit.MadeAt shape node := by
  induction trail using Trail.visits.induct generalizing node with
  | case1 trail ih =>
    rw [Trail.visits] at member
    obtain ⟨entry, listed, member⟩ := List.mem_flatMap.mp member
    rcases List.mem_cons.mp member with rfl | member
    · exact ⟨node, reached, here, going, listed⟩
    · obtain ⟨target, leads, member⟩ := List.mem_flatMap.mp member
      obtain ⟨next, there, path, ⟨stop, _⟩ | ⟨goes, below⟩⟩ := Visit.lands leads
      · rw [Trail.beyond_of_ends _ there path stop] at member
        cases member
      · rw [Trail.beyond_of_hopsTo _ there goes] at member
        obtain ⟨field, shown, leads⟩ :=
          Trail.field_of_target (expand_of_node h reached here going) listed leads
        have further : shape.Node next.above target := by
          rw [path, here]
          exact .step reached shown leads
        exact ih next goes further there ((Trail.halts_of_above path).trans goes.2) member

theorem mem_visits_iff (h : scope.resolve.outcome = .ok shape) (visit : Visit scope) :
    visit ∈ scope.visits ↔ ∃ node, visit.MadeAt shape node := by
  constructor
  · intro member
    obtain ⟨start, root, top, ⟨_, _, visits⟩ | ⟨going, _, _, visits⟩⟩ := resolve_from_root h
    · rw [visits] at member
      cases member
    · rw [visits] at member
      exact madeAt_of_mem_visits h (top ▸ .root) root going member
  · rintro ⟨node, made⟩
    apply (within_of_node h made.reached made.here made.going).2
    rw [Trail.visits]
    exact List.mem_flatMap.mpr ⟨visit.entry, made.listed, List.mem_cons_self⟩

theorem notes_perm_remarks (h : scope.resolve.outcome = .ok shape) :
    scope.resolve.notes.Perm (scope.visits.flatMap Visit.remarks) := by
  obtain ⟨start, _, _, ⟨_, notes, visits⟩ | ⟨_, walked, notes, visits⟩⟩ := resolve_from_root h
  · rw [notes, visits]
    rfl
  · rw [notes, visits]
    exact Trail.expand_perm walked

end Scope

end DocumentViews
