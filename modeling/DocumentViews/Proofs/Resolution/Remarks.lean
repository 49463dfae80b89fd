import DocumentViews.Proofs.NameMap
import DocumentViews.Proofs.Resolution.Chains
import DocumentViews.Proofs.Resolution.Visits

/-! No relation is lost without a word.
A visit to a field that a relation applies to either nests documents or makes a remark that starts
with the field, and it says that it drops the field only if it does. -/
namespace DocumentViews

namespace Remark

/-- Whether a remark says that a field is dropped for a fault of the schema. -/
def drops : Remark → Bool
  | .noJoin => true
  | .unknownColumns _ _ _ _ => true
  | .noDiscriminant _ => true
  | _ => false

theorem drops_of_text {note : Note} (warns : note.remark.level = .warn)
    (spelled : "field dropped".toList <:+ note.text.toList) : note.remark.drops = true := by
  obtain ⟨collection, field, remark⟩ := note
  cases remark with
  | noJoin | unknownColumns | noDiscriminant => rfl
  | noRelated | excluded | selfRelation | backReference | filtered | noTargets => cases warns
  | unknownSort sort target =>
    -- The fourth warning ends in another word.
    have text : (Note.mk collection field (.unknownSort sort target)).text
        = collection ++ "." ++ field ++ ": " ++ ("sort field " ++ sort ++ " not in " ++ target) ++
          ", ignored" := by
      rw [String.append_assoc]
      rfl
    have ends : ", ignored".toList <:+
        (Note.mk collection field (.unknownSort sort target)).text.toList := by
      rw [text, String.toList_append]
      exact List.suffix_append _ _
    have both := List.suffix_of_suffix_length_le ends spelled (by decide)
    exact absurd both (by decide)

end Remark

theorem Note.starts_with_field (note : Note) :
    (note.collection ++ "." ++ note.field ++ ": ").toList <+: note.text.toList := by
  have whole : note.text.toList = (note.collection ++ "." ++ note.field ++ ": ").toList ++
      note.remark.text.toList :=
    String.toList_append
  rw [whole]
  exact List.prefix_append _ _

namespace Walk

variable {α β : Type}

theorem mem_notes_bind {first : Walk α} {next : α → Walk β} {note : Note}
    (member : note ∈ (first >>= next).notes) :
    note ∈ first.notes ∨ ∃ value, first.outcome = .ok value ∧ note ∈ (next value).notes := by
  cases reached : first.outcome with
  | ok value =>
    rw [notes_bind reached] at member
    exact (List.mem_append.mp member).imp_right fun later => ⟨value, rfl, later⟩
  | error missing =>
    change note ∈ (first.andThen next).notes at member
    rw [andThen, reached] at member
    exact .inl member

theorem mem_notes_gather {step : α → Walk (Option β)} {list : List α} {note : Note}
    (member : note ∈ (gather step list).notes) : ∃ item ∈ list, note ∈ (step item).notes := by
  induction list with
  | nil => cases member
  | cons item rest ih =>
    rcases mem_notes_bind member with here | ⟨found, _, member⟩
    · exact ⟨item, List.mem_cons_self, here⟩
    · rcases mem_notes_bind member with there | ⟨others, _, none⟩
      · obtain ⟨origin, listed, noted⟩ := ih there
        exact ⟨origin, List.mem_cons_of_mem item listed, noted⟩
      · cases none

end Walk

namespace Trail

variable {scope : Scope} {trail : Trail scope}

/-- A walk to a field that notes only remarks on it, at least one if nothing is nested there, and
none that drops the field if something is. -/
structure Accounts (trail : Trail scope) (field : String) (walk : Walk (Option Field)) : Prop where
  own : ∀ note ∈ walk.notes, note.collection = trail.here ∧ note.field = field
  told : walk.outcome = .ok none → walk.notes ≠ []
  kept : ∀ made, walk.outcome = .ok (some made) →
    made.isNested = true ∧ ∀ note ∈ walk.notes, note.remark.drops = false

theorem dropped_accounts (field : String) (about : Remark) :
    trail.Accounts field (do trail.remark field about; pure none) := by
  constructor
  · intro note member
    cases List.mem_singleton.mp member
    exact ⟨rfl, rfl⟩
  · intro _ empty
    cases empty
  · intro made h
    cases Walk.note_none_ok h

theorem missing_accounts (field name : String) : trail.Accounts field (Walk.missing name) := by
  constructor
  · intro note member
    cases member
  · intro h
    cases h
  · intro made h
    cases h

theorem target_silent {name : String} {collection : Collection}
    (known : scope.snapshot.collection? name = some collection) :
    (trail.target trail.quietly name collection known).notes = [] := by
  apply List.eq_nil_iff_forall_not_mem.mpr
  intro note member
  unfold target at member
  split at member
  · cases member
  · rcases Walk.mem_notes_bind member with below | ⟨fields, _, none⟩
    · cases below
    · cases none

theorem mem_sortField {field : String} {relation : Relation} {kind : RelationKind} {name : String}
    {collection : Collection} {note : Note}
    (member : note ∈ (trail.sortField field relation kind name collection).notes) :
    ∃ sort, note = ⟨trail.here, field, .unknownSort sort name⟩ := by
  unfold sortField at member
  split at member
  · cases member
  · cases member
  · split at member
    · cases member
    · exact ⟨_, List.mem_singleton.mp member⟩

theorem joined_accounts (field : String) (relation : Relation) (kind : RelationKind) (join : Join)
    {name : String} {collection : Collection}
    (known : scope.snapshot.collection? name = some collection) :
    trail.Accounts field (trail.joined trail.quietly field relation kind join
      name collection known) := by
  unfold joined
  dsimp only
  generalize (if kind = .manyToOne then (trail.here, name) else (name, trail.here)) = holders
  split
  -- the walk below is silent, so the order is all that there is to remark on
  · have sorts (note : Note) (member : note ∈ (do
          let sort ← trail.sortField field relation kind name collection
          let shape ← trail.target trail.quietly name collection known
          pure (some (Field.relation field ⟨kind, join, sort⟩ shape)) :
            Walk (Option Field)).notes) :
        ∃ sort, note = ⟨trail.here, field, .unknownSort sort name⟩ := by
      rcases Walk.mem_notes_bind member with here | ⟨sort, _, member⟩
      · exact mem_sortField here
      · rcases Walk.mem_notes_bind member with below | ⟨shape, _, none⟩
        · rw [target_silent known] at below
          cases below
        · cases none
    constructor
    · intro note member
      obtain ⟨sort, rfl⟩ := sorts note member
      exact ⟨rfl, rfl⟩
    · intro h
      obtain ⟨sort, _, h⟩ := Walk.bind_ok h
      obtain ⟨shape, _, h⟩ := Walk.bind_ok h
      cases Walk.pure_ok h
    · intro made h
      obtain ⟨sort, _, h⟩ := Walk.bind_ok h
      obtain ⟨shape, _, h⟩ := Walk.bind_ok h
      cases Walk.pure_ok h
      refine ⟨rfl, fun note member => ?_⟩
      obtain ⟨sort, rfl⟩ := sorts note member
      rfl
  · exact dropped_accounts field _

theorem single_accounts (field : String) (relation : Relation) (kind : RelationKind)
    (name : String) :
    trail.Accounts field (trail.single trail.quietly field relation kind name) := by
  unfold single
  split
  · exact dropped_accounts field _
  · split
    · exact dropped_accounts field _
    · split
      · exact dropped_accounts field _
      · split
        · exact dropped_accounts field _
        · split
          · exact missing_accounts field name
          · exact joined_accounts field relation kind _ _

theorem mem_option {field name : String} {note : Note}
    (member : note ∈ (trail.option trail.quietly field name).notes) :
    note = ⟨trail.here, field, .filtered name⟩ := by
  unfold option at member
  split at member
  · exact List.mem_singleton.mp member
  · split at member
    · cases member
    · rename_i known
      rcases Walk.mem_notes_bind member with below | ⟨shape, _, none⟩
      · rw [target_silent known] at below
        cases below
      · cases none

theorem several_accounts (field : String) (relation : Relation) :
    trail.Accounts field (trail.several trail.quietly field relation) := by
  unfold several
  dsimp only
  split
  · have filtered (note : Note)
        (member : note ∈
          (Walk.gather (trail.option trail.quietly field) (relation.allowed.getD [])).notes) :
        ∃ name, note = ⟨trail.here, field, .filtered name⟩ := by
      obtain ⟨name, _, noted⟩ := Walk.mem_notes_gather member
      exact ⟨name, mem_option noted⟩
    constructor
    · intro note member
      rcases Walk.mem_notes_bind member with here | ⟨targets, _, member⟩
      · obtain ⟨name, rfl⟩ := filtered note here
        exact ⟨rfl, rfl⟩
      · split at member
        · exact (dropped_accounts field .noTargets).own note member
        · cases member
    · intro h
      obtain ⟨targets, gathered, h⟩ := Walk.bind_ok h
      rw [Walk.notes_bind gathered]
      split at h
      · rename_i empty
        rw [if_pos empty]
        exact List.append_ne_nil_of_right_ne_nil _ ((dropped_accounts field .noTargets).told rfl)
      · cases Walk.pure_ok h
    · intro made h
      obtain ⟨targets, gathered, h⟩ := Walk.bind_ok h
      split at h
      · cases Walk.note_none_ok h
      · rename_i left
        cases Walk.pure_ok h
        refine ⟨rfl, fun note member => ?_⟩
        rw [Walk.notes_bind gathered, if_neg left] at member
        rcases List.mem_append.mp member with here | none
        · obtain ⟨name, rfl⟩ := filtered note here
          rfl
        · cases none
  · exact dropped_accounts field _

theorem nested_accounts (field : String) (info : FieldInfo) (relation : Relation)
    (kind : RelationKind) :
    trail.Accounts field (trail.nested trail.quietly field info relation kind) := by
  unfold nested
  split
  · exact several_accounts field relation
  · split
    · split
      · exact dropped_accounts field _
      · exact single_accounts field relation _ _
    · exact single_accounts field relation _ _

theorem isNested_plain {field : String} {info : FieldInfo} {made : Field}
    (h : made ∈ plain field info) :
    made.isNested = false := by
  unfold plain at h
  split at h
  · cases h
  · cases h
    rfl

theorem Makes.named {descend : trail.Descent} {entry : String × FieldInfo} {made : Field}
    (h : trail.Makes descend entry made) : made.name = entry.1 := by
  cases h <;> rfl

end Trail

namespace Visit

variable {scope : Scope} {visit : Visit scope} {made : Option Field}

/-- What a visit gives and notes, by the relation that applies to the field. -/
theorem cases_of_walk (h : visit.walk.outcome = .ok made) :
    (scope.relationFor visit.trail.here visit.trail.collection visit.entry.1 = none ∧
        visit.remarks = [] ∧ made = Trail.plain visit.entry.1 visit.entry.2) ∨
      ∃ walk found, visit.trail.Accounts visit.entry.1 walk ∧ walk.outcome = .ok found ∧
        visit.remarks = walk.notes ∧ made = found.or (Trail.plain visit.entry.1 visit.entry.2) := by
  have unheard := (Trail.field_echoes visit.entry made h).1
  unfold remarks
  unfold Trail.field at unheard ⊢
  split at unheard
  · rename_i none
    exact .inl ⟨none, rfl, (Walk.pure_ok unheard).symm⟩
  · obtain ⟨found, nested, unheard⟩ := Walk.bind_ok unheard
    refine .inr ⟨_, found, Trail.nested_accounts _ _ _ _, nested, ?_, (Walk.pure_ok unheard).symm⟩
    rw [Walk.notes_bind nested]
    exact List.append_nil _

theorem nested_or_told (h : visit.walk.outcome = .ok made)
    (applies : (scope.relationFor visit.trail.here visit.trail.collection visit.entry.1).isSome) :
    (∃ field ∈ made, field.isNested = true) ∨ ∃ note, note ∈ visit.remarks := by
  obtain ⟨none, _, _⟩ | ⟨walk, found, accounts, reached, noted, rfl⟩ := cases_of_walk h
  · rw [none] at applies
    cases applies
  · cases found with
    | none => exact .inr (noted ▸ List.exists_mem_of_ne_nil _ (accounts.told reached))
    | some field => exact .inl ⟨field, rfl, (accounts.kept field reached).1⟩

theorem not_nested_of_drops (h : visit.walk.outcome = .ok made) {note : Note}
    (member : note ∈ visit.remarks) (drops : note.remark.drops = true) {field : Field}
    (held : field ∈ made) : field.isNested = false := by
  obtain ⟨_, none, _⟩ | ⟨walk, found, accounts, reached, noted, rfl⟩ := cases_of_walk h
  · rw [none] at member
    cases member
  · cases found with
    | none => exact Trail.isNested_plain held
    | some field =>
      have keeps := (accounts.kept field reached).2 note (noted ▸ member)
      cases keeps.symm.trans drops

theorem own_remarks (h : visit.walk.outcome = .ok made) {note : Note}
    (member : note ∈ visit.remarks) :
    note.collection = visit.trail.here ∧ note.field = visit.entry.1 := by
  obtain ⟨_, none, _⟩ | ⟨walk, _, accounts, _, noted, _⟩ := cases_of_walk h
  · rw [none] at member
    cases member
  · exact accounts.own note (noted ▸ member)

theorem mem_nestedNames_iff {node : Shape} (walked : visit.trail.expand.outcome = .ok node.fields)
    (listed : visit.entry ∈ visit.trail.collection.fields.entries)
    (h : visit.walk.outcome = .ok made) :
    visit.entry.1 ∈ node.nestedNames ↔ ∃ field ∈ made, field.isNested = true := by
  constructor
  · intro member
    obtain ⟨field, shown, named⟩ := List.mem_map.mp member
    obtain ⟨shown, nests⟩ := List.mem_filter.mp shown
    -- names do not repeat among the fields of a collection, so the field is of this visit
    -- and no other
    obtain ⟨entry, found, reached⟩ := Trail.visit_of_field walked shown
    have same : entry.1 = visit.entry.1 := (Trail.field_ok reached).named.symm.trans named
    have own := (NameMap.mem_entries_iff _ entry).mp found
    rw [same, (NameMap.mem_entries_iff _ visit.entry).mp listed] at own
    cases Prod.ext same (Option.some.inj own).symm
    cases h.symm.trans reached
    exact ⟨field, rfl, nests⟩
  · rintro ⟨field, held, nests⟩
    cases held
    obtain ⟨made, reached, kept⟩ := Trail.visit_ok walked listed
    cases h.symm.trans reached
    exact List.mem_map.mpr ⟨field, List.mem_filter.mpr ⟨kept field rfl, nests⟩,
      (Trail.field_ok h).named⟩

/-- How a visit answers for the relation of its field, given the node that comes of it. -/
structure Answers (visit : Visit scope) (node : Shape) : Prop where
  heard : visit.remarks.Sublist visit.walk.notes ∧ visit.walk.notes <:+: scope.resolve.notes
  told : (scope.relationFor visit.trail.here visit.trail.collection visit.entry.1).isSome →
    visit.entry.1 ∈ node.nestedNames ∨
      ∃ note ∈ visit.remarks, (node.collection ++ "." ++ visit.entry.1 ++ ": ").toList <+:
        note.text.toList
  meant : ∀ note ∈ visit.remarks, note.remark.level = .warn → "field dropped".toList <:+
    note.text.toList → visit.entry.1 ∉ node.nestedNames

theorem MadeAt.answers {shape node : Shape} (h : scope.resolve.outcome = .ok shape)
    (place : visit.MadeAt shape node) :
    visit.Answers node := by
  have walked := Scope.expand_of_node h place.reached place.here place.going
  obtain ⟨made, reached, _⟩ := Trail.visit_ok walked place.listed
  have nested := mem_nestedNames_iff walked place.listed reached
  constructor
  case heard =>
    exact ⟨(woven reached).sublist, (Trail.visit_infix walked place.listed).trans
      (Scope.within_of_node h place.reached place.here place.going).1⟩
  case told =>
    intro applies
    rcases nested_or_told reached applies with nests | ⟨note, member⟩
    · exact .inl (nested.mpr nests)
    · obtain ⟨collection, field⟩ := own_remarks reached member
      refine .inr ⟨note, member, ?_⟩
      rw [← place.here, ← collection, ← field]
      exact note.starts_with_field
  case meant =>
    intro note member warns spelled held
    obtain ⟨field, kept, nests⟩ := nested.mp held
    have plain := not_nested_of_drops reached member (Remark.drops_of_text warns spelled) kept
    cases nests.symm.trans plain

end Visit

/-- When a walk succeeds, each of its visits answers for its relation, and there is nothing in the
log but what the visits noted, each visit as often as it was made. -/
theorem resolved_visits_answer {scope : Scope} {shape : Shape}
    (h : scope.resolve.outcome = .ok shape) :
    (∀ (visit : Visit scope) (node : Shape), visit.MadeAt shape node → visit.Answers node) ∧
      (∀ visit, visit ∈ scope.visits ↔ ∃ node, visit.MadeAt shape node) ∧
      scope.resolve.notes.Perm (scope.visits.flatMap Visit.remarks) :=
  ⟨fun _ _ place => place.answers h, Scope.mem_visits_iff h, Scope.notes_perm_remarks h⟩

/-- Pages whose author cannot be joined. -/
def authorlessScope : Scope :=
  { pagesScope with
    snapshot :=
      { pagesScope.snapshot with
        relations := [⟨"pages", "author", some "people", none, none⟩,
          ⟨"pages", "item", none, none, some ⟨none, none, some ["notes", "pages"], none, none⟩⟩] } }

def authorlessShape : Shape :=
  .mk "pages" [.scalar "author", .scalar "collection",
    .polymorphic "item" "collection" [.mk "notes" [.scalar "id"]]]

theorem resolved_visits_answer_authorless :
    authorlessScope.resolve = ⟨[⟨"pages", "author", .noJoin⟩, ⟨"pages", "item", .filtered "pages"⟩],
      .ok authorlessShape⟩ ∧ ∃ visit ∈ authorlessScope.visits, visit.entry.1 = "author" ∧
      visit.remarks = [⟨"pages", "author", .noJoin⟩] ∧
        visit.Answers authorlessShape := by
  have walked : authorlessScope.resolve
      = ⟨[⟨"pages", "author", .noJoin⟩, ⟨"pages", "item", .filtered "pages"⟩],
        .ok authorlessShape⟩ := by
    with_unfolding_all rfl
  have resolved : authorlessScope.resolve.outcome = .ok authorlessShape := by rw [walked]
  let start : Trail authorlessScope := ⟨"pages", [], _, rfl⟩
  let visit : Visit authorlessScope := ⟨start, "author", ⟨false, []⟩⟩
  have made : visit.MadeAt authorlessShape authorlessShape := ⟨.root, rfl, by decide, .head _⟩
  obtain ⟨answers, all, _⟩ := resolved_visits_answer resolved
  exact ⟨walked, visit, (all visit).mpr ⟨_, made⟩,
    rfl, by with_unfolding_all rfl, answers visit _ made⟩

end DocumentViews
