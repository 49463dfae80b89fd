import DocumentViews.Proofs.NameMap
import DocumentViews.Proofs.Resolution.Chains

/-! The keys of documents.
Whether a collection is walked or only its columns are shown, each of its fields in turn is a
column, a nested field or, if it is virtual, nothing. So at every node the names are those of the
collection in their order, and only virtual fields can be left out. -/
namespace DocumentViews

/-- A row of fields made from the entries of a collection one by one. -/
inductive Keeps : List (String × FieldInfo) → List Field → Prop
  | nil : Keeps [] []
  | dropped {entry : String × FieldInfo} {rest : List (String × FieldInfo)} {fields : List Field}
      (virtual : entry.2.virtual = true) (later : Keeps rest fields) : Keeps (entry :: rest) fields
  | column {entry : String × FieldInfo} {rest : List (String × FieldInfo)} {fields : List Field}
      (real : entry.2.virtual = false) (later : Keeps rest fields) :
      Keeps (entry :: rest) (.scalar entry.1 :: fields)
  | nested {entry : String × FieldInfo} {rest : List (String × FieldInfo)} {field : Field}
      {fields : List Field} (named : field.name = entry.1) (nests : field.isNested = true)
      (later : Keeps rest fields) :
      Keeps (entry :: rest) (field :: fields)

namespace Keeps

variable {entries : List (String × FieldInfo)} {fields : List Field}

theorem names_sublist (h : Keeps entries fields) :
    (fields.map Field.name).Sublist (entries.map (·.1)) := by
  induction h with
  | nil => exact .slnil
  | dropped _ _ ih => exact ih.cons _
  | column _ _ ih => exact ih.cons_cons _
  | nested named _ _ ih =>
    rw [List.map_cons, named]
    exact ih.cons_cons _

theorem covers (h : Keeps entries fields) {entry : String × FieldInfo} (member : entry ∈ entries)
    (real : entry.2.virtual = false) : entry.1 ∈ fields.map Field.name := by
  induction h with
  | nil => cases member
  | dropped virtual _ ih =>
    rcases List.mem_cons.mp member with rfl | there
    · rw [real] at virtual
      cases virtual
    · exact ih there
  | column _ _ ih =>
    rcases List.mem_cons.mp member with rfl | there
    · exact .head _
    · exact .tail _ (ih there)
  | nested named _ _ ih =>
    rcases List.mem_cons.mp member with rfl | there
    · exact named ▸ .head _
    · exact .tail _ (ih there)

theorem origin (h : Keeps entries fields) {field : Field} (member : field ∈ fields) :
    ∃ entry ∈ entries, field.name = entry.1 ∧
      (field.isNested = true ∨ entry.2.virtual = false) := by
  induction h with
  | nil => cases member
  | dropped _ _ ih =>
    obtain ⟨entry, held, found⟩ := ih member
    exact ⟨entry, .tail _ held, found⟩
  | column real _ ih =>
    rcases List.mem_cons.mp member with rfl | there
    · exact ⟨_, .head _, rfl, .inr real⟩
    · obtain ⟨entry, held, found⟩ := ih there
      exact ⟨entry, .tail _ held, found⟩
  | nested named nests _ ih =>
    rcases List.mem_cons.mp member with rfl | there
    · exact ⟨_, .head _, named, .inl nests⟩
    · obtain ⟨entry, held, found⟩ := ih there
      exact ⟨entry, .tail _ held, found⟩

theorem scalars (entries : List (String × FieldInfo)) :
    Keeps entries (((entries.filter fun entry => !entry.2.virtual).map (·.1)).map .scalar) := by
  induction entries with
  | nil => exact nil
  | cons entry rest ih =>
    cases kind : entry.2.virtual with
    | true => simpa [kind] using ih.dropped kind
    | false => simpa [kind] using ih.column kind

end Keeps

/-- The fields of a collection as the keys of a document. -/
structure Collection.HasKeys (collection : Collection) (fields : List Field) : Prop where
  rising : (fields.map Field.name).Pairwise (· < ·)
  listed : ∀ field ∈ fields, collection.fields.contains field.name
  complete : ∀ name info, collection.fields.get? name = some info → info.virtual = false →
    name ∈ fields.map Field.name
  columns : ∀ name, .scalar name ∈ fields → ∃ info, collection.fields.get? name = some info ∧
    info.virtual = false
  virtuals : ∀ field ∈ fields, ∀ info, collection.fields.get? field.name = some info →
    info.virtual = true → field.isNested = true

theorem Keeps.hasKeys {collection : Collection} {fields : List Field}
    (h : Keeps collection.fields.entries fields) :
    collection.HasKeys fields := by
  constructor
  case rising =>
    have rising : collection.fields.keys.Pairwise (· < ·) :=
      List.pairwise_map.mpr collection.fields.rising
    exact rising.sublist h.names_sublist
  case listed =>
    intro field member
    obtain ⟨entry, held, named, _⟩ := h.origin member
    rw [named]
    exact NameMap.contains_of_mem held
  case complete =>
    intro name info found real
    exact h.covers ((NameMap.mem_entries_iff _ (name, info)).mpr found) real
  case columns =>
    intro name member
    obtain ⟨entry, held, named, nests | real⟩ := h.origin member
    · cases nests
    · have found := (NameMap.mem_entries_iff _ entry).mp held
      rw [← named] at found
      exact ⟨entry.2, found, real⟩
  case virtuals =>
    intro field member info found virtual
    obtain ⟨entry, held, named, nests | real⟩ := h.origin member
    · exact nests
    · have own := (NameMap.mem_entries_iff _ entry).mp held
      rw [← named, found] at own
      cases own
      rw [virtual] at real
      cases real

namespace Trail

variable {scope : Scope} {trail : Trail scope} {descend : trail.Descent}
    {entry : String × FieldInfo}

theorem virtual_of_field_none (h : (trail.field descend entry).outcome = .ok none) :
    entry.2.virtual = true := by
  have hidden : plain entry.1 entry.2 = none → entry.2.virtual = true := by
    intro shown
    unfold plain at shown
    split at shown
    · assumption
    · cases shown
  unfold field at h
  split at h
  · exact hidden (Walk.pure_ok h)
  · obtain ⟨found, _, h⟩ := Walk.bind_ok h
    exact hidden (Option.or_eq_none_iff.mp (Walk.pure_ok h)).2

theorem gather_keeps {entries : List (String × FieldInfo)} {fields : List Field}
    (h : (Walk.gather (trail.field descend) entries).outcome = .ok fields) :
    Keeps entries fields := by
  induction entries generalizing fields with
  | nil =>
    cases Walk.pure_ok h
    exact .nil
  | cons entry rest ih =>
    obtain ⟨head, others, made, later, rfl⟩ := Walk.gather_cons_ok h
    cases head with
    | none => exact .dropped (virtual_of_field_none made) (ih later)
    | some field =>
      cases field_ok made with
      | column real => exact .column real (ih later)
      | joins joins => exact .nested rfl rfl (ih later)
      | chooses chooses => exact .nested rfl rfl (ih later)

theorem HasFields.keeps {fields : List Field} (h : trail.HasFields fields) :
    Keeps trail.collection.fields.entries fields := by
  cases stop : trail.halts with
  | true =>
    rw [HasFields, if_pos stop] at h
    rw [h]
    exact .scalars _
  | false =>
    have walked := h.expand_ok stop
    rw [expand] at walked
    exact gather_keeps walked

end Trail

variable {scope : Scope} {shape : Shape}

theorem Visited.hasKeys {above : List String} {node : Shape} (h : Visited scope above node) :
    ∃ collection, scope.snapshot.collection? node.collection = some collection ∧
      collection.HasKeys node.fields := by
  obtain ⟨trail, here, _, shown⟩ := h
  exact ⟨trail.collection, here ▸ trail.known, shown.keeps.hasKeys⟩

/-- At every node of a resolved shape the names of the fields rise, all are fields of the
collection, every field with a column is there, and those without one are nested. -/
theorem resolved_keys_are_fields (h : scope.resolve.outcome = .ok shape) {above : List String}
    {node : Shape} (reached : shape.Node above node) :
    ∃ collection, scope.snapshot.collection? node.collection = some collection ∧
      collection.HasKeys node.fields :=
  (scope.node_visited h reached).hasKeys

/-- Authors below pages, whose own pages are a virtual field. -/
theorem resolved_keys_are_fields_author :
    pagesScope.resolve.outcome = .ok pagesShape ∧ pagesShape.Node ["pages"] authorShape ∧
      ∃ collection, pagesScope.snapshot.collection? "people" = some collection ∧
        collection.virtualFields = ["pages"] ∧ collection.HasKeys authorShape.fields := by
  have resolved : pagesScope.resolve.outcome = .ok pagesShape := by with_unfolding_all rfl
  have reached : pagesShape.Node ["pages"] authorShape := .step .root (.head _) (.head _)
  obtain ⟨collection, known, shows⟩ := resolved_keys_are_fields resolved reached
  refine ⟨resolved, reached, collection, known, ?_, shows⟩
  cases known
  rfl

end DocumentViews
