import DocumentViews.Proofs.Resolution.Identifiers

/-! Which columns a select relies on.
Every column that a select names is named by a relation of the schema, in one of five parts: the
key, the key it refers to, the order of rows, the name of a row's target and the field that refers
to it. Resolution has checked that the schema lists these fields, but not that they are columns. So
a relation that names a virtual field passes, and the select asks for a column that the table does
not have; only relations that name columns are safe. -/
namespace DocumentViews

/-- Whether a collection of that name has that field and the field has a column. -/
def Snapshot.hasColumn (snapshot : Snapshot) (collection field : String) : Bool :=
  match snapshot.collection? collection with
  | none => false
  | some found => (found.fields.get? field).any fun info => !info.virtual

def Relation.columns (relation : Relation) : List (String × String) :=
  (match relation.join? with
    | none => []
    | some join =>
      (relation.collection, join.column) ::
        (relation.related.map (·, join.foreignColumn)).toList) ++
  (relation.sortField.map (relation.collection, ·)).toList ++
  if relation.allowed.isSome
  then [(relation.collection, relation.discriminant.getD standardDiscriminant),
    (relation.collection, relation.field)]
  else []

namespace Relation

variable {relation : Relation} {join : Join}

theorem mem_columns_key (joined : relation.join? = some join) :
    (relation.collection, join.column) ∈ relation.columns := by
  simp [columns, joined]

theorem mem_columns_foreign (joined : relation.join? = some join) {target : String}
    (leads : relation.related = some target) :
    (target, join.foreignColumn) ∈ relation.columns := by
  simp [columns, joined, leads]

theorem mem_columns_sort {sort : String} (sorted : relation.sortField = some sort) :
    (relation.collection, sort) ∈ relation.columns := by
  simp [columns, sorted]

theorem mem_columns_choice (several : relation.allowed.isSome) :
    (relation.collection, relation.discriminant.getD standardDiscriminant) ∈ relation.columns ∧
      (relation.collection, relation.field) ∈ relation.columns := by
  simp [columns, several]

end Relation

/-- A column that some relation of the schema names. -/
def Snapshot.Names (snapshot : Snapshot) (table column : String) : Prop :=
  ∃ relation ∈ snapshot.relations, (table, column) ∈ relation.columns

theorem Classifier.standard_cases {relation : Relation} {collection field : String}
    {kind : RelationKind} (h : Classifier.standard relation collection field = some kind) :
    (relation.collection = collection ∧ relation.field = field ∧
      (kind = .manyToAny ∧ relation.allowed.isSome ∨ kind = .manyToOne)) ∨
    (kind = .oneToMany ∧ relation.related = some collection) := by
  unfold standard at h
  split at h
  · rename_i own
    refine .inl ⟨own.1, own.2, ?_⟩
    split at h
    · rename_i several
      cases h
      exact .inl ⟨rfl, several⟩
    · cases h
      exact .inr rfl
  · split at h
    · rename_i far
      refine .inr ⟨?_, far⟩
      split at h
      · split at h
        · cases h
          rfl
        · cases h
      · split at h
        · cases h
          rfl
        · cases h
    · cases h

variable {snapshot : Snapshot} {policy : Policy} {root : String} {shape : Shape}

namespace Visited

variable {above : List String} {node : Shape}

theorem link_named (h : Visited ⟨snapshot, .standard, policy, root⟩ above node) {name : String}
    {link : Link} {target : Shape} (member : .relation name link target ∈ node.fields) :
    snapshot.Names node.collection (Sql.holderKey link) ∧
      snapshot.Names target.collection (Sql.targetKey link) ∧
      ∀ sort, link.sort = some sort → snapshot.Names target.collection sort := by
  obtain ⟨trail, here, _, _, entry, _, made⟩ := h.nested member rfl
  cases made with
  | joins joins =>
    obtain ⟨relation, relates, joined, sorts⟩ := joins.relation
    obtain ⟨classified, applies, kind⟩ := relates.applies
    obtain ⟨known, classifies⟩ := Scope.relationFor_some applies
    by_cases single : link.kind = .manyToOne
    · have stored : relation.collection = node.collection := by
        rcases Classifier.standard_cases classifies with ⟨stored, _⟩ | ⟨rfl, _⟩
        · exact stored.trans here
        · rw [single] at kind
          split at kind <;> cases kind
      have related : relation.related = some target.collection := by
        rw [← relates.leads, if_pos single]
      rw [Sql.holderKey, Sql.targetKey, if_pos single, if_pos single, ← stored]
      refine ⟨⟨relation, known, Relation.mem_columns_key joined⟩,
        ⟨relation, known, Relation.mem_columns_foreign joined related⟩, fun sort sorted => ?_⟩
      exact absurd single (joins.sorted sort sorted).1
    · have stored : relation.collection = target.collection := by
        have leads := relates.leads
        rw [if_neg single] at leads
        exact Option.some.inj leads
      have related : relation.related = some node.collection := by
        rcases Classifier.standard_cases classifies with ⟨own, _⟩ | ⟨_, related⟩
        -- a relation that is stored here would lead back here
        · exact absurd (stored.symm.trans own) joins.apart
        · exact related.trans (congrArg some here)
      rw [Sql.holderKey, Sql.targetKey, if_neg single, if_neg single, ← stored]
      refine ⟨⟨relation, known, Relation.mem_columns_foreign joined related⟩,
        ⟨relation, known, Relation.mem_columns_key joined⟩, fun sort sorted => ?_⟩
      exact ⟨relation, known, Relation.mem_columns_sort (sorts sort sorted)⟩

theorem choice_named (h : Visited ⟨snapshot, .standard, policy, root⟩ above node)
    {field discriminant : String} {targets : List Shape}
    (member : .polymorphic field discriminant targets ∈ node.fields) :
    snapshot.Names node.collection discriminant ∧ snapshot.Names node.collection field := by
  obtain ⟨trail, here, _, _, entry, _, made⟩ := h.nested member rfl
  cases made with
  | chooses chooses =>
    obtain ⟨relation, applies, stored, own, rfl, _⟩ := chooses.relation
    obtain ⟨known, classifies⟩ := Scope.relationFor_some applies
    have several : relation.allowed.isSome := by
      rcases Classifier.standard_cases classifies with ⟨_, _, ⟨_, several⟩ | one⟩ | ⟨far, _⟩
      · exact several
      · cases one
      · cases far
    obtain ⟨chosen, item⟩ := Relation.mem_columns_choice several
    rw [← here, ← stored, ← own]
    exact ⟨⟨relation, known, chosen⟩, ⟨relation, known, item⟩⟩

end Visited

theorem Sql.named_of_mentions {above : List String} {node : Shape} {reference : Sql.Intended}
    (h : Visited ⟨snapshot, .standard, policy, root⟩ above node)
    (mentions : Sql.Mentions node reference) {column : String}
    (asked : reference.toReference.column = some column) :
    snapshot.Names reference.toReference.table column := by
  obtain ⟨outer, rfl | ⟨field, held, member⟩⟩ := mentions
  · cases asked
  cases field with
  | scalar name => cases member
  | relation name link target =>
    obtain ⟨near, far, order⟩ := h.link_named held
    rcases Sql.mem_intendedByRelation member with rfl | ⟨column, rfl | sorted, rfl⟩
    · cases asked
      exact near
    · cases asked
      exact far
    · cases asked
      exact order _ sorted
  | polymorphic name discriminant targets =>
    obtain ⟨chosen, item⟩ := h.choice_named held
    rcases List.mem_append.mp member with branch | branch <;>
      rcases Sql.mem_intendedInBranch branch with rfl | rfl <;> cases asked
    · exact chosen
    · exact item
    · exact chosen
    · exact item

/-- Where the relations of a schema name no virtual fields as columns, the select of a resolved
shape asks for none, and neither do the selects in maps at any depth. -/
theorem referenced_columns_exist
    (grounded : ∀ relation ∈ snapshot.relations, ∀ named ∈ relation.columns,
      snapshot.hasField named.1 named.2 = true → snapshot.hasColumn named.1 named.2 = true)
    (h : (Scope.resolve ⟨snapshot, .standard, policy, root⟩).outcome = .ok shape) (depth : Nat) :
    ∃ selects, Sql.decoded depth (Sql.compile shape) = some selects ∧ ∀ sql ∈ selects,
      ∃ found, Sql.references sql = some found ∧ ∀ reference ∈ found, ∀ column,
        reference.column = some column → snapshot.hasColumn reference.table column = true := by
  refine ⟨_, Sql.decoded_compile depth shape, fun sql member => ?_⟩
  obtain ⟨query, deep, rfl⟩ := List.mem_map.mp member
  obtain ⟨above, reached⟩ := Shape.node_of_mapped deep
  refine ⟨_, Sql.references_compile query, fun reference found column asked => ?_⟩
  obtain ⟨intended, part, rfl⟩ := List.mem_map.mp found
  obtain ⟨below, node, inner, mentions⟩ := Sql.mentions_of_select query part
  have visited := Scope.node_visited h (reached.trans inner)
  obtain ⟨relation, known, named⟩ := Sql.named_of_mentions visited mentions asked
  exact grounded relation known _ named
    ((Sql.known_of_mentions visited.identified mentions).2 column asked)

theorem referenced_columns_exist_pages :
    pagesScope.resolve.outcome = .ok pagesShape ∧
      ∃ selects, Sql.decoded 0 (Sql.compile pagesShape) = some selects ∧ ∀ sql ∈ selects,
        ∃ found, Sql.references sql = some found ∧ ∀ reference ∈ found, ∀ column,
          reference.column = some column → pagesScope.snapshot.hasColumn reference.table column =
          true := by
  have resolved : pagesScope.resolve.outcome = .ok pagesShape := by with_unfolding_all rfl
  exact ⟨resolved, referenced_columns_exist (by decide) resolved 0⟩

/-- Articles with comments, whose key is listed as virtual. -/
def commentsScope : Scope where
  snapshot :=
    { collections := .ofList [
        ("articles", ⟨.ofList [("comments", ⟨true, []⟩), ("id", ⟨false, []⟩)]⟩),
        ("comments", ⟨.ofList [("article_id", ⟨true, []⟩), ("id", ⟨false, []⟩)]⟩)]
      relations := [
        ⟨"comments", "article_id", some "articles",
          some ⟨some "comments", some "article_id", none, some "id"⟩,
          some ⟨some "comments", none, none, none, none⟩⟩] }
  classify := .standard
  policy := .standard
  root := "articles"

/-- The virtual key passes, and the select joins on it. -/
theorem virtual_key_referenced :
    let shape : Shape :=
      .mk "articles"
        [.relation "comments" ⟨.oneToMany, ⟨"comments", "article_id", "id"⟩, none⟩
          (.mk "comments" [.scalar "id"]), .scalar "id"]
    commentsScope.resolve.outcome = .ok shape ∧
      ∃ found, Sql.references (Sql.compile shape) = some found ∧
        ∃ reference ∈ found, reference.table = "comments" ∧ reference.column = some "article_id" ∧
        commentsScope.snapshot.hasColumn "comments" "article_id" = false := by
  intro shape
  have resolved : commentsScope.resolve.outcome = .ok shape := by with_unfolding_all rfl
  have joined : (⟨⟨"comments", some "article_id", ["comments", "articles"]⟩, 0⟩ : Sql.Intended) ∈
      Sql.intendedBySelect [] shape := by decide
  exact ⟨resolved, _, Sql.references_compile shape, _,
    List.mem_map_of_mem joined, rfl, rfl, by decide⟩

end DocumentViews
