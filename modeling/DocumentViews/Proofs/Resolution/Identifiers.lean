import DocumentViews.Proofs.Resolution.Chains
import DocumentViews.Proofs.Sql.Scopes

/-! What the select of a resolved shape refers to.
Tables have no names of their own in a select, so a collection that comes again further inside
hides the one further out. Because no collection leads straight to itself, every column still
means the table that it was written for, and because of what resolution has checked, that table
has the column. Both are facts about each node; selects only collect them, and selects in maps are
those of further nodes. -/
namespace DocumentViews

namespace Shape

theorem Node.trans {shape node leaf : Shape} {above below : List String} (h : shape.Node above node)
    (inner : node.Node below leaf) : shape.Node (below ++ above) leaf := by
  induction inner with
  | root => exact h
  | step _ member leads ih => exact ih.step member leads

/-- A property of all nodes holds of all nodes below each of them. -/
theorem forall_below {property : Shape → Prop} {shape node : Shape}
    (h : ∀ above node, shape.Node above node → property node) {above : List String}
    (reached : shape.Node above node) :
    ∀ below leaf, node.Node below leaf → property leaf := by
  intro below leaf inner
  exact h _ leaf (reached.trans inner)

mutual
theorem node_of_choices : (shape : Shape) → {targets : List Shape} → targets ∈ shape.choices →
    {target : Shape} → target ∈ targets → ∃ above, shape.Node above target
  | .mk collection fields, _, chosen, _, member => by
    obtain ⟨field, held, first, leads, below, inner⟩ := node_of_choicesOfFields fields chosen member
    exact ⟨_, (Node.step .root held leads).trans inner⟩

theorem node_of_choicesOfFields :
    (fields : List Field) → {targets : List Shape} → targets ∈ choicesOfFields fields →
    {target : Shape} → target ∈ targets →
    ∃ field ∈ fields, ∃ first ∈ field.targets, ∃ below, first.Node below target
  | [], _, chosen, _, _ => by cases chosen
  | .scalar _ :: rest, _, chosen, _, member => by
    obtain ⟨field, held, found⟩ := node_of_choicesOfFields rest chosen member
    exact ⟨field, .tail _ held, found⟩
  | .relation _ _ first :: rest, _, chosen, _, member => by
    rcases List.mem_append.mp chosen with here | later
    · obtain ⟨below, inner⟩ := node_of_choices first here member
      exact ⟨_, .head _, first, .head _, below, inner⟩
    · obtain ⟨field, held, found⟩ := node_of_choicesOfFields rest later member
      exact ⟨field, .tail _ held, found⟩
  | .polymorphic _ _ all :: rest, _, chosen, _, member => by
    rcases List.mem_append.mp chosen with here | later
    · split at here
      · cases List.mem_singleton.mp here
        exact ⟨_, .head _, _, (List.mem_filter.mp member).1, [], .root⟩
      · cases here
    · obtain ⟨field, held, found⟩ := node_of_choicesOfFields rest later member
      exact ⟨field, .tail _ held, found⟩
end

theorem mem_of_mem_kept {targets : List Shape} {target : Shape} (h : target ∈ kept targets) :
    target ∈ targets := by
  obtain ⟨entry, member, rfl⟩ := List.mem_map.mp h
  obtain ⟨target, known, rfl⟩ := List.mem_map.mp (NameMap.mem_of_mem_ofList member)
  exact known

/-- The selects in maps, however deep, are those of nodes. -/
theorem node_of_mapped {depth : Nat} {shape query : Shape} (h : query ∈ shape.mapped depth) :
    ∃ above, shape.Node above query := by
  induction depth generalizing shape with
  | zero =>
    cases List.mem_singleton.mp h
    exact ⟨[], .root⟩
  | succ depth ih =>
    obtain ⟨targets, chosen, h⟩ := List.mem_flatMap.mp h
    obtain ⟨target, stays, h⟩ := List.mem_flatMap.mp h
    obtain ⟨above, reached⟩ := node_of_choices shape chosen (mem_of_mem_kept stays)
    obtain ⟨below, inner⟩ := ih h
    exact ⟨_, reached.trans inner⟩

end Shape

namespace Sql

/-- What a node itself refers to: all columns of its collection, and what its fields need. -/
def Mentions (node : Shape) (reference : Intended) : Prop :=
  ∃ outer, reference = ⟨⟨node.collection, none, node.collection :: outer⟩, 0⟩ ∨
    ∃ field ∈ node.fields, reference ∈ intendedByField node.collection outer field

mutual
theorem mentions_of_select : (shape : Shape) → {outer : List String} → {reference : Intended} →
    reference ∈ intendedBySelect outer shape → ∃ above node, shape.Node above node ∧
      Mentions node reference
  | .mk collection fields, outer, _, member => by
    rcases List.mem_cons.mp member with rfl | inside
    · exact ⟨[], _, .root, outer, .inl rfl⟩
    · exact mentions_of_columns (.mk collection fields) fields (fun _ held => held) inside

theorem mentions_of_columns (holder : Shape) :
    (fields : List Field) → (∀ field ∈ fields, field ∈ holder.fields) →
    {outer : List String} → {reference : Intended} →
    reference ∈ intendedByColumns holder.collection outer fields →
    ∃ above node, holder.Node above node ∧ Mentions node reference
  | [], _, _, _, member => by cases member
  | .scalar _ :: rest, part, _, _, member =>
    mentions_of_columns holder rest (fun field held => part field (.tail _ held)) member
  | .relation name link target :: rest, part, outer, _, member => by
    have held := part _ (.head _)
    rw [intendedByColumns, List.mem_append, List.mem_append] at member
    rcases member with (below | here) | later
    · obtain ⟨above, node, reached, mentions⟩ := mentions_of_select target below
      exact ⟨_, node, (Shape.Node.step .root held (.head _)).trans reached, mentions⟩
    · exact ⟨[], holder, .root, outer, .inr ⟨_, held, here⟩⟩
    · exact mentions_of_columns holder rest (fun field held => part field (.tail _ held)) later
  | .polymorphic name discriminant targets :: rest, part, outer, _, member => by
    rw [intendedByColumns, List.mem_append] at member
    rcases member with here | later
    · exact ⟨[], holder, .root, outer, .inr ⟨_, part _ (.head _), here⟩⟩
    · exact mentions_of_columns holder rest (fun field held => part field (.tail _ held)) later
end

theorem mem_intendedInBranch {holder field discriminant : String} {outer : List String}
    {targets : List Shape} {reference : Intended}
    (h : reference ∈ intendedInBranch holder field discriminant outer targets) :
    reference = ownColumn holder discriminant outer ∨ reference = ownColumn holder field outer := by
  unfold intendedInBranch at h
  split at h
  · cases h
  · simpa using h

def holderKey (link : Link) : String :=
  if link.kind = .manyToOne then link.join.column else link.join.foreignColumn

def targetKey (link : Link) : String :=
  if link.kind = .manyToOne then link.join.foreignColumn else link.join.column

/-- A link refers to its holder by one key only; all else is about the target. -/
theorem mem_intendedByRelation {holder field : String} {outer : List String} {link : Link}
    {target : Shape} {reference : Intended}
    (h : reference ∈ intendedByField holder outer (.relation field link target)) :
    reference = ⟨⟨holder, some (holderKey link), target.collection :: holder :: outer⟩, 1⟩ ∨
      ∃ column, (column = targetKey link ∨ link.sort = some column) ∧
        reference = ownColumn target.collection column (holder :: outer) := by
  rcases List.mem_append.mp h with keys | order
  · split at keys
    · rename_i single
      rcases List.mem_pair.mp keys with rfl | rfl
      · exact .inl (by rw [holderKey, if_pos single])
      · exact .inr ⟨_, .inl (by rw [targetKey, if_pos single]), rfl⟩
    · rename_i several
      rcases List.mem_pair.mp keys with rfl | rfl
      · exact .inr ⟨_, .inl (by rw [targetKey, if_neg several]), rfl⟩
      · exact .inl (by rw [holderKey, if_neg several])
  · obtain ⟨sort, sorted, rfl⟩ := Option.map_eq_some_iff.mp (Option.mem_toList.mp order)
    exact .inr ⟨sort, .inr sorted, rfl⟩

theorem binds_ownColumn (table column : String) (outer : List String) :
    (ownColumn table column outer).Binds := by
  constructor
  · rfl
  · intro nearer below
    cases below

/-- Where no target of a node is its own collection, the key of the holder is not hidden by
the target. -/
theorem binds_of_mentions {node : Shape} {reference : Intended}
    (apart : ∀ field ∈ node.fields, ∀ target ∈ field.targets, target.collection ≠ node.collection)
    (h : Mentions node reference) : reference.Binds := by
  obtain ⟨outer, rfl | ⟨field, held, member⟩⟩ := h
  · constructor
    · rfl
    · intro nearer below
      cases below
  cases field with
  | scalar name => cases member
  | relation name link target =>
    rcases mem_intendedByRelation member with rfl | ⟨column, _, rfl⟩
    · constructor
      · rfl
      · intro nearer below
        -- only the target stands between, and it is another collection
        cases Nat.lt_one_iff.mp below
        simpa using apart _ held target (.head _)
    · exact binds_ownColumn ..
  | polymorphic name discriminant targets =>
    rcases List.mem_append.mp member with branch | branch <;>
      rcases mem_intendedInBranch branch with rfl | rfl <;> exact binds_ownColumn ..

end Sql

variable {scope : Scope} {shape : Shape}

/-- Every qualified column in the select of a resolved shape means the innermost table of its
name in sight, and that is the table it was written for: the one of its own select, or for the
key of a holder the one directly around. The same holds of the selects in maps, which see no
tables but their own. -/
theorem resolved_references_bind (h : scope.resolve.outcome = .ok shape) (depth : Nat) :
    Sql.decoded depth (Sql.compile shape) = some ((shape.mapped depth).map Sql.compile) ∧
    ∀ query ∈ shape.mapped depth,
      Sql.references (Sql.compile query) =
        some ((Sql.intendedBySelect [] query).map Sql.Intended.toReference) ∧
      ∀ reference ∈ Sql.intendedBySelect [] query, reference.Binds := by
  refine ⟨Sql.decoded_compile depth shape, fun query deep => ⟨Sql.references_compile query, ?_⟩⟩
  intro reference member
  obtain ⟨above, reached⟩ := Shape.node_of_mapped deep
  obtain ⟨below, node, inner, mentions⟩ := Sql.mentions_of_select query member
  have visited := scope.node_visited h (reached.trans inner)
  exact Sql.binds_of_mentions (fun field held target leads => visited.apart held leads) mentions

/-- The second country of a chain is the one that its capital is joined to, not the first one. -/
theorem resolved_references_bind_round :
    let shape := countryWith (cityWith (mayorWith (countryWith lastCity)))
    let reference : Sql.Intended :=
      ⟨⟨"countries", some "capital", ["cities", "countries", "people", "cities", "countries"]⟩, 1⟩
    roundScope.resolve.outcome = .ok shape ∧ shape ∈ shape.mapped 0 ∧
      reference ∈ Sql.intendedBySelect [] shape ∧ reference.Binds := by
  intro shape reference
  have resolved : roundScope.resolve.outcome = .ok shape := by with_unfolding_all rfl
  have outermost : shape ∈ shape.mapped 0 := .head _
  have member : reference ∈ Sql.intendedBySelect [] shape := by decide
  exact ⟨resolved, outermost, member,
    ((resolved_references_bind resolved 0).2 shape outermost).2 reference member⟩

/-- All names of a node are known to the schema, each in its part. -/
structure Identified (scope : Scope) (node : Shape) : Prop where
  collection : (scope.snapshot.collection? node.collection).isSome
  fields : ∀ field ∈ node.fields, scope.snapshot.hasField node.collection field.name
  targets : ∀ field ∈ node.fields, ∀ target ∈ field.targets,
    (scope.snapshot.collection? target.collection).isSome
  /-- The key is with the node for many-to-one, and with the target else. -/
  keys : ∀ name link target, .relation name link target ∈ node.fields →
    if link.kind = .manyToOne
    then scope.snapshot.hasField node.collection link.join.column ∧
      scope.snapshot.hasField target.collection link.join.foreignColumn
    else scope.snapshot.hasField target.collection link.join.column ∧
      scope.snapshot.hasField node.collection link.join.foreignColumn
  order : ∀ name link target, .relation name link target ∈ node.fields → ∀ sort,
    link.sort = some sort → link.kind ≠ .manyToOne ∧ scope.snapshot.hasField target.collection sort
  discriminant : ∀ name discriminant targets, .polymorphic name discriminant targets ∈ node.fields →
    scope.snapshot.hasField node.collection discriminant

theorem Identified.keys_held {node target : Shape} {name : String} {link : Link}
    (h : Identified scope node) (held : .relation name link target ∈ node.fields) :
    scope.snapshot.hasField node.collection (Sql.holderKey link) ∧
      scope.snapshot.hasField target.collection (Sql.targetKey link) := by
  have keys := h.keys name link target held
  unfold Sql.holderKey Sql.targetKey
  split at keys
  · rename_i single
    rwa [if_pos single, if_pos single]
  · rename_i several
    rw [if_neg several, if_neg several]
    exact keys.symm

namespace Visited

variable {above : List String} {node : Shape}

theorem collection_known (h : Visited scope above node) :
    (scope.snapshot.collection? node.collection).isSome := by
  obtain ⟨trail, here, _⟩ := h
  rw [← here, trail.known]
  rfl

theorem field_known (h : Visited scope above node) {field : Field} (member : field ∈ node.fields) :
    scope.snapshot.hasField node.collection field.name := by
  obtain ⟨trail, here, _, shown⟩ := h
  have held : trail.collection.fields.contains field.name := by
    unfold Trail.HasFields at shown
    split at shown
    · rw [shown] at member
      obtain ⟨name, column, rfl⟩ := List.mem_map.mp member
      obtain ⟨entry, kept, rfl⟩ := List.mem_map.mp column
      exact NameMap.contains_of_mem (List.mem_filter.mp kept).1
    · obtain ⟨entry, known, made⟩ := Trail.expand_makes shown member
      cases made <;> exact NameMap.contains_of_mem known
  rw [← here]
  exact Snapshot.hasField_of_known trail.known held

theorem identified (h : Visited scope above node) : Identified scope node := by
  constructor
  case collection => exact h.collection_known
  case fields =>
    intro field member
    exact h.field_known member
  case targets =>
    intro field member target leads
    exact (h.below member leads).collection_known
  case keys =>
    intro name link target member
    obtain ⟨trail, here, _, _, entry, _, made⟩ := h.nested member rfl
    cases made with
    | joins joins => exact here ▸ joins.columns
  case order =>
    intro name link target member sort sorted
    obtain ⟨trail, _, _, _, entry, _, made⟩ := h.nested member rfl
    cases made with
    | joins joins => exact joins.sorted sort sorted
  case discriminant =>
    intro name discriminant targets member
    obtain ⟨trail, here, _, _, entry, _, made⟩ := h.nested member rfl
    cases made with
    | chooses chooses => exact here ▸ Snapshot.hasField_of_known trail.known chooses.named

end Visited

namespace Sql

/-- The quoted names that a select may hold: collections and fields of the schema, and the names
that a select gives to rows of its own. -/
inductive Identifier (snapshot : Snapshot) : String → Prop
  | collection {name : String} (known : (snapshot.collection? name).isSome) :
      Identifier snapshot name
  | field {collection name : String} (held : snapshot.hasField collection name) :
      Identifier snapshot name
  | rows {holder field : String} (held : snapshot.hasField holder field) :
      Identifier snapshot (nestedName holder field)
  | resolved : Identifier snapshot "resolved"

theorem identifier_of_relation {holder target : Shape} {field : String} {link : Link}
    (h : Identified scope holder) (held : .relation field link target ∈ holder.fields)
    {name : String} (member : .name name ∈
      joinNames holder.collection target.collection link ++ sortNames target.collection link.sort) :
    Identifier scope.snapshot name := by
  have here := Identifier.collection h.collection
  have there := Identifier.collection (h.targets _ held target (.head _))
  have keys := h.keys field link target held
  rcases List.mem_append.mp member with joins | order
  · unfold joinNames at joins
    split at joins
    · rename_i single
      rw [if_pos single] at keys
      simp only [List.mem_cons, Token.name.injEq, List.not_mem_nil, or_false] at joins
      rcases joins with rfl | rfl | rfl | rfl
      · exact here
      · exact .field keys.1
      · exact there
      · exact .field keys.2
    · rename_i several
      rw [if_neg several] at keys
      simp only [List.mem_cons, Token.name.injEq, List.not_mem_nil, or_false] at joins
      rcases joins with rfl | rfl | rfl | rfl
      · exact there
      · exact .field keys.1
      · exact here
      · exact .field keys.2
  · cases sorted : link.sort with
    | none =>
      rw [sorted] at order
      cases order
    | some sort =>
      rw [sorted] at order
      simp only [sortNames, List.mem_cons, Token.name.injEq, List.not_mem_nil, or_false] at order
      rcases order with rfl | rfl
      · exact there
      · exact .field (h.order field link target held _ sorted).2

theorem identifier_of_branch {holder : Shape} {field discriminant : String}
    {all targets : List Shape} {map : List Token} (h : Identified scope holder)
    (held : .polymorphic field discriminant all ∈ holder.fields) {name : String}
    (quiet : .name name ∉ map)
    (member : .name name ∈ branchNames holder.collection field discriminant targets map) :
    Identifier scope.snapshot name := by
  have here := Identifier.collection h.collection
  have chosen := Identifier.field (h.discriminant field discriminant all held)
  have item := Identifier.field (h.fields _ held)
  unfold branchNames at member
  split at member
  · cases member
  · simp only [List.mem_append, List.mem_cons, List.mem_map, Token.name.injEq, List.not_mem_nil,
      or_false, quiet, reduceCtorEq, and_false, exists_false, or_assoc] at member
    rcases member with rfl | rfl | rfl | rfl | rfl | rfl | rfl | rfl
    · exact here
    · exact chosen
    · exact .resolved
    · exact here
    · exact chosen
    · exact here
    · exact item
    · exact .resolved

mutual
theorem identifier_of_select :
    (shape : Shape) → (∀ above node, shape.Node above node → Identified scope node) →
    {name : String} → .name name ∈ quotedNames shape → Identifier scope.snapshot name
  | .mk collection fields, known, name, member => by
    have here := Identifier.collection (known [] _ .root).collection
    simp only [quotedNames, List.mem_cons, List.mem_append, Token.name.injEq,
      List.not_mem_nil, or_false] at member
    rcases member with rfl | inside | rfl
    · exact here
    · exact identifier_of_columns (.mk collection fields) known fields (fun _ held => held) inside
    · exact here

theorem identifier_of_columns (holder : Shape) (known : ∀ above node, holder.Node above node →
      Identified scope node) :
    (fields : List Field) → (∀ field ∈ fields, field ∈ holder.fields) → {name : String} →
    .name name ∈ quotedInColumns holder.collection fields → Identifier scope.snapshot name
  | [], _, _, member => by cases member
  | .scalar _ :: rest, part, _, member =>
    identifier_of_columns holder known rest (fun field held => part field (.tail _ held)) member
  | .relation field link target :: rest, part, name, member => by
    have held := part _ (.head _)
    have below := Shape.forall_below known (.step .root held (.head _))
    have own := (known [] _ .root).fields _ held
    simp only [quotedInColumns, List.mem_append, List.mem_cons, Token.name.injEq,
      List.not_mem_nil, or_false, or_assoc] at member
    rcases member with rfl | inner | joins | order | rfl | rfl | later
    · exact .rows own
    · exact identifier_of_select target below inner
    · exact identifier_of_relation (known [] _ .root) held (List.mem_append_left _ joins)
    · exact identifier_of_relation (known [] _ .root) held (List.mem_append_right _ order)
    · exact .rows own
    · exact .field own
    · exact identifier_of_columns holder known rest
        (fun field held => part field (.tail _ held)) later
  | .polymorphic field discriminant targets :: rest, part, name, member => by
    have held := part _ (.head _)
    simp only [quotedInColumns, List.mem_append, List.mem_cons, Token.name.injEq,
      List.not_mem_nil, or_false, reduceCtorEq, false_or, or_assoc] at member
    rcases member with nested | flat | rfl | later
    · exact identifier_of_branch (known [] _ .root) held (by simp) nested
    · exact identifier_of_branch (known [] _ .root) held (by simp) flat
    · exact .field ((known [] _ .root).fields _ held)
    · exact identifier_of_columns holder known rest
        (fun field held => part field (.tail _ held)) later
end

/-- A table of the schema, and a column that the schema lists for it. -/
def Reference.Known (snapshot : Snapshot) (reference : Reference) : Prop :=
  (snapshot.collection? reference.table).isSome ∧
    ∀ column, reference.column = some column → snapshot.hasField reference.table column

theorem known_of_hasField {snapshot : Snapshot} {table column : String}
    (held : snapshot.hasField table column) (scopes : List String) :
    Reference.Known snapshot ⟨table, some column, scopes⟩ := by
  constructor
  · unfold Snapshot.hasField at held
    split at held
    · cases held
    · rename_i found
      simp [found]
  · intro other same
    cases same
    exact held

theorem known_of_mentions {node : Shape} {reference : Intended} (h : Identified scope node)
    (mentions : Mentions node reference) : reference.toReference.Known scope.snapshot := by
  obtain ⟨outer, rfl | ⟨field, held, member⟩⟩ := mentions
  · constructor
    · exact h.collection
    · intro column same
      cases same
  cases field with
  | scalar name => cases member
  | relation name link target =>
    obtain ⟨near, far⟩ := h.keys_held held
    rcases mem_intendedByRelation member with rfl | ⟨column, rfl | sorted, rfl⟩
    · exact known_of_hasField near _
    · exact known_of_hasField far _
    · exact known_of_hasField (h.order name link target held column sorted).2 _
  | polymorphic name discriminant targets =>
    have chosen := h.discriminant name discriminant targets held
    have item := h.fields _ held
    rcases List.mem_append.mp member with branch | branch <;>
      rcases mem_intendedInBranch branch with rfl | rfl
    · exact known_of_hasField chosen _
    · exact known_of_hasField item _
    · exact known_of_hasField chosen _
    · exact known_of_hasField item _

end Sql

theorem Scope.resolve_collection (h : scope.resolve.outcome = .ok shape) :
    shape.collection = scope.root := by
  unfold Scope.resolve at h
  split at h
  · cases h
  · split at h
    · cases Walk.pure_ok h
      rfl
    · obtain ⟨fields, _, h⟩ := Walk.bind_ok h
      cases Walk.pure_ok h
      rfl

/-- Every name in a resolved shape is known to the schema in its part, at every node. So every
quoted name in its select, and in the selects in maps at every depth, is a collection, a field or a
name made from them, and no column is asked of a table that the schema does not list for it. -/
theorem resolved_identifiers_known (h : scope.resolve.outcome = .ok shape) :
    shape.collection = scope.root ∧
    (∀ above node, shape.Node above node → Identified scope node) ∧
    ∀ depth, ∃ selects, Sql.decoded depth (Sql.compile shape) = some selects ∧
      ∀ sql ∈ selects, ∃ tokens found, Sql.lex sql = some tokens ∧
        (∀ name, .name name ∈ tokens → Sql.Identifier scope.snapshot name) ∧
        Sql.references sql = some found ∧ ∀ reference ∈ found, reference.Known scope.snapshot := by
  have nodes : ∀ above node, shape.Node above node → Identified scope node :=
    fun above node reached => (scope.node_visited h reached).identified
  refine ⟨scope.resolve_collection h, nodes, fun depth => ⟨_, Sql.decoded_compile depth shape, ?_⟩⟩
  intro sql member
  obtain ⟨query, deep, rfl⟩ := List.mem_map.mp member
  obtain ⟨above, reached⟩ := Shape.node_of_mapped deep
  have below := Shape.forall_below nodes reached
  refine ⟨_, _, Sql.lex_compile query, ?_, Sql.references_compile query, ?_⟩
  · intro name emitted
    have quoted : .name name ∈ (Sql.significant (Sql.select query)).filter Sql.Token.isQuoted :=
      List.mem_filter.mpr ⟨emitted, rfl⟩
    rw [Sql.quoted_significant, Sql.quoted_select] at quoted
    exact Sql.identifier_of_select query below quoted
  · intro reference found
    obtain ⟨intended, asked, rfl⟩ := List.mem_map.mp found
    obtain ⟨_, node, inner, mentions⟩ := Sql.mentions_of_select query asked
    exact Sql.known_of_mentions (below _ node inner) mentions

/-- Pages that join an author and choose an item, whose nested choice stands in a map. -/
theorem resolved_identifiers_known_pages :
    pagesScope.resolve.outcome = .ok pagesShape ∧ Identified pagesScope authorShape ∧
      ∃ selects, Sql.decoded 1 (Sql.compile pagesShape) = some selects ∧
        ∀ sql ∈ selects, ∃ found, Sql.references sql = some found ∧
          ∀ reference ∈ found, reference.Known pagesScope.snapshot := by
  have resolved : pagesScope.resolve.outcome = .ok pagesShape := by with_unfolding_all rfl
  have known := resolved_identifiers_known resolved
  have reached : pagesShape.Node ["pages"] authorShape := .step .root (.head _) (.head _)
  obtain ⟨selects, read, each⟩ := known.2.2 1
  refine ⟨resolved, known.2.1 _ _ reached, selects, read, ?_⟩
  intro sql member
  obtain ⟨_, found, _, _, references, all⟩ := each sql member
  exact ⟨found, references, all⟩

end DocumentViews
