import DocumentViews.Proofs.Sql.Compile

/-! No name gets out of its quotes.
The tokens of a select fall into two parts that determine them: the frame, which depends on the
outline of the shape alone, and the contents of the quoted tokens, which are the names of the shape
one by one. The outline holds the kinds of nested columns, whether rows are sorted, and which
targets of a choice nest further, but no name. -/
namespace DocumentViews

namespace Shape

/-- A nested column apart from all names. Of the targets of a choice only counts which nest further,
for their own selects travel in one literal. -/
inductive Part where
  | relation (kind : RelationKind) (sorted : Bool) (below : List Part)
  | choice (nests : List Bool)

mutual
def outline : Shape → List Part
  | .mk _ fields => outlineOfFields fields

def outlineOfFields : List Field → List Part
  | [] => []
  | .scalar _ :: rest => outlineOfFields rest
  | .relation _ link target :: rest =>
    .relation link.kind link.sort.isSome (outline target) :: outlineOfFields rest
  | .polymorphic _ _ targets :: rest => .choice (targets.map hasNested) :: outlineOfFields rest
end

end Shape

namespace Sql

def Token.isQuoted : Token → Bool
  | .name _ => true
  | .literal _ => true
  | _ => false

def Token.bare : Token → Token
  | .name _ => .name ""
  | .literal _ => .literal ""
  | other => other

/-- How many parentheses are open after some tokens; none when one closes that nothing opened. -/
def openAfter (depth : Nat) : List Token → Option Nat
  | [] => some depth
  | token :: rest =>
    if token = .mark '(' then openAfter (depth + 1) rest
    else if token = .mark ')' then if depth = 0 then none else openAfter (depth - 1) rest
    else openAfter depth rest

def frameSelect (columns : List Token) : List Token :=
  [Token.word "SELECT", .blank, .name "", .mark '.', .mark '*'] ++ columns ++
    [Token.blank, .word "FROM", .blank, .name ""]

mutual
/-- The columns of an outline, with nothing in the quotes but what names make up together. -/
def frameColumns : List Shape.Part → List Token
  | [] => []
  | part :: rest => [Token.mark ',', .blank] ++ frameColumn part ++ frameColumns rest

def frameColumn : Shape.Part → List Token
  | .relation kind sorted below =>
    relationColumn "" "" ⟨kind, default, if sorted then some "" else none⟩ ""
      (frameSelect (frameColumns below))
  | .choice nests => choiceColumn "" "" "" (nests.map fun nested => ⟨"", nested, []⟩)
end

def frame (outline : List Shape.Part) : List Token :=
  (significant (frameSelect (frameColumns outline))).map Token.bare

def joinNames (holder target : String) (link : Link) : List Token :=
  if link.kind = .manyToOne then
    [.name holder, .name link.join.column, .name target, .name link.join.foreignColumn]
  else [.name target, .name link.join.column, .name holder, .name link.join.foreignColumn]

def sortNames (target : String) : Option String → List Token
  | none => []
  | some sort => [.name target, .name sort]

/-- The names in one branch of a choice; a branch without targets is left out. -/
def branchNames (holder field discriminant : String) (targets : List Shape) (map : List Token) :
    List Token :=
  if targets.isEmpty then []
  else
    [Token.name holder, .name discriminant] ++
      targets.map (fun target => .literal target.collection) ++
      [Token.name "resolved", .name holder, .name discriminant, .name holder, .name field] ++
      map ++ [Token.name "resolved"]

mutual
/-- The quoted tokens of a select, one for each place where a name stands. -/
def quotedNames : Shape → List Token
  | .mk collection fields =>
      .name collection :: (quotedInColumns collection fields ++ [Token.name collection])

def quotedInColumns (holder : String) : List Field → List Token
  | [] => []
  | .scalar _ :: rest => quotedInColumns holder rest
  | .relation field link target :: rest =>
    [Token.name (nestedName holder field)] ++ quotedNames target ++
      joinNames holder target.collection link ++ sortNames target.collection link.sort ++
      [Token.name (nestedName holder field), .name field] ++
      quotedInColumns holder rest
  | .polymorphic field discriminant targets :: rest =>
    branchNames holder field discriminant (targets.filter Shape.hasNested)
        [Token.literal (routeMap (routes (targets.filter Shape.hasNested)))] ++
      branchNames holder field discriminant (targets.filter fun target => !target.hasNested) [] ++
      [Token.literal "\x7b\x7d", .name field] ++ quotedInColumns holder rest
end

/-- Tokens that close every parenthesis they open, and no other. -/
def Balanced (tokens : List Token) : Prop := ∀ depth, openAfter depth tokens = some depth

theorem openAfter_append (depth : Nat) (left right : List Token) :
    openAfter depth (left ++ right) = (openAfter depth left).bind (openAfter · right) := by
  induction left generalizing depth with
  | nil => rfl
  | cons token rest ih =>
    rw [List.cons_append, openAfter, openAfter]
    split
    · exact ih (depth + 1)
    · split
      · split
        · rfl
        · exact ih (depth - 1)
      · exact ih depth

namespace Balanced

theorem append {left right : List Token} (hl : Balanced left) (hr : Balanced right) :
    Balanced (left ++ right) := by
  intro depth
  rw [openAfter_append, hl depth]
  exact hr depth

theorem flat {tokens : List Token} (h : ∀ token ∈ tokens, token ≠ .mark '(' ∧ token ≠ .mark ')') :
    Balanced tokens := by
  intro depth
  induction tokens with
  | nil => rfl
  | cons token rest ih =>
    have here := h token List.mem_cons_self
    rw [openAfter, if_neg here.1, if_neg here.2]
    exact ih fun other member => h other (List.mem_cons_of_mem _ member)

theorem parens {inside : List Token} (h : Balanced inside) : Balanced (parens inside) := by
  intro depth
  have opened : openAfter depth (Sql.parens inside) =
      openAfter (depth + 1) (inside ++ [Token.mark ')']) := rfl
  rw [opened, openAfter_append, h (depth + 1)]
  rfl

theorem significant {tokens : List Token} (h : Balanced tokens) :
    Balanced (significant tokens) := by
  have same : ∀ (tokens : List Token) (depth : Nat), openAfter depth
      (Sql.significant tokens) = openAfter depth tokens := by
    intro tokens
    induction tokens with
    | nil => exact fun _ => rfl
    | cons token rest ih =>
      intro depth
      by_cases blank : token = .blank
      · subst blank
        exact ih depth
      · have kept : Sql.significant (token :: rest) = token :: Sql.significant rest := by
          simp [Sql.significant, blank]
        rw [kept, openAfter, openAfter]
        simp only [ih]
  intro depth
  rw [same]
  exact h depth

theorem commas {rows : List (List Token)} (each : ∀ row ∈ rows, Balanced row) :
    Balanced (commas rows) := by
  induction rows with
  | nil => exact fun _ => rfl
  | cons row rest ih =>
    have here := each row List.mem_cons_self
    have below := ih fun other member => each other (List.mem_cons_of_mem _ member)
    cases rest with
    | nil => exact here
    | cons next others => exact (here.append (flat (by simp))).append below

theorem column (table name : String) : Balanced (column table name) :=
  flat (by simp [Sql.column])

theorem named {value : List Token} (h : Balanced value) (name : String) :
    Balanced (named value name) :=
  h.append (flat (by simp))

theorem cast {value : List Token} (h : Balanced value) (type : String) :
    Balanced (cast value type) :=
  h.append (flat (by simp))

end Balanced

theorem balanced_orderBy (target : String) (sort : Option String) :
    Balanced (orderBy target sort) := by
  cases sort with
  | none => exact fun _ => rfl
  | some name => exact .flat (by simp [orderBy, words, column])

theorem balanced_joinCondition (holder target : String) (link : Link) :
    Balanced (joinCondition holder target link) :=
  ((Balanced.column _ _).append (.flat (by simp))).append (.column _ _)

theorem balanced_literals (collections : List String) :
    Balanced (commas (collections.map fun name => [.literal name])) := by
  refine .commas fun row member => ?_
  obtain ⟨name, _, rfl⟩ := List.mem_map.mp member
  exact .flat (by simp)

theorem balanced_joined (holder field : String) (link : Link) (target : String)
    {select : List Token} (h : Balanced select) :
    Balanced ([Token.word "SELECT", .blank, .word (aggregate link.kind)] ++
      parens [.name (nestedName holder field)] ++ [Token.blank, .word "FROM", .blank] ++
      named (parens (select ++ [Token.blank, .word "WHERE", .blank] ++
        joinCondition holder target link ++ orderBy target link.sort))
        (nestedName holder field)) := by
  have rows : Balanced
      (select ++ [Token.blank, .word "WHERE", .blank] ++ joinCondition holder target link ++
        orderBy target link.sort) :=
    ((h.append (.flat (by simp))).append (balanced_joinCondition holder target link)).append
      (balanced_orderBy target link.sort)
  have call : Balanced ([Token.word "SELECT", .blank, .word (aggregate link.kind)] ++
      parens [.name (nestedName holder field)] ++ [Token.blank, .word "FROM", .blank]) :=
    ((Balanced.flat (by simp)).append (Balanced.flat (by simp)).parens).append (.flat (by simp))
  exact call.append (rows.parens.named _)

theorem balanced_relationColumn (holder field : String) (link : Link) (target : String)
    {select : List Token} (h : Balanced select) :
    Balanced (relationColumn holder field link target select) :=
  (balanced_joined holder field link target h).parens.named field

theorem balanced_lookup (routine : String) {arguments : List (List Token)}
    (ha : ∀ argument ∈ arguments, Balanced argument) :
    Balanced ([Token.word "SELECT", .blank, .name "resolved", .blank, .word "FROM", .blank] ++
      named (.word routine :: parens (commas arguments)) "resolved") := by
  have call : Balanced (.word routine :: parens (commas arguments)) := (Balanced.commas ha).parens
  exact (Balanced.flat (by simp)).append (call.named "resolved")

theorem balanced_branch {discriminant : List Token} (hd : Balanced discriminant)
    (collections : List String) (routine : String) {arguments : List (List Token)}
    (ha : ∀ argument ∈ arguments, Balanced argument) :
    Balanced (branch discriminant collections routine arguments) := by
  have opening : Balanced ([Token.blank, .word "WHEN", .blank] ++ discriminant ++
      [Token.blank, .word "IN", .blank]) :=
    ((Balanced.flat (by simp)).append hd).append (.flat (by simp))
  exact ((opening.append (balanced_literals collections).parens).append (.flat (by simp))).append
    (balanced_lookup routine ha).parens

theorem balanced_branchFor {discriminant item : List Token} (hd : Balanced discriminant)
    (hi : Balanced item) (routes : List Route) (routine : String) {more : List (List Token)}
    (hm : ∀ argument ∈ more, Balanced argument) :
    Balanced (branchFor discriminant item routes routine more) := by
  unfold branchFor
  split
  · exact fun _ => rfl
  · exact balanced_branch hd _ _ (List.forall_mem_cons.mpr ⟨hd, List.forall_mem_cons.mpr ⟨hi, hm⟩⟩)

theorem balanced_choiceColumn (holder field discriminant : String) (routes : List Route) :
    Balanced (choiceColumn holder field discriminant routes) := by
  have chosen := Balanced.column holder discriminant
  have item : Balanced (cast (column holder field) "text") := .cast (.column holder field) "text"
  have map : Balanced (cast [.literal (routeMap (routes.filter (·.nests)))] "json") :=
    .cast (.flat (by simp)) "json"
  have nested := balanced_branchFor chosen item (routes.filter (·.nests)) "resolve_row_with_nested"
    (List.forall_mem_singleton.mpr map)
  have flat :=
    balanced_branchFor chosen item (routes.filter fun route => !route.nests) "resolve_row"
      (List.forall_mem_nil _)
  have opening : Balanced [.word "CASE"] := .flat (by simp)
  have otherwise : Balanced (cast [.literal "\x7b\x7d"] "json") := .cast (.flat (by simp)) "json"
  rw [choiceColumn, nestedBranch_eq, flatBranch_eq]
  exact (((((opening.append nested).append flat).append (.flat (by simp))).append otherwise).append
    (.flat (by simp))).named field

mutual
theorem balanced_select : (shape : Shape) → Balanced (select shape)
  | .mk collection fields =>
    ((Balanced.flat (by simp)).append (balanced_nestedColumns collection fields)).append
      (.flat (by simp))

theorem balanced_nestedColumns (holder : String) :
    (fields : List Field) → Balanced (nestedColumns holder fields)
  | [] => fun _ => rfl
  | .scalar _ :: rest => balanced_nestedColumns holder rest
  | .relation name link target :: rest => by
    have column :=
      balanced_relationColumn holder name link target.collection (balanced_select target)
    exact ((Balanced.flat (by simp)).append column).append (balanced_nestedColumns holder rest)
  | .polymorphic name discriminant targets :: rest => by
    have column := balanced_choiceColumn holder name discriminant (routes targets)
    exact ((Balanced.flat (by simp)).append column).append (balanced_nestedColumns holder rest)
end

theorem quoted_significant (tokens : List Token) :
    (significant tokens).filter Token.isQuoted = tokens.filter Token.isQuoted := by
  rw [significant, List.filter_filter]
  refine List.filter_congr fun token _ => ?_
  cases token <;> rfl

theorem quoted_commas (rows : List (List Token)) :
    (commas rows).filter Token.isQuoted = rows.flatten.filter Token.isQuoted := by
  induction rows with
  | nil => rfl
  | cons row rest ih =>
    cases rest with
    | nil => simp [commas]
    | cons next others => simp [commas, ih, Token.isQuoted]

theorem quoted_literals (collections : List String) :
    (commas (collections.map fun name => [.literal name])).filter Token.isQuoted =
      collections.map .literal := by
  induction collections with
  | nil => rfl
  | cons name rest ih =>
    rw [quoted_commas] at ih ⊢
    simp [List.filter_cons, Token.isQuoted, ih]

theorem quoted_joinCondition (holder target : String) (link : Link) :
    (joinCondition holder target link).filter Token.isQuoted = joinNames holder target link := by
  unfold joinCondition joinNames
  split <;> rfl

theorem quoted_orderBy (target : String) (sort : Option String) :
    (orderBy target sort).filter Token.isQuoted = sortNames target sort := by
  cases sort <;> rfl

theorem quoted_relationColumn (holder field : String) (link : Link) (target : String)
    (select : List Token) :
    (relationColumn holder field link target select).filter Token.isQuoted =
      [Token.name (nestedName holder field)] ++ select.filter Token.isQuoted ++ joinNames holder
        target link ++ sortNames target link.sort ++
        [Token.name (nestedName holder field), .name field] := by
  simp [relationColumn, named, parens, List.filter_cons, Token.isQuoted,
    quoted_joinCondition, quoted_orderBy]

theorem collections_routes (targets : List Shape) :
    (routes targets).map (·.collection) = targets.map Shape.collection := by
  rw [routes_eq, List.map_map]
  rfl

theorem quoted_branch (holder field discriminant routine : String) (collections : List String)
    (more : List (List Token)) :
    (branch (column holder discriminant) collections routine
        (column holder discriminant :: cast (column holder field) "text" :: more)).filter
          Token.isQuoted =
      [Token.name holder, .name discriminant] ++ collections.map .literal ++
        [Token.name "resolved", .name holder, .name discriminant, .name holder, .name field] ++
        more.flatten.filter Token.isQuoted ++ [Token.name "resolved"] := by
  have arguments :
      (commas (column holder discriminant :: cast (column holder field) "text" :: more)).filter
        Token.isQuoted = [Token.name holder, .name discriminant, .name holder, .name field] ++
        more.flatten.filter Token.isQuoted := by
    rw [quoted_commas]
    simp [column, cast, List.filter_cons, Token.isQuoted]
  have chosen : (column holder discriminant).filter Token.isQuoted =
      [.name holder, .name discriminant] := rfl
  simp [branch, parens, named, chosen, quoted_literals, arguments, List.filter_cons, Token.isQuoted]

theorem quoted_branchFor (holder field discriminant : String) (targets : List Shape)
    (routine : String) (more : List (List Token)) :
    (branchFor (column holder discriminant) (cast (column holder field) "text")
      (routes targets) routine more).filter
        Token.isQuoted =
      branchNames holder field discriminant targets (more.flatten.filter Token.isQuoted) := by
  cases targets with
  | nil => rfl
  | cons target rest =>
    refine (quoted_branch holder field discriminant routine _ more).trans ?_
    rw [collections_routes, List.map_map]
    rfl

theorem quoted_choiceColumn (holder field discriminant : String) (targets : List Shape) :
    (choiceColumn holder field discriminant (routes targets)).filter Token.isQuoted =
      branchNames holder field discriminant (targets.filter Shape.hasNested)
          [.literal (routeMap (routes (targets.filter Shape.hasNested)))] ++
        branchNames holder field discriminant (targets.filter fun target => !target.hasNested) [] ++
        [Token.literal "\x7b\x7d", .name field] := by
  have map :
      ([cast [.literal (routeMap (routes (targets.filter Shape.hasNested)))] "json"].flatten).filter
        Token.isQuoted = [.literal (routeMap (routes (targets.filter Shape.hasNested)))] := rfl
  have otherwise : (cast [.literal "\x7b\x7d"] "json").filter Token.isQuoted =
      [.literal "\x7b\x7d"] := rfl
  rw [choiceColumn, filter_routes, filter_flat_routes, nestedBranch_eq, flatBranch_eq]
  simp only [named, List.filter_append, quoted_branchFor, map, otherwise]
  simp [List.filter_cons, Token.isQuoted]

mutual
theorem quoted_select : (shape : Shape) → (select shape).filter Token.isQuoted = quotedNames shape
  | .mk collection fields => by
    simp [select, quotedNames, quoted_nestedColumns collection fields,
      List.filter_cons, Token.isQuoted]

theorem quoted_nestedColumns (holder : String) : (fields : List Field) →
    (nestedColumns holder fields).filter Token.isQuoted = quotedInColumns holder fields
  | [] => rfl
  | .scalar _ :: rest => quoted_nestedColumns holder rest
  | .relation name link target :: rest => by
    have column := quoted_relationColumn holder name link target.collection (select target)
    rw [quoted_select target] at column
    simp [nestedColumns, quotedInColumns, column, quoted_nestedColumns holder rest, Token.isQuoted]
  | .polymorphic name discriminant targets :: rest => by
    have column := quoted_choiceColumn holder name discriminant targets
    simp [nestedColumns, quotedInColumns, column, quoted_nestedColumns holder rest, Token.isQuoted]
end

theorem bare_commas (rows : List (List Token)) :
    (commas rows).map Token.bare = commas (rows.map (List.map Token.bare)) := by
  induction rows with
  | nil => rfl
  | cons row rest ih =>
    cases rest with
    | nil => rfl
    | cons next others => simpa [commas, Token.bare] using ih

theorem bare_literals (collections : List String) :
    (commas (collections.map fun name => [.literal name])).map Token.bare =
      commas (List.replicate collections.length [.literal ""]) := by
  rw [bare_commas, List.map_map]
  exact congrArg commas (List.map_eq_replicate_iff.mpr fun _ _ => rfl)

/-- A column of joined rows owes its frame to the kind of the relation, to the presence of an
order and to the select. -/
theorem bare_relationColumn {holder holder' field field' target target' : String}
    {link link' : Link} {select select' : List Token} (kind : link.kind = link'.kind)
    (sorted : link.sort.isSome = link'.sort.isSome)
    (same : select.map Token.bare = select'.map Token.bare) :
    (relationColumn holder field link target select).map Token.bare =
      (relationColumn holder' field' link' target' select').map Token.bare := by
  have order : (orderBy target link.sort).map Token.bare =
      (orderBy target' link'.sort).map Token.bare := by
    cases first : link.sort <;> cases second : link'.sort <;>
      simp_all [orderBy, words, column, Token.bare]
  simp [relationColumn, named, parens, joinCondition, column, Token.bare, kind, order, same]

theorem bare_branch {holder holder' field field' discriminant discriminant' routine : String}
    {collections collections' : List String} {more more' : List (List Token)}
    (length : collections.length = collections'.length)
    (same : more.map (List.map Token.bare) = more'.map (List.map Token.bare)) :
    (branch (column holder discriminant) collections routine
        (column holder discriminant :: cast (column holder field) "text" :: more)).map Token.bare =
      (branch (column holder' discriminant') collections' routine
        (column holder' discriminant' :: cast (column holder' field') "text" :: more')).map
          Token.bare := by
  have arguments :
      (commas (column holder discriminant :: cast (column holder field) "text" :: more)).map
      Token.bare =
      (commas (column holder' discriminant' :: cast (column holder' field') "text" :: more')).map
      Token.bare := by
    rw [bare_commas, bare_commas, List.map_cons, List.map_cons, List.map_cons, List.map_cons, same]
    rfl
  have chosen : (column holder discriminant).map Token.bare =
      (column holder' discriminant').map Token.bare := rfl
  have literals : (commas (collections.map fun name => [.literal name])).map Token.bare =
      (commas (collections'.map fun name => [.literal name])).map Token.bare := by
    rw [bare_literals, bare_literals, length]
  simp [branch, parens, named, chosen, literals, arguments, Token.bare]

theorem bare_branchFor {holder holder' field field' discriminant discriminant' : String}
    {routes routes' : List Route} {routine : String} {more more' : List (List Token)}
    (length : routes.length = routes'.length)
    (same : more.map (List.map Token.bare) = more'.map (List.map Token.bare)) :
    (branchFor (column holder discriminant) (cast (column holder field) "text") routes routine
        more).map Token.bare =
      (branchFor (column holder' discriminant') (cast (column holder' field') "text") routes'
        routine more').map Token.bare := by
  cases routes with
  | nil =>
    cases routes' with
    | nil => rfl
    | cons _ _ => cases length
  | cons _ _ =>
    cases routes' with
    | nil => cases length
    | cons _ _ => exact bare_branch (by simpa using length) same

/-- A choice owes its frame to which of its targets nest further. -/
theorem bare_choiceColumn {holder holder' field field' discriminant discriminant' : String}
    {routes routes' : List Route} (same : routes.map (·.nests) = routes'.map (·.nests)) :
    (choiceColumn holder field discriminant routes).map Token.bare =
      (choiceColumn holder' field' discriminant' routes').map Token.bare := by
  have measured : ∀ (p : Bool → Bool) (list : List Route),
      (list.filter fun route => p route.nests).length = ((list.map (·.nests)).filter p).length := by
    intro p list
    rw [List.filter_map, List.length_map]
    rfl
  have count : ∀ p : Bool → Bool, (routes.filter fun route => p route.nests).length =
      (routes'.filter fun route => p route.nests).length := by
    intro p
    rw [measured, measured, same]
  have nested : (nestedBranch (column holder discriminant) (cast (column holder field) "text")
      (routes.filter (·.nests))).map Token.bare =
      (nestedBranch (column holder' discriminant') (cast (column holder' field') "text")
        (routes'.filter (·.nests))).map Token.bare := by
    rw [nestedBranch_eq, nestedBranch_eq]
    exact bare_branchFor (count id) rfl
  have flat : (flatBranch (column holder discriminant) (cast (column holder field) "text")
      (routes.filter fun route => !route.nests)).map Token.bare =
      (flatBranch (column holder' discriminant') (cast (column holder' field') "text")
        (routes'.filter fun route => !route.nests)).map Token.bare := by
    rw [flatBranch_eq, flatBranch_eq]
    exact bare_branchFor (count not) rfl
  simp only [choiceColumn, named, List.map_append, nested, flat]
  rfl

mutual
theorem bare_select : (shape : Shape) →
    (select shape).map Token.bare = (frameSelect (frameColumns shape.outline)).map Token.bare
  | .mk collection fields => by
    have columns := bare_nestedColumns collection fields
    simp [select, frameSelect, Shape.outline, columns, Token.bare]

theorem bare_nestedColumns (holder : String) : (fields : List Field) →
    (nestedColumns holder fields).map Token.bare =
      (frameColumns (Shape.outlineOfFields fields)).map Token.bare
  | [] => rfl
  | .scalar _ :: rest => bare_nestedColumns holder rest
  | .relation name link target :: rest => by
    have others := bare_nestedColumns holder rest
    have sorted : link.sort.isSome = (if link.sort.isSome then some "" else none).isSome := by
      cases link.sort <;> rfl
    have column :
        (relationColumn holder name link target.collection (select target)).map Token.bare =
        (relationColumn "" "" ⟨link.kind, default, if link.sort.isSome then some "" else none⟩ ""
          (frameSelect (frameColumns target.outline))).map Token.bare :=
      bare_relationColumn rfl sorted (bare_select target)
    simp only [nestedColumns, Shape.outlineOfFields, frameColumns, frameColumn,
      List.map_append, others]
    rw [column]
  | .polymorphic name discriminant targets :: rest => by
    have others := bare_nestedColumns holder rest
    have nests : (routes targets).map (·.nests) =
        ((targets.map Shape.hasNested).map fun nested => (⟨"", nested, []⟩ : Route)).map
          (·.nests) := by
      rw [routes_eq, List.map_map, List.map_map, List.map_map]
      rfl
    simp only [nestedColumns, Shape.outlineOfFields, frameColumns, frameColumn,
      List.map_append, others]
    rw [bare_choiceColumn nests]
end

theorem bare_significant (tokens : List Token) :
    (significant tokens).map Token.bare = significant (tokens.map Token.bare) := by
  rw [significant, significant, List.filter_map]
  refine congrArg (List.map Token.bare) (List.filter_congr fun token _ => ?_)
  cases token <;> rfl

/-- Whatever names a shape holds, its select is read without an open quote, the parentheses close,
the quoted tokens are the names, each once for each place, and all else is the frame of the outline.
So two shapes of one outline differ in nothing but the contents of quotes. -/
theorem names_stay_quoted (shape : Shape) :
    lex (compile shape) = some (significant (select shape)) ∧
    openAfter 0 (significant (select shape)) = some 0 ∧
    (significant (select shape)).filter Token.isQuoted = quotedNames shape ∧
    (significant (select shape)).map Token.bare = frame shape.outline ∧
    ∀ other : Shape, other.outline = shape.outline →
      ∃ tokens, lex (compile other) = some tokens ∧
        tokens.map Token.bare = (significant (select shape)).map Token.bare := by
  have framed : ∀ shape : Shape, (significant (select shape)).map Token.bare =
      frame shape.outline := by
    intro shape
    rw [frame, bare_significant, bare_select, ← bare_significant]
  refine ⟨lex_compile shape, (balanced_select shape).significant 0, ?_, framed shape, ?_⟩
  · rw [quoted_significant, quoted_select]
  · intro other same
    exact ⟨_, lex_compile other, by rw [framed other, framed shape, same]⟩

/-- A plain shape and one of the same outline whose names try to end their quotes. -/
theorem names_stay_quoted_hostile :
    let plain : Shape :=
      .mk "pages"
        [.scalar "id",
         .relation "author" ⟨.manyToOne, ⟨"t", "author", "id"⟩, none⟩ (.mk "people" []),
         .polymorphic "item" "collection"
          [.mk "texts" [],
           .mk "galleries"
            [.relation "images" ⟨.oneToMany, ⟨"t", "gallery", "id"⟩, some "sort"⟩
              (.mk "images" [])]]]
    let hostile : Shape :=
      .mk "\"; DROP TABLE x; --"
        [.relation "') AS \"y" ⟨.manyToOne, ⟨"'", "\"", "a\"\"b"⟩, none⟩ (.mk "FROM \"" []),
         .polymorphic "''" "'"
          [.mk "', '" [],
           .mk "'::json" [.relation "\\" ⟨.oneToMany, ⟨"", "", ""⟩, none⟩ (.mk "" [])]]]
    hostile.outline = plain.outline ∧
      ∃ tokens, lex (compile hostile) = some tokens ∧
        tokens.map Token.bare = (significant (select plain)).map Token.bare := by
  intro plain hostile
  have same : hostile.outline = plain.outline := rfl
  exact ⟨same, (names_stay_quoted plain).2.2.2.2 hostile same⟩

end Sql

end DocumentViews
