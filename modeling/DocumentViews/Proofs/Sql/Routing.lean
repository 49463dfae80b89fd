import DocumentViews.Proofs.Sql.Scopes

/-! The choices in the text of a select.
The column of a choice is a row of branches, each with the names it is for and the routine that
looks the row up, and an empty object for all other names. A reader that accepts nothing else finds
in a select exactly the choices of its shape that stand outside of maps. -/
namespace DocumentViews

namespace Sql

/-- A branch of a choice: the column that it compares, the names it is for, the column that holds
the key of the row, and the selects that it hands over if the rows nest further. -/
structure Branch where
  compared : String × String
  listed : List String
  item : String × String
  selects : Option (List (String × String))

structure Choice where
  branches : List Branch
  name : String

namespace Choice

/-- The branch that a name falls to; none for the empty object. -/
def taken (choice : Choice) (name : String) : Option Branch :=
  choice.branches.find? fun branch => branch.listed.contains name

def nested (choice : Choice) : List String :=
  (choice.branches.filter fun branch => branch.selects.isSome).flatMap Branch.listed

def flat (choice : Choice) : List String :=
  (choice.branches.filter fun branch => branch.selects.isNone).flatMap Branch.listed

end Choice

def skip : List Token → List Token → Option (List Token)
  | [], tokens => some tokens
  | expected :: more, token :: rest => if token = expected then skip more rest else none
  | _ :: _, [] => none

def readColumn : List Token → Option ((String × String) × List Token)
  | .name table :: .mark '.' :: .name column :: rest => some ((table, column), rest)
  | _ => none

def readListed : List Token → Option (List String × List Token)
  | .literal name :: .mark ',' :: rest =>
      (readListed rest).map fun found => (name :: found.1, found.2)
  | .literal name :: .mark ')' :: rest => some ([name], rest)
  | _ => none

/-- The map of selects that the routine for rows that nest further takes; the other routine
takes none. -/
def readSelects (routine : String) (tokens : List Token) :
    Option (Option (List (String × String)) × List Token) :=
  if routine = "resolve_row" then (skip [.mark ')'] tokens).map (none, ·)
  else if routine = "resolve_row_with_nested" then
    match tokens with
    | .mark ',' :: .literal content :: rest => do
      let selects ← (Json.read content).bind Json.texts?
      let rest ← skip (cast [] "json" ++ [.mark ')']) rest
      return (some selects, rest)
    | _ => none
  else none

def readLookup (compared : String × String) :
    List Token → Option ((String × String) × Option (List (String × String)) × List Token)
  | .word routine :: rest => do
    let rest ← skip (.mark '(' :: column compared.1 compared.2 ++ [.mark ',']) rest
    let (item, rest) ← readColumn rest
    let rest ← skip (cast [] "text") rest
    let (selects, rest) ← readSelects routine rest
    return (item, selects, rest)
  | _ => none

def Branch.read (tokens : List Token) : Option (Branch × List Token) := do
  let rest ← skip [.word "WHEN"] tokens
  let (compared, rest) ← readColumn rest
  let rest ← skip [.word "IN", .mark '('] rest
  let (listed, rest) ← readListed rest
  let rest ← skip [.word "THEN", .mark '(', .word "SELECT", .name "resolved", .word "FROM"] rest
  let (item, selects, rest) ← readLookup compared rest
  let rest ← skip [.word "AS", .name "resolved", .mark ')'] rest
  return (⟨compared, listed, item, selects⟩, rest)

def readBranches : Nat → List Token → Option (List Branch × List Token)
  | 0, tokens => some ([], tokens)
  | limit + 1, tokens =>
    if tokens.head? = some (.word "WHEN") then do
      let (branch, rest) ← Branch.read tokens
      let (others, rest) ← readBranches limit rest
      return (branch :: others, rest)
    else some ([], tokens)

def Choice.read (tokens : List Token) : Option Choice := do
  let (branches, rest) ← readBranches tokens.length tokens
  let rest ← skip (.word "ELSE" :: cast [.literal "\x7b\x7d"] "json" ++
    [.word "END", .word "AS"]) rest
  match rest with
  | .name name :: _ => some ⟨branches, name⟩
  | _ => none

def readChoices : List Token → List (Option Choice)
  | [] => []
  | token :: rest =>
    if token = .word "CASE" then Choice.read rest :: readChoices rest else readChoices rest

/-- The choices in a text, in order; none if there is one that cannot be read. -/
def choices (sql : String) : Option (List Choice) :=
  (lex sql).bind fun tokens => (readChoices tokens).mapM id

def branchOf (holder field discriminant : String) (targets : List Shape)
    (selects : Option (List (String × String))) : List Branch :=
  if targets.isEmpty then []
  else [⟨(holder, discriminant), targets.map Shape.collection, (holder, field), selects⟩]

def choiceOf (holder field discriminant : String) (targets : List Shape) : Choice where
  branches :=
    branchOf holder field discriminant (targets.filter Shape.hasNested)
      (some (selects (targets.filter Shape.hasNested)).entries) ++
    branchOf holder field discriminant (targets.filter fun target => !target.hasNested) none
  name := field

mutual
def offered : Shape → List Choice
  | .mk collection fields => offeredByFields collection fields

def offeredByFields (holder : String) : List Field → List Choice
  | [] => []
  | .scalar _ :: rest => offeredByFields holder rest
  | .relation _ _ target :: rest => offered target ++ offeredByFields holder rest
  | .polymorphic name discriminant targets :: rest =>
    choiceOf holder name discriminant targets :: offeredByFields holder rest
end

theorem offeredByFields_eq (holder : String) (fields : List Field) : offeredByFields holder fields =
    fields.flatMap fun field =>
      match field with
      | .scalar _ => []
      | .relation _ _ target => offered target
      | .polymorphic name discriminant targets => [choiceOf holder name discriminant targets] := by
  induction fields with
  | nil => rfl
  | cons field rest ih => cases field <;> simp [offeredByFields, ih]

theorem offered_eq (shape : Shape) :
    offered shape = offeredByFields shape.collection shape.fields := by
  cases shape
  rfl

@[simp] theorem skip_nil (tokens : List Token) : skip [] tokens = some tokens := by
  cases tokens <;> rfl

@[simp] theorem skip_cons (token : Token) (more rest : List Token) :
    skip (token :: more) (token :: rest) = skip more rest := by
  rw [skip, if_pos rfl]

theorem significant_nil : significant [] = [] := rfl

theorem significant_cons (token : Token) (rest : List Token) :
    significant (token :: rest) = if token = .blank then significant rest
      else token :: significant rest := by
  by_cases blank : token = .blank <;> simp [significant, blank]

theorem significant_commas (first : List Token) (rest : List (List Token)) :
    significant (commas (first :: rest)) = significant first ++
      significant (rest.flatMap (.mark ',' :: ·)) := by
  induction rest generalizing first with
  | nil => simp [commas, significant]
  | cons next others ih =>
    rw [commas, significant_append, significant_append, ih, List.flatMap_cons, significant_append]
    · simp [significant]
    · simp

theorem readListed_commas {names : List String} (filled : names ≠ []) (after : List Token) :
    readListed (significant (commas (names.map fun name => [.literal name])) ++
      .mark ')' :: after) = some (names, after) := by
  induction names with
  | nil => exact absurd rfl filled
  | cons name rest ih =>
    cases rest with
    | nil => rfl
    | cons next others =>
      have below := ih (List.cons_ne_nil next others)
      show readListed (.literal name :: .mark ',' ::
        (significant (commas ((next :: others).map fun name => [.literal name])) ++ .mark ')' ::
          after)) = _
      rw [readListed, below]
      rfl

def Takes (routine : String) (more : List (List Token))
    (selects : Option (List (String × String))) : Prop :=
  ∀ after, readSelects routine (significant (more.flatMap (.mark ',' :: ·)) ++ .mark ')' :: after) =
    some (selects, after)

theorem takes_nothing : Takes "resolve_row" [] none := by
  intro after
  simp [readSelects, significant_nil]

theorem takes_selects (targets : List Shape) : Takes "resolve_row_with_nested"
    [cast [.literal (routeMap (routes targets))] "json"] (some (selects targets).entries) := by
  intro after
  have content : (Json.read (routeMap (routes targets))).bind Json.texts? =
      some (selects targets).entries := by
    rw [read_routeMap, Option.bind_some, texts?_textMembers]
  simp [readSelects, significant_cons, significant_nil, cast, content]

section

variable (holder field discriminant : String) {routine : String} {more : List (List Token)}
  {selects : Option (List (String × String))}

theorem read_branch {names : List String} (filled : names ≠ []) (takes : Takes routine more selects)
    (after : List Token) :
    Branch.read (significant (branch (column holder discriminant) names routine
        (column holder discriminant :: cast (column holder field) "text" :: more)) ++ after) =
      some (⟨(holder, discriminant), names, (holder, field), selects⟩, after) := by
  have written : significant (branch (column holder discriminant) names routine
      (column holder discriminant :: cast (column holder field) "text" :: more)) ++ after =
      .word "WHEN" :: .name holder :: .mark '.' :: .name discriminant :: .word "IN" :: .mark '(' ::
        (significant (commas (names.map fun name => [.literal name])) ++ .mark ')' ::
        .word "THEN" :: .mark '(' :: .word "SELECT" :: .name "resolved" :: .word "FROM" ::
        .word routine :: .mark '(' :: .name holder :: .mark '.' :: .name discriminant ::
        .mark ',' :: .name holder :: .mark '.' :: .name field :: .mark ':' :: .mark ':' ::
        .word "text" :: (significant (more.flatMap (.mark ',' :: ·)) ++ .mark ')' ::
        .word "AS" :: .name "resolved" :: .mark ')' :: after)) := by
    simp only [branch, parens, named, column, cast, significant_append, significant_cons,
      significant_nil, significant_commas, List.flatMap_cons, List.cons_append, List.nil_append,
      List.append_assoc, reduceCtorEq,
      if_false, if_true]
  rw [written]
  simp [Branch.read, readColumn, readListed_commas filled, readLookup, column, cast, takes _]

/-- A branch for some targets is read before those that follow it, and one for no targets is
not there. -/
theorem readBranches_branchFor (targets : List Shape) (takes : Takes routine more selects)
    {after rest : List Token} {later : List Branch} {least : Nat}
    (follow : ∀ limit ≥ least, readBranches limit after = some (later, rest)) :
    ∀ limit ≥ least + 1, readBranches limit (significant (branchFor (column holder discriminant)
        (cast (column holder field) "text") (routes targets) routine more) ++ after) =
      some (branchOf holder field discriminant targets selects ++ later, rest) := by
  intro limit enough
  cases targets with
  | nil => exact follow limit (Nat.le_of_succ_le enough)
  | cons target others =>
    obtain ⟨limit, rfl⟩ : ∃ fewer, limit = fewer + 1 := ⟨limit - 1, by omega⟩
    have names : (routes (target :: others)).map (·.collection) =
        (target :: others).map Shape.collection := by
      rw [routes_eq, List.map_map]
      rfl
    have opens :
        (significant (branch (column holder discriminant)
        ((target :: others).map Shape.collection) routine
        (column holder discriminant :: cast (column holder field) "text" :: more)) ++ after).head? =
        some (.word "WHEN") := by
      simp [branch, significant_cons]
    rw [branchFor, if_neg (by simp [routes]), names, readBranches, if_pos opens,
      read_branch holder field discriminant (by simp) takes after]
    simp [follow limit (by omega), branchOf]

end

/-- What a reader finds in a row of tokens, whatever follows. -/
def Yields {α : Type} (reader : List Token → List α) (tokens : List Token)
    (found : List α) : Prop :=
  ∀ after, reader (tokens ++ after) = found ++ reader after

namespace Yields

variable {α : Type} {reader : List Token → List α}

theorem nil : Yields reader [] [] := by
  intro after
  rfl

theorem append {left right : List Token} {first second : List α} (hl : Yields reader left first)
    (hr : Yields reader right second) : Yields reader (left ++ right) (first ++ second) := by
  intro after
  rw [List.append_assoc, hl, hr, List.append_assoc]

theorem nothing {tokens : List Token}
    (h : ∀ token ∈ tokens, ∀ rest, reader (token :: rest) = reader rest) :
    Yields reader tokens [] := by
  induction tokens with
  | nil => exact nil
  | cons token rest ih =>
    intro after
    rw [List.cons_append, h token List.mem_cons_self]
    exact ih (fun other member => h other (List.mem_cons_of_mem _ member)) after

end Yields

def Offers (tokens : List Token) (offered : List Choice) : Prop :=
  ∀ after, readChoices (tokens ++ after) = offered.map some ++ readChoices after

theorem Offers.append {left right : List Token} {first second : List Choice}
    (hl : Offers left first) (hr : Offers right second) :
    Offers (left ++ right) (first ++ second) := by
  intro after
  rw [List.map_append]
  exact Yields.append hl hr after

theorem offers_quiet {tokens : List Token} (quiet : Token.word "CASE" ∉ tokens) :
    Offers tokens [] := by
  refine Yields.nothing fun token member rest => ?_
  rw [readChoices, if_neg]
  rintro rfl
  exact quiet member

theorem not_mem_commas {token : Token} {rows : List (List Token)}
    (solid : token ≠ .mark ',' ∧ token ≠ .blank) (absent : ∀ row ∈ rows, token ∉ row) :
    token ∉ commas rows := by
  intro member
  rcases mem_commas member with ⟨row, isRow, inRow⟩ | separator | separator
  · exact absent row isRow inRow
  · exact solid.1 separator
  · exact solid.2 separator

theorem not_mem_branchFor (holder field discriminant : String) (routes : List Route)
    {keyword routine : String}
    (other : keyword ∉ [routine, "WHEN", "IN", "THEN", "SELECT", "FROM", "AS", "text"])
    {more : List (List Token)} (quiet : ∀ row ∈ more, Token.word keyword ∉ row) :
    Token.word keyword ∉
      branchFor (column holder discriminant) (cast (column holder field) "text") routes routine
        more := by
  simp only [List.mem_cons, List.not_mem_nil, or_false, not_or] at other
  have literals :
      Token.word keyword ∉ commas ((routes.map (·.collection)).map fun name => [.literal name]) :=
    not_mem_commas (by simp) (by simp)
  have passed : Token.word keyword ∉
      commas (column holder discriminant :: cast (column holder field) "text" :: more) :=
    not_mem_commas (by simp) (by simpa [column, cast, other] using quiet)
  unfold branchFor
  split
  · simp
  · simp only [branch, parens, named, List.mem_append, List.mem_cons, literals, passed]
    simp [column, other]

def choiceBody (holder field discriminant : String) (targets : List Shape) : List Token :=
  significant (branchFor (column holder discriminant) (cast (column holder field) "text")
    (routes (targets.filter Shape.hasNested)) "resolve_row_with_nested"
    [cast [.literal (routeMap (routes (targets.filter Shape.hasNested)))] "json"]) ++
  significant (branchFor (column holder discriminant) (cast (column holder field) "text")
    (routes (targets.filter fun target => !target.hasNested)) "resolve_row" []) ++
  [.word "ELSE", .literal "\x7b\x7d", .mark ':', .mark ':', .word "json", .word "END",
    .word "AS", .name field]

section

variable (holder field discriminant : String) (targets : List Shape)

theorem significant_choice : significant (choiceColumn holder field discriminant (routes targets)) =
    .word "CASE" :: choiceBody holder field discriminant targets := by
  rw [significant_choiceColumn, filter_routes, filter_flat_routes, choiceBody]
  simp

theorem not_mem_choiceBody {keyword : String}
    (other : keyword ∉ ["resolve_row_with_nested", "resolve_row", "WHEN", "IN",
    "THEN", "SELECT", "FROM", "AS", "text", "json", "ELSE", "END"]) :
    Token.word keyword ∉ choiceBody holder field discriminant targets := by
  simp only [List.mem_cons, List.not_mem_nil, or_false, not_or] at other
  intro member
  rcases List.mem_append.mp member with branches | atEnd
  · rcases List.mem_append.mp branches with inNested | inFlat
    · refine not_mem_branchFor holder field discriminant _ ?_ ?_ (List.mem_filter.mp inNested).1
      · simp [other]
      · simp [cast, other]
    · refine not_mem_branchFor holder field discriminant _ ?_ ?_ (List.mem_filter.mp inFlat).1
      · simp [other]
      · simp
  · simp [other] at atEnd

theorem read_choiceBody (after : List Token) :
    Choice.read (choiceBody holder field discriminant targets ++ after) =
      some (choiceOf holder field discriminant targets) := by
  let closing : List Token :=
    [.word "ELSE", .literal "\x7b\x7d", .mark ':', .mark ':', .word "json", .word "END",
      .word "AS", .name field]
  have ends : ∀ limit ≥ 0, readBranches limit (closing ++ after) = some ([], closing ++ after) := by
    intro limit _
    cases limit <;> rfl
  -- the branches are read from the last one back, each before what is known of the rest
  have flat :=
    readBranches_branchFor holder field discriminant
      (targets.filter fun target => !target.hasNested)
    takes_nothing ends
  have both := readBranches_branchFor holder field discriminant (targets.filter Shape.hasNested)
    (takes_selects (targets.filter Shape.hasNested)) flat
  have enough : (choiceBody holder field discriminant targets ++ after).length ≥ 0 + 1 + 1 := by
    simp [choiceBody]
    omega
  have branches : readBranches (choiceBody holder field discriminant targets ++ after).length
      (choiceBody holder field discriminant targets ++ after) =
      some ((choiceOf holder field discriminant targets).branches, closing ++ after) := by
    have read := both _ enough
    rwa [← List.append_assoc, ← List.append_assoc, List.append_nil] at read
  rw [Choice.read, branches]
  simp [closing, cast, choiceOf]

theorem offers_choiceColumn :
    Offers (significant (choiceColumn holder field discriminant (routes targets)))
    [choiceOf holder field discriminant targets] := by
  intro after
  rw [significant_choice, List.cons_append, readChoices, if_pos rfl, read_choiceBody,
    offers_quiet (not_mem_choiceBody holder field discriminant targets (by decide)) after]
  rfl

end

theorem offers_within {before inside after : List Token} {offered : List Choice}
    (hb : Token.word "CASE" ∉ before) (h : Offers (significant inside) offered)
    (ha : Token.word "CASE" ∉ after) :
    Offers (significant (before ++ inside ++ after)) offered := by
  have quietBefore : Offers (significant before) [] :=
    offers_quiet fun member => hb (List.mem_filter.mp member).1
  have quietAfter : Offers (significant after) [] :=
    offers_quiet fun member => ha (List.mem_filter.mp member).1
  rw [significant_append, significant_append]
  simpa using (quietBefore.append h).append quietAfter

theorem offers_relationColumn (holder field : String) (link : Link) (target : String)
    {select : List Token} {offered : List Choice} (h : Offers (significant select) offered) :
    Offers (significant (relationColumn holder field link target select)) offered := by
  obtain ⟨before, after, split, words⟩ := relationColumn_around holder field link target select
  have quiet : Token.word "CASE" ∉ before ++ after :=
    fun member => absurd (words _ member) (by decide)
  rw [List.mem_append, not_or] at quiet
  rw [split]
  exact offers_within quiet.1 h quiet.2

mutual
/-- A select offers the choices of its shape, in order. -/
theorem offers_select : (shape : Shape) → Offers (significant (select shape)) (offered shape)
  | .mk collection fields => by
    have columns := offers_nestedColumns collection fields
    exact offers_within (by simp) columns (by simp)

theorem offers_nestedColumns (holder : String) : (fields : List Field) →
    Offers (significant (nestedColumns holder fields)) (offeredByFields holder fields)
  | [] => fun _ => rfl
  | .scalar _ :: rest => offers_nestedColumns holder rest
  | .relation name link target :: rest => by
    have column := offers_relationColumn holder name link target.collection (offers_select target)
    have others := offers_nestedColumns holder rest
    have separator : Offers (significant [.mark ',', .blank]) [] := fun _ => rfl
    rw [nestedColumns, significant_append, significant_append]
    exact (separator.append column).append others
  | .polymorphic name discriminant targets :: rest => by
    have column := offers_choiceColumn holder name discriminant targets
    have others := offers_nestedColumns holder rest
    have separator : Offers (significant [.mark ',', .blank]) [] := fun _ => rfl
    rw [nestedColumns, significant_append, significant_append]
    exact (separator.append column).append others
end

theorem mapM_id_some {α : Type} (list : List α) : (list.map some).mapM id = some list := by
  rw [List.mapM_map]
  exact (mapM_some fun _ _ => rfl).trans (congrArg some (List.map_id list))

/-- The choices in the text of a select are those of its shape. -/
theorem choices_compile (shape : Shape) : choices (compile shape) = some (offered shape) := by
  have found := offers_select shape []
  rw [List.append_nil, readChoices, List.append_nil] at found
  rw [choices, lex_compile, Option.bind_some, found, mapM_id_some]

/-! What the choice of a polymorphic field does with a name. -/

section

variable (holder field discriminant : String) (targets : List Shape)

theorem find?_branchOf (selects : Option (List (String × String))) (name : String) :
    (branchOf holder field discriminant targets selects).find?
        (fun branch => branch.listed.contains name) =
      if name ∈ targets.map Shape.collection then
        some ⟨(holder, discriminant), targets.map Shape.collection, (holder, field), selects⟩
      else none := by
  cases targets with
  | nil => rfl
  | cons target rest =>
    rw [branchOf, if_neg (by simp), List.find?_singleton]
    simp only [List.contains_iff_mem]

theorem listed_branchOf (selects : Option (List (String × String))) :
    (branchOf holder field discriminant targets selects).flatMap Branch.listed =
      targets.map Shape.collection := by
  cases targets with
  | nil => rfl
  | cons target rest => simp [branchOf]

theorem mem_branchOf {selects : Option (List (String × String))} {branch : Branch}
    (h : branch ∈ branchOf holder field discriminant targets selects) :
    branch = ⟨(holder, discriminant), targets.map Shape.collection, (holder, field), selects⟩ := by
  unfold branchOf at h
  split at h
  · cases h
  · exact List.mem_singleton.mp h

theorem filter_branchOf (selects : Option (List (String × String)))
    (property : Option (List (String × String)) → Bool) :
    (branchOf holder field discriminant targets selects).filter
        (fun branch => property branch.selects) =
      if property selects then branchOf holder field discriminant targets selects else [] := by
  cases targets with
  | nil => simp [branchOf]
  | cons target rest => simp [branchOf, List.filter_singleton]

theorem nested_choiceOf : (choiceOf holder field discriminant targets).nested =
    (targets.filter Shape.hasNested).map Shape.collection := by
  rw [Choice.nested, choiceOf, List.filter_append, filter_branchOf _ _ _ _ _ Option.isSome,
    filter_branchOf _ _ _ _ _ Option.isSome]
  simp [listed_branchOf]

theorem flat_choiceOf : (choiceOf holder field discriminant targets).flat =
    (targets.filter fun target => !target.hasNested).map Shape.collection := by
  rw [Choice.flat, choiceOf, List.filter_append, filter_branchOf _ _ _ _ _ Option.isNone,
    filter_branchOf _ _ _ _ _ Option.isNone]
  simp [listed_branchOf]

theorem mem_nested_choiceOf (name : String) :
    name ∈ (choiceOf holder field discriminant targets).nested ↔
    ∃ target ∈ targets, target.hasNested = true ∧ target.collection = name := by
  simp only [nested_choiceOf, List.mem_map, List.mem_filter, and_assoc]

theorem mem_flat_choiceOf (name : String) :
    name ∈ (choiceOf holder field discriminant targets).flat ↔
    ∃ target ∈ targets, target.hasNested = false ∧ target.collection = name := by
  simp only [flat_choiceOf, List.mem_map, List.mem_filter, Bool.not_eq_true', and_assoc]

theorem mem_choiceOf (name : String) : name ∈ (choiceOf holder field discriminant targets).nested ∨
    name ∈ (choiceOf holder field discriminant targets).flat ↔
      name ∈ targets.map Shape.collection := by
  rw [mem_nested_choiceOf, mem_flat_choiceOf, List.mem_map]
  constructor
  · rintro (⟨target, member, _, same⟩ | ⟨target, member, _, same⟩)
    · exact ⟨target, member, same⟩
    · exact ⟨target, member, same⟩
  · rintro ⟨target, member, same⟩
    cases nests : target.hasNested with
    | true => exact .inl ⟨target, member, nests, same⟩
    | false => exact .inr ⟨target, member, nests, same⟩

theorem mem_branches_choiceOf {branch : Branch}
    (h : branch ∈ (choiceOf holder field discriminant targets).branches) :
    branch.compared = (holder, discriminant) ∧ branch.item = (holder, field) ∧
      (branch.selects = none ∨
        branch.selects = some (selects (targets.filter Shape.hasNested)).entries) := by
  rcases List.mem_append.mp h with first | second
  · rw [mem_branchOf holder field discriminant _ first]
    exact ⟨rfl, rfl, .inr rfl⟩
  · rw [mem_branchOf holder field discriminant _ second]
    exact ⟨rfl, rfl, .inl rfl⟩

/-- A name falls to the first branch that is for it. -/
theorem taken_choiceOf (name : String) : (choiceOf holder field discriminant targets).taken name =
    if name ∈ (choiceOf holder field discriminant targets).nested
    then some ⟨(holder, discriminant), (choiceOf holder field discriminant targets).nested,
      (holder, field), some (selects (targets.filter Shape.hasNested)).entries⟩
    else if name ∈ (choiceOf holder field discriminant targets).flat
    then some ⟨(holder, discriminant), (choiceOf holder field discriminant targets).flat,
      (holder, field), none⟩
    else none := by
  rw [nested_choiceOf, flat_choiceOf, Choice.taken, choiceOf, List.find?_append,
    find?_branchOf, find?_branchOf]
  split
  · rfl
  · rfl

end

end Sql

end DocumentViews
