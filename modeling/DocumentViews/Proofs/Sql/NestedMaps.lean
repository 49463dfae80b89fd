import DocumentViews.Proofs.Json.Text
import DocumentViews.Proofs.Sql.Compile

/-! Maps of selects are read back from the text of a select.
A routine call carries its map as JSON inside a literal, and the selects in the map carry further
maps in the same way. Reading goes the other way round: the tokens of the text, the third argument
of each call, the content of its literal, the members of the object. Done any number of times it
gives exactly the selects that stand so many maps deep. -/
namespace DocumentViews

namespace Shape

mutual
/-- The targets that nest further of each choice in a shape, outside of maps. Choices without such
targets are left out, for they hand no map over. -/
def choices : Shape → List (List Shape)
  | .mk _ fields => choicesOfFields fields

def choicesOfFields : List Field → List (List Shape)
  | [] => []
  | .scalar _ :: rest => choicesOfFields rest
  | .relation _ _ target :: rest => choices target ++ choicesOfFields rest
  | .polymorphic _ _ targets :: rest =>
    (if targets.any hasNested then [targets.filter hasNested] else []) ++ choicesOfFields rest
end

/-- The targets that stay in a map: of those with one collection the last, in the order of
the names. -/
def kept (targets : List Shape) : List Shape :=
  (NameMap.ofList (targets.map fun target => (target.collection, target))).entries.map (·.2)

/-- The targets that stand a number of maps deep. -/
def mapped : Nat → Shape → List Shape
  | 0, shape => [shape]
  | depth + 1, shape => shape.choices.flatMap fun targets => (kept targets).flatMap (mapped depth)

end Shape

namespace Sql

def arguments (depth : Nat) (current : List Token) : List Token → Option (List (List Token))
  | [] => none
  | token :: rest =>
    if token = .mark '(' then arguments (depth + 1) (current ++ [token]) rest
    else if token = .mark ')' then
      if depth = 0 then some [current] else arguments (depth - 1) (current ++ [token]) rest
    else if token = .mark ',' ∧ depth = 0 then (arguments 0 [] rest).map (current :: ·)
    else arguments depth (current ++ [token]) rest

def thirdArgument : List Token → Option (List Token)
  | .mark '(' :: inside => (arguments 0 [] inside).bind (·[2]?)
  | _ => none

/-- The third arguments of all calls of the routine that takes a map; none where there is no such
argument. -/
def thirdArguments : List Token → List (Option (List Token))
  | [] => []
  | token :: rest =>
    if token = .word "resolve_row_with_nested" then thirdArgument rest :: thirdArguments rest
    else thirdArguments rest

def jsonLiteral : List Token → Option String
  | .literal content :: rest => if rest = cast [] "json" then some content else none
  | _ => none

end Sql

def Json.texts? : Json → Option (List (String × String))
  | .object members => members.mapM fun member =>
    match member.2 with
    | .string text => some (member.1, text)
    | _ => none
  | _ => none

namespace Sql

def maps (sql : String) : Option (List (List (String × String))) :=
  (lex sql).bind fun tokens =>
    (thirdArguments tokens).mapM fun argument =>
      ((argument.bind jsonLiteral).bind Json.read).bind Json.texts?

/-- The selects that a text carries a number of maps deep. -/
def decoded : Nat → String → Option (List String)
  | 0, sql => some [sql]
  | depth + 1, sql =>
    (maps sql).bind fun found =>
      ((found.flatten.map (·.2)).mapM (decoded depth)).map List.flatten

def selects (targets : List Shape) : NameMap String :=
  .ofList (targets.map fun target => (target.collection, compile target))

theorem arguments_append {depth : Nat} {current tokens : List Token} {found : List (List Token)}
    (h : arguments depth current tokens = some found) (after : List Token) :
    arguments depth current (tokens ++ after) = some found := by
  induction tokens generalizing depth current found with
  | nil => cases h
  | cons token rest ih =>
    rw [arguments] at h
    rw [List.cons_append, arguments]
    split at h
    · rename_i opens
      rw [if_pos opens]
      exact ih h
    · rename_i opens
      rw [if_neg opens]
      split at h
      · rename_i closes
        rw [if_pos closes]
        split at h
        · rename_i outermost
          rw [if_pos outermost]
          exact h
        · rename_i inner
          rw [if_neg inner]
          exact ih h
      · rename_i closes
        rw [if_neg closes]
        split at h
        · rename_i separates
          rw [if_pos separates]
          obtain ⟨others, read, rfl⟩ := Option.map_eq_some_iff.mp h
          rw [ih read]
          rfl
        · rename_i separates
          rw [if_neg separates]
          exact ih h

theorem thirdArgument_append {tokens argument : List Token}
    (h : thirdArgument tokens = some argument) (after : List Token) :
    thirdArgument (tokens ++ after) = some argument := by
  unfold thirdArgument at h
  split at h
  · rename_i inside
    obtain ⟨found, read, third⟩ := Option.bind_eq_some_iff.mp h
    rw [List.cons_append, thirdArgument, arguments_append read after]
    exact third
  · cases h

/-- The calls of a row of tokens hand over these arguments, and all of them are complete. -/
def Hands (tokens : List Token) (handed : List (List Token)) : Prop :=
  thirdArguments tokens = handed.map some

theorem Hands.append {left right : List Token} {first second : List (List Token)}
    (hl : Hands left first) (hr : Hands right second) :
    Hands (left ++ right) (first ++ second) := by
  unfold Hands at *
  rw [List.map_append, ← hr]
  induction left generalizing first with
  | nil =>
    rw [← hl]
    rfl
  | cons token rest ih =>
    rw [thirdArguments] at hl
    rw [List.cons_append, thirdArguments]
    split at hl
    · rename_i calls
      rw [if_pos calls]
      cases first with
      | nil => cases hl
      | cons argument others =>
        obtain ⟨here, below⟩ := List.cons.inj hl
        rw [thirdArgument_append here, ih below]
        rfl
    · rename_i calls
      rw [if_neg calls]
      exact ih hl

theorem hands_quiet {tokens : List Token} (quiet : Token.word "resolve_row_with_nested" ∉ tokens) :
    Hands (significant tokens) [] := by
  have stripped : Token.word "resolve_row_with_nested" ∉ significant tokens :=
    fun member => quiet (List.mem_filter.mp member).1
  generalize significant tokens = kept at stripped
  induction kept with
  | nil => rfl
  | cons token rest ih =>
    have other : token ≠ .word "resolve_row_with_nested" :=
      fun same => stripped (same ▸ List.mem_cons_self)
    show thirdArguments (token :: rest) = _
    rw [thirdArguments, if_neg other]
    exact ih fun member => stripped (List.mem_cons_of_mem _ member)

theorem hands_within {before inside after : List Token} {handed : List (List Token)}
    (hb : Token.word "resolve_row_with_nested" ∉ before) (h : Hands (significant inside) handed)
    (ha : Token.word "resolve_row_with_nested" ∉ after) :
    Hands (significant (before ++ inside ++ after)) handed := by
  have whole := ((hands_quiet hb).append h).append (hands_quiet ha)
  simpa [significant, List.filter_append] using whole

theorem hands_append {left right : List Token} {first second : List (List Token)}
    (hl : Hands (significant left) first) (hr : Hands (significant right) second) :
    Hands (significant (left ++ right)) (first ++ second) := by
  rw [significant, List.filter_append]
  exact hl.append hr

theorem mem_commas {token : Token} {rows : List (List Token)} (member : token ∈ commas rows) :
    (∃ row ∈ rows, token ∈ row) ∨ token = .mark ',' ∨ token = .blank := by
  induction rows with
  | nil => cases member
  | cons row rest ih =>
    cases rest with
    | nil => exact .inl ⟨row, List.mem_cons_self, member⟩
    | cons next others =>
      simp only [commas, List.mem_append, List.mem_cons, List.not_mem_nil, or_false] at member
      rcases member with (here | separator) | there
      · exact .inl ⟨row, List.mem_cons_self, here⟩
      · exact .inr separator
      · refine (ih there).imp_left ?_
        rintro ⟨found, isRow, inRow⟩
        exact ⟨found, List.mem_cons_of_mem _ isRow, inRow⟩

theorem quiet_literals (collections : List String) :
    Token.word "resolve_row_with_nested" ∉
      commas (collections.map fun name => [.literal name]) := by
  intro member
  rcases mem_commas member with ⟨row, isRow, inRow⟩ | separator | separator
  · obtain ⟨name, _, rfl⟩ := List.mem_map.mp isRow
    cases List.mem_singleton.mp inRow
  · cases separator
  · cases separator

theorem relationColumn_around (holder field : String) (link : Link) (target : String)
    (select : List Token) :
    ∃ before after, relationColumn holder field link target select = before ++ select ++ after ∧
      ∀ word, .word word ∈ before ++ after →
        word ∈ ["SELECT", "row_to_json", "json_agg", "FROM", "WHERE", "ORDER", "BY", "AS"] := by
  let rows := nestedName holder field
  let before : List Token :=
    [.mark '(', .word "SELECT", .blank, .word (aggregate link.kind), .mark '(', .name rows,
     .mark ')', .blank, .word "FROM", .blank, .mark '(']
  let after : List Token :=
    [Token.blank, .word "WHERE", .blank] ++ joinCondition holder target link ++
      orderBy target link.sort ++
      [Token.mark ')', .blank, .word "AS", .blank, .name rows, .mark ')', .blank, .word "AS",
       .blank, .name field]
  refine ⟨before, after, by simp [relationColumn, named, parens, before, after, rows], ?_⟩
  intro word member
  have known : word = "SELECT" ∨ word = aggregate link.kind ∨ word = "FROM" ∨ word = "WHERE" ∨
      word = "ORDER" ∨ word = "BY" ∨ word = "AS" := by
    cases sorted : link.sort <;> simp [before, after, joinCondition, column,
      orderBy, words, sorted] at member <;> tauto
  rcases known with rfl | rfl | rfl | rfl | rfl | rfl | rfl
  case inr.inl => cases link.kind <;> simp [aggregate]
  all_goals simp

theorem hands_relationColumn (holder field : String) (link : Link) (target : String)
    {select : List Token} {handed : List (List Token)} (h : Hands (significant select) handed) :
    Hands (significant (relationColumn holder field link target select)) handed := by
  obtain ⟨before, after, split, words⟩ := relationColumn_around holder field link target select
  have quiet : Token.word "resolve_row_with_nested" ∉ before ++ after :=
    fun member => absurd (words _ member) (by decide)
  rw [List.mem_append, not_or] at quiet
  rw [split]
  exact hands_within quiet.1 h quiet.2

theorem hands_nestedBranch (holder field discriminant : String) {routes : List Route}
    (some : routes ≠ []) :
    Hands
      (significant (nestedBranch (column holder discriminant) (cast (column holder field) "text")
        routes))
      [cast [.literal (routeMap routes)] "json"] := by
  obtain ⟨route, rest, rfl⟩ := List.exists_cons_of_ne_nil some
  let call : List Token := .word "resolve_row_with_nested" :: parens (commas
    [column holder discriminant, cast (column holder field) "text",
      cast [.literal (routeMap (route :: rest))] "json"])
  let before : List Token := [Token.blank, .word "WHEN", .blank] ++ column holder discriminant ++
    [Token.blank, .word "IN", .blank] ++
    parens (commas (((route :: rest).map (·.collection)).map fun name => [.literal name])) ++
    [Token.blank, .word "THEN", .blank, .mark '(', .word "SELECT", .blank, .name "resolved", .blank,
    .word "FROM", .blank]
  let after : List Token := [.blank, .word "AS", .blank, .name "resolved", .mark ')']
  have split : nestedBranch (column holder discriminant) (cast (column holder field) "text")
      (route :: rest) = before ++ call ++ after := by
    simp [nestedBranch, branch, named, parens, before, call, after]
  have handed : Hands (significant call) [cast [.literal (routeMap (route :: rest))] "json"] := by
    simp [call, Hands, significant, parens, commas, column, cast, thirdArguments,
      thirdArgument, arguments]
  have literals := quiet_literals ((route :: rest).map (·.collection))
  have quietBefore : Token.word "resolve_row_with_nested" ∉ before := by
    simpa [before, column, parens] using literals
  rw [split]
  exact hands_within quietBefore handed (by simp [after])

theorem quiet_flatBranch (holder field discriminant : String) (routes : List Route) :
    Token.word "resolve_row_with_nested" ∉
      flatBranch (column holder discriminant) (cast (column holder field) "text") routes := by
  cases routes with
  | nil => simp [flatBranch]
  | cons route rest =>
    have literals := quiet_literals ((route :: rest).map (·.collection))
    simpa [flatBranch, branch, column, parens, cast, named, commas] using literals

/-- A choice hands over one map if it has targets that nest further, and none else. -/
theorem hands_choiceColumn (holder field discriminant : String) (routes : List Route) :
    Hands (significant (choiceColumn holder field discriminant routes))
      (if routes.any (·.nests) then [cast [.literal (routeMap (routes.filter (·.nests)))] "json"]
        else []) := by
  let chosen := column holder discriminant
  let item := cast (column holder field) "text"
  let after : List Token := flatBranch chosen item (routes.filter fun route => !route.nests) ++
    [Token.blank, .word "ELSE", .blank] ++ cast [.literal "\x7b\x7d"] "json" ++
    [Token.blank, .word "END", .blank, .word "AS", .blank, .name field]
  have split : choiceColumn holder field discriminant routes =
      [Token.word "CASE"] ++ nestedBranch chosen item (routes.filter (·.nests)) ++ after := by
    simp [choiceColumn, named, after, chosen, item]
  have quietAfter : Token.word "resolve_row_with_nested" ∉ after := by
    have flat :=
      quiet_flatBranch holder field discriminant (routes.filter fun route => !route.nests)
    simp only [after, List.mem_append, not_or]
    exact ⟨⟨⟨flat, by simp⟩, by simp [cast]⟩, by simp⟩
  have handed : Hands (significant (nestedBranch chosen item (routes.filter (·.nests))))
      (if routes.any (·.nests) then [cast [.literal (routeMap (routes.filter (·.nests)))] "json"]
        else []) := by
    split
    · rename_i nests
      apply hands_nestedBranch
      simpa using nests
    · rename_i flat
      have empty : routes.filter (·.nests) = [] := by simpa using flat
      rw [empty]
      rfl
  rw [split]
  exact hands_within (by simp) handed quietAfter

theorem any_routes (targets : List Shape) :
    (routes targets).any (·.nests) = targets.any Shape.hasNested := by
  rw [routes_eq, List.any_map]
  rfl

mutual
/-- The calls of a select hand over the maps of its choices, in order. -/
theorem hands_select : (shape : Shape) → Hands (significant (select shape))
    (shape.choices.map fun targets => cast [.literal (routeMap (routes targets))] "json")
  | .mk collection fields => by
    have columns := hands_nestedColumns collection fields
    exact hands_within (by simp) columns (by simp)

theorem hands_nestedColumns (holder : String) :
    (fields : List Field) → Hands (significant (nestedColumns holder fields))
      ((Shape.choicesOfFields fields).map fun targets =>
        cast [.literal (routeMap (routes targets))] "json")
  | [] => rfl
  | .scalar _ :: rest => hands_nestedColumns holder rest
  | .relation name link target :: rest => by
    have column := hands_relationColumn holder name link target.collection (hands_select target)
    have others := hands_nestedColumns holder rest
    have separator : Hands (significant [.mark ',', .blank]) [] := rfl
    rw [Shape.choicesOfFields, List.map_append]
    exact hands_append (hands_append separator column) others
  | .polymorphic name discriminant targets :: rest => by
    have column := hands_choiceColumn holder name discriminant (routes targets)
    have others := hands_nestedColumns holder rest
    have separator : Hands (significant [.mark ',', .blank]) [] := rfl
    rw [any_routes, filter_routes] at column
    rw [Shape.choicesOfFields, List.map_append, apply_ite (List.map _)]
    exact hands_append (hands_append separator column) others
end

theorem entries_selects (targets : List Shape) :
    (selects targets).entries =
      (NameMap.ofList (targets.map fun target => (target.collection, target))).entries.map
        fun entry => (entry.1, compile entry.2) := by
  have moved :=
    NameMap.entries_ofList_map compile (targets.map fun target => (target.collection, target))
  rw [List.map_map] at moved
  exact moved

theorem routeMap_eq (targets : List Shape) :
    routeMap (routes targets) =
      (Json.object (Json.textMembers (selects targets).entries)).compact := by
  have moved :=
    NameMap.entries_ofList_map Json.string (targets.map fun target =>
      (target.collection, compile target))
  have written : (NameMap.ofList ((routes targets).map fun route =>
      (route.collection, Json.string (text route.select)))).entries =
        Json.textMembers (selects targets).entries := by
    rw [routes_eq, List.map_map]
    rw [List.map_map] at moved
    exact moved
  rw [routeMap, written]

/-- What the writer of maps writes is read as the selects of the targets. -/
theorem read_routeMap (targets : List Shape) :
    Json.read (routeMap (routes targets)) =
      some (.object (Json.textMembers (selects targets).entries)) := by
  rw [routeMap_eq]
  exact Json.read_texts (selects targets)

theorem mapM_some {α β : Type} {f : α → Option β} {g : α → β} {list : List α}
    (h : ∀ item ∈ list, f item = some (g item)) :
    list.mapM f = some (list.map g) := by
  induction list with
  | nil => rfl
  | cons item rest ih =>
    have here := h item List.mem_cons_self
    have below := ih fun other member => h other (List.mem_cons_of_mem _ member)
    simp [List.mapM_cons, here, below]

theorem texts?_textMembers (texts : List (String × String)) :
    Json.texts? (.object (Json.textMembers texts)) = some texts := by
  rw [Json.texts?, Json.textMembers, List.mapM_map]
  exact (mapM_some fun _ _ => rfl).trans (congrArg some (List.map_id texts))

/-- The maps in the text of a select are the selects of its choices, in order. -/
theorem maps_compile (shape : Shape) :
    maps (compile shape) = some (shape.choices.map fun targets => (selects targets).entries) := by
  have handed := hands_select shape
  rw [maps, lex_compile, Option.bind_some]
  rw [Hands, List.map_map] at handed
  rw [handed, List.mapM_map]
  refine mapM_some fun targets _ => ?_
  have content : jsonLiteral (cast [.literal (routeMap (routes targets))] "json") =
      some (routeMap (routes targets)) := rfl
  simp only [Function.comp, Option.bind_some, content, read_routeMap, texts?_textMembers]

/-- Reading any number of maps deep gives the selects that stand there, unchanged. -/
theorem decoded_compile (depth : Nat) (shape : Shape) :
    decoded depth (compile shape) = some ((shape.mapped depth).map compile) := by
  induction depth generalizing shape with
  | zero => rfl
  | succ depth ih =>
    have values : ((shape.choices.map fun targets => (selects targets).entries).flatten.map (·.2)) =
        (shape.choices.flatMap Shape.kept).map compile := by
      simp only [entries_selects, Shape.kept, ← List.flatMap_def, List.map_flatMap,
        List.map_map, Function.comp_def]
    have each : ((shape.choices.flatMap Shape.kept).map compile).mapM (decoded depth) =
        some ((shape.choices.flatMap Shape.kept).map fun target =>
          (target.mapped depth).map compile) := by
      rw [List.mapM_map]
      exact mapM_some fun target _ => ih target
    rw [decoded, maps_compile, Option.bind_some, values, each, Option.map_some, Shape.mapped,
      ← List.flatMap_def, List.flatMap_assoc]
    simp only [List.map_flatMap]

theorem hands_choice (holder field discriminant : String) {targets : List Shape}
    (nests : targets.any Shape.hasNested = true) :
    Hands (significant (choiceColumn holder field discriminant (routes targets)))
      [cast [.literal (routeMap (routes (targets.filter Shape.hasNested)))] "json"] := by
  have handed := hands_choiceColumn holder field discriminant (routes targets)
  rw [any_routes, if_pos nests, filter_routes] at handed
  exact handed

theorem get?_selects (targets : List Shape) (collection : String) :
    (selects targets).get? collection =
      (targets.reverse.find? fun target => target.collection = collection).map
        fun last => compile (.mk collection last.fields) := by
  rw [selects, NameMap.get?_ofList, ← List.map_reverse, List.find?_map, Option.map_map]
  refine Option.map_congr fun last found => ?_
  have chosen := List.find?_some found
  have same : last.collection = collection := of_decide_eq_true chosen
  cases last with
  | mk name fields => exact congrArg (fun name => compile (.mk name fields)) same

theorem mem_keys_selects (targets : List Shape) (collection : String) :
    collection ∈ (selects targets).keys ↔ ∃ target ∈ targets, target.collection = collection := by
  rw [NameMap.mem_keys_iff, get?_selects, Option.isSome_map, List.find?_isSome]
  simp

/-- The column of every choice with targets that nest further hands over one literal, which is JSON
for the selects of these targets by their collections; and reading a select any number of maps deep
gives the selects that stand so deep. -/
theorem nested_maps_read_back (shape : Shape) :
    (∀ (holder field discriminant : String) (targets : List Shape),
      targets.any Shape.hasNested = true →
      ∃ (tokens : List Token) (content : String) (map : NameMap String),
        lex (text (choiceColumn holder field discriminant (routes targets))) = some tokens ∧
        thirdArguments tokens = [some (cast [.literal content] "json")] ∧
        Json.read content = some (.object (Json.textMembers map.entries)) ∧
        (∀ collection, collection ∈ map.keys ↔
          ∃ target ∈ targets, target.hasNested = true ∧ target.collection = collection) ∧
        ∀ collection, map.get? collection =
          ((targets.filter Shape.hasNested).reverse.find? fun target =>
            target.collection = collection).map
            fun last => compile (.mk collection last.fields)) ∧
    ∀ depth, decoded depth (compile shape) = some ((shape.mapped depth).map compile) := by
  refine ⟨?_, fun depth => decoded_compile depth shape⟩
  intro holder field discriminant targets nests
  have read := lex_text (legible_choiceColumn holder field discriminant (routes targets))
  have handed := hands_choice holder field discriminant nests
  refine ⟨_, routeMap (routes (targets.filter Shape.hasNested)),
    selects (targets.filter Shape.hasNested), read, handed, read_routeMap _, ?_, get?_selects _⟩
  intro collection
  rw [mem_keys_selects]
  simp only [List.mem_filter, and_assoc]

/-- Two targets of one collection and a further choice below, all under names full of quotes. -/
theorem nested_maps_read_back_hostile :
    let leaf : Shape := .mk "l\"ea'f" [.polymorphic "x'" "k\\" [.mk "p" [.scalar "id"]]]
    let first : Shape := .mk "o'b\\j\"" [.polymorphic "f\n" "d'" [leaf]]
    let last : Shape :=
      .mk "o'b\\j\"" [.relation "r'" ⟨.oneToMany, ⟨"t", "c\"", "k'"⟩, some "s"⟩ first]
    let shape : Shape := .mk "ro'ot" [.polymorphic "it\"em" "co'll" [first, .mk "flat" [], last]]
    ([first, .mk "flat" [], last].any Shape.hasNested = true ∧
      ∃ (tokens : List Token) (content : String) (map : NameMap String),
        lex (text (choiceColumn "ro'ot" "it\"em" "co'll" (routes [first, .mk "flat" [], last]))) =
        some tokens ∧ thirdArguments tokens = [some (cast [.literal content] "json")] ∧
        Json.read content = some (.object (Json.textMembers map.entries)) ∧
        map.get? "o'b\\j\"" = some (compile last)) ∧
    decoded 2 (compile shape) = some ((shape.mapped 2).map compile) ∧ shape.mapped 2 = [leaf] := by
  intro leaf first last shape
  have both := nested_maps_read_back shape
  obtain ⟨tokens, content, map, read, handed, object, _, selected⟩ :=
    both.1 "ro'ot" "it\"em" "co'll" [first, .mk "flat" [], last] rfl
  refine ⟨⟨rfl, tokens, content, map, read, handed, object, selected _⟩, both.2 2, ?_⟩
  simp [shape, first, last, leaf, Shape.mapped, Shape.choices, Shape.choicesOfFields, Shape.kept,
    Shape.hasNested, Shape.fields, Shape.collection, Field.isNested, NameMap.ofList, NameMap.insert,
    NameMap.insertEntry, NameMap.empty]

end Sql

end DocumentViews
