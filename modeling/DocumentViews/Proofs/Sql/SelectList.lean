import DocumentViews.Proofs.Sql.RowCalls
import Mathlib.Data.List.DropRight

/-! The lists of selects, read back from the text.
A list is what stands between the first keyword of a select and its source; its items are parted by
the commas outside of quotes and parentheses. In the text of a shape, the items of every select of
whole rows are all columns of the table, and then one column under the name of each nested field. -/
namespace DocumentViews

namespace Shape

mutual
/-- A shape and all that is joined to it outside of maps, in the order of their selects. -/
def selected : Shape → List Shape
  | .mk collection fields => .mk collection fields :: selectedByFields fields

def selectedByFields : List Field → List Shape
  | [] => []
  | .scalar _ :: rest => selectedByFields rest
  | .relation _ _ target :: rest => selected target ++ selectedByFields rest
  | .polymorphic _ _ _ :: rest => selectedByFields rest
end

end Shape

namespace Sql

def listItems (depth : Nat) (current : List Token) : List Token → Option (List (List Token))
  | [] => none
  | token :: rest =>
    if token = .mark '(' then listItems (depth + 1) (current ++ [token]) rest
    else if token = .mark ')' then
      if depth = 0 then none else listItems (depth - 1) (current ++ [token]) rest
    else if depth = 0 then
      if token = .word "FROM" then some [current]
      else if token = .mark ',' then (listItems 0 [] rest).map (current :: ·)
      else listItems 0 (current ++ [token]) rest
    else listItems depth (current ++ [token]) rest

def trimmed (tokens : List Token) : List Token :=
  (tokens.rdropWhile (· = .blank)).dropWhile (· = .blank)

def itemTexts (tokens : List Token) : Option (List String) :=
  (listItems 0 [] tokens).map fun items => (items.map trimmed).map text

def selectList (sql : String) : Option (List String) :=
  match Token.readAll sql.toList with
  | some (.word "SELECT" :: rest) => itemTexts rest
  | _ => none

def takesAll (tokens : List Token) : Bool :=
  match tokens.dropWhile (· = .blank) with
  | .name _ :: .mark '.' :: .mark '*' :: _ => true
  | _ => false

def readRowLists : List Token → List (Option (List String))
  | [] => []
  | token :: rest =>
    if token = .word "SELECT" ∧ takesAll rest then itemTexts rest :: readRowLists rest
    else readRowLists rest

/-- The lists of all selects of whole rows in a text, in order; none if there is one that
cannot be read. -/
def rowLists (sql : String) : Option (List (List String)) :=
  (Token.readAll sql.toList).bind fun tokens => (readRowLists tokens).mapM id

/-- The items take all columns of a table and one further column under each of some names,
in order. -/
def Lists (items : List String) (table : String) (names : List String) : Prop :=
  ∃ columns, items = (quoteName table ++ ".*") :: columns ∧
    List.Forall₂ (fun column name => ∃ value, column = value ++ " AS " ++ quoteName name)
      columns names

/-- Tokens that stay within the item that they stand in. -/
def Stays (tokens : List Token) : Prop :=
  ∀ current after, listItems 0 current (tokens ++ after) = listItems 0 (current ++ tokens) after

theorem listItems_inside {depth left : Nat} {tokens : List Token}
    (h : openAfter depth tokens = some left) (current after : List Token) :
    listItems (depth + 1) current (tokens ++ after) =
      listItems (left + 1) (current ++ tokens) after := by
  induction tokens generalizing depth current with
  | nil =>
    cases h
    rw [List.append_nil]
    rfl
  | cons token rest ih =>
    rw [openAfter] at h
    rw [List.cons_append, listItems, List.append_cons current token rest]
    split at h
    · rename_i opens
      rw [if_pos opens]
      exact ih h _
    · rename_i opens
      rw [if_neg opens]
      split at h
      · rename_i closes
        rw [if_pos closes, if_neg (by omega)]
        split at h
        · cases h
        · have shifted : depth + 1 - 1 = depth - 1 + 1 := by omega
          rw [shifted]
          exact ih h _
      · rename_i closes
        rw [if_neg closes, if_neg (by omega)]
        exact ih h _

namespace Stays

theorem append {left right : List Token} (hl : Stays left) (hr : Stays right) :
    Stays (left ++ right) := by
  intro current after
  rw [List.append_assoc, hl, hr, List.append_assoc]

theorem flat {tokens : List Token}
    (h : ∀ token ∈ tokens, token ≠ .mark '(' ∧ token ≠ .mark ')' ∧
      token ≠ .mark ',' ∧ token ≠ .word "FROM") :
    Stays tokens := by
  intro current after
  induction tokens generalizing current with
  | nil => rw [List.append_nil]; rfl
  | cons token rest ih =>
    obtain ⟨opens, closes, parts, ends⟩ := h token List.mem_cons_self
    rw [List.cons_append, listItems, if_neg opens, if_neg closes, if_pos rfl, if_neg ends,
      if_neg parts, ih (fun other member => h other (List.mem_cons_of_mem _ member)),
      List.append_cons current token rest]

theorem parens {inside : List Token} (h : Balanced inside) : Stays (parens inside) := by
  intro current after
  have opened : listItems 0 current (Sql.parens inside ++ after)
      = listItems 1 (current ++ [Token.mark '(']) (inside ++ Token.mark ')' :: after) := by
    simp [Sql.parens, listItems]
  rw [opened, listItems_inside (h 0)]
  simp [listItems, Sql.parens]

theorem column (table name : String) : Stays (column table name) := flat (by simp [Sql.column])

theorem cast {value : List Token} (h : Stays value) {type : String} (other : type ≠ "FROM") :
    Stays (cast value type) :=
  h.append (flat (by simp [other]))

theorem named {value : List Token} (h : Stays value) (name : String) : Stays (named value name) :=
  h.append (flat (by simp))

end Stays

theorem stays_relationColumn (holder field : String) (link : Link) (target : String)
    {select : List Token} (h : Balanced select) :
    Stays (relationColumn holder field link target select) :=
  (Stays.parens (balanced_joined holder field link target h)).named field

theorem stays_branchFor (holder field discriminant : String) (routes : List Route)
    (routine : String) {more : List (List Token)} (hm : ∀ argument ∈ more, Balanced argument) :
    Stays (branchFor (column holder discriminant)
      (cast (column holder field) "text") routes routine more) := by
  unfold branchFor
  split
  · exact .flat (by simp)
  have opening : Stays ([Token.blank, .word "WHEN", .blank] ++ column holder discriminant ++
      [Token.blank, .word "IN", .blank]) :=
    ((Stays.flat (by simp)).append (.column holder discriminant)).append (.flat (by simp))
  have arguments := List.forall_mem_cons.mpr ⟨Balanced.column holder discriminant,
    List.forall_mem_cons.mpr ⟨(Balanced.column holder field).cast "text", hm⟩⟩
  exact ((opening.append (.parens (balanced_literals _))).append (.flat (by simp))).append
    (.parens (balanced_lookup routine arguments))

theorem stays_choiceColumn (holder field discriminant : String) (routes : List Route) :
    Stays (choiceColumn holder field discriminant routes) := by
  have map : Balanced (cast [.literal (routeMap (routes.filter (·.nests)))] "json") :=
    .cast (.flat (by simp)) "json"
  have nested :=
    stays_branchFor holder field discriminant (routes.filter (·.nests)) "resolve_row_with_nested"
      (List.forall_mem_singleton.mpr map)
  have flat :=
    stays_branchFor holder field discriminant (routes.filter fun route => !route.nests)
      "resolve_row" (List.forall_mem_nil _)
  have opening : Stays [.word "CASE"] := .flat (by simp)
  have otherwise : Stays (cast [.literal "\x7b\x7d"] "json") := .cast (.flat (by simp)) (by decide)
  rw [choiceColumn, nestedBranch_eq, flatBranch_eq]
  exact (((((opening.append nested).append flat).append (.flat (by simp))).append otherwise).append
    (.flat (by simp))).named field

theorem stays_columnOf (holder : String) (field : Field) : Stays (columnOf holder field) := by
  cases field with
  | scalar name => exact .flat (by simp [columnOf])
  | relation name link target =>
    exact stays_relationColumn holder name link _ (balanced_select target)
  | polymorphic name discriminant targets => exact stays_choiceColumn holder name discriminant _

theorem columnOf_named {field : Field} (nests : field.isNested = true) (holder : String) :
    ∃ first value, columnOf holder field = named (first :: value) field.name ∧ first ≠ .blank := by
  cases field with
  | scalar name => cases nests
  | relation name link target => exact ⟨.mark '(', _, rfl, by simp⟩
  | polymorphic name discriminant targets => exact ⟨.word "CASE", _, rfl, by simp⟩

theorem trimmed_concat (tokens : List Token) : trimmed (tokens ++ [.blank]) = trimmed tokens := by
  rw [trimmed, List.rdropWhile_concat_pos _ _ _ (by simp), trimmed]

theorem trimmed_columnOf {field : Field} (nests : field.isNested = true) (holder : String) :
    trimmed (.blank :: columnOf holder field) = columnOf holder field := by
  obtain ⟨first, value, written, solid⟩ := columnOf_named nests holder
  have ends : Token.blank :: columnOf holder field
      = (.blank :: first :: value ++ [Token.blank, .word "AS", .blank]) ++ [.name field.name] := by
    rw [written]
    simp [named]
  rw [trimmed, ends, List.rdropWhile_concat_neg _ _ _ (by simp), ← ends, written]
  simp [named, solid]

theorem listItems_columns (holder : String) {fields : List Field}
    (nested : ∀ field ∈ fields, field.isNested = true) (current after : List Token) :
    (listItems 0 current ((fields.flatMap fun field => [Token.mark ',', .blank] ++
      columnOf holder field) ++ .blank :: .word "FROM" :: after)).map (List.map trimmed)
        = some (trimmed current :: fields.map (columnOf holder)) := by
  induction fields generalizing current with
  | nil => simp [listItems, trimmed_concat]
  | cons field rest ih =>
    have below := ih (fun other member => nested other (List.mem_cons_of_mem _ member)) ([.blank] ++
      columnOf holder field)
    have space : Stays [.blank] := .flat (by simp)
    have item := space.append (stays_columnOf holder field)
    rw [List.singleton_append, trimmed_columnOf (nested field List.mem_cons_self)] at below
    obtain ⟨items, read, same⟩ := Option.map_eq_some_iff.mp below
    -- a comma closes the item before it, and the column opens the next one
    have parted :
        listItems 0 current (((field :: rest).flatMap fun field => [Token.mark ',', .blank] ++
        columnOf holder field) ++ .blank :: .word "FROM" :: after) = some (current :: items) := by
      rw [List.flatMap_cons, List.append_assoc, List.append_assoc, List.cons_append, listItems]
      rw [if_neg (by simp), if_neg (by simp), if_pos rfl, if_neg (by simp), if_pos rfl,
        ← List.append_assoc, item]
      exact congrArg _ read
    rw [parted, Option.map_some, List.map_cons, same, List.map_cons]

def listOf (shape : Shape) : List String :=
  (quoteName shape.collection ++ ".*") ::
    (shape.fields.filter Field.isNested).map fun field => text (columnOf shape.collection field)

def selectTail (shape : Shape) : List Token :=
  [Token.blank, .name shape.collection, .mark '.', .mark '*'] ++
    nestedColumns shape.collection shape.fields ++
    [Token.blank, .word "FROM", .blank, .name shape.collection]

theorem select_eq (shape : Shape) : select shape = .word "SELECT" :: selectTail shape := by
  cases shape
  rfl

theorem text_name (name : String) : text [.name name] = quoteName name := by
  simp [text, Token.chars, quoteName]

theorem itemTexts_select (shape : Shape) (after : List Token) :
    itemTexts (selectTail shape ++ after) = some (listOf shape) := by
  let table : List Token := [.blank, .name shape.collection, .mark '.', .mark '*']
  have stays : Stays table := .flat (by simp [table])
  have nested : ∀ field ∈ shape.fields.filter Field.isNested, field.isNested = true :=
    fun field member => (List.mem_filter.mp member).2
  have items :=
    listItems_columns shape.collection nested table (.blank :: .name shape.collection :: after)
  obtain ⟨found, read, same⟩ := Option.map_eq_some_iff.mp items
  have written : selectTail shape ++ after = table ++
      (((shape.fields.filter Field.isNested).flatMap fun field =>
      [Token.mark ',', .blank] ++ columnOf shape.collection field) ++
        .blank :: .word "FROM" :: .blank :: .name shape.collection :: after) := by
    rw [selectTail, nestedColumns_eq]
    simp [table]
  have first : text (trimmed table) = quoteName shape.collection ++ ".*" := by
    have star : text [.mark '.', .mark '*'] = ".*" := by decide +kernel
    have cut : trimmed table = [Token.name shape.collection] ++ [Token.mark '.', .mark '*'] := rfl
    rw [cut, text_append, text_name, star]
  rw [itemTexts, written, stays, List.nil_append, read, Option.map_some, same,
    List.map_cons, first, List.map_map]
  rfl

theorem lists_listOf (shape : Shape) : Lists (listOf shape) shape.collection shape.nestedNames := by
  refine ⟨_, rfl, ?_⟩
  rw [Shape.nestedNames, List.forall₂_map_left_iff, List.forall₂_map_right_iff, List.forall₂_same]
  intro field member
  obtain ⟨first, value, written, _⟩ := columnOf_named (List.mem_filter.mp member).2 shape.collection
  refine ⟨text (first :: value), ?_⟩
  have given : text [.blank, .word "AS", .blank] = " AS " := by decide +kernel
  have parts : [Token.blank, .word "AS", .blank, .name field.name] =
      [Token.blank, .word "AS", .blank] ++ [Token.name field.name] := rfl
  rw [written, named, parts, text_append, text_append, given, text_name, String.append_assoc]

theorem intercalate_columns (holder first : String) (fields : List Field) :
    ", ".intercalate (first :: fields.map fun field => text (columnOf holder field))
      = first ++ text (fields.flatMap fun field => [Token.mark ',', .blank] ++
        columnOf holder field) := by
  induction fields generalizing first with
  | nil => simp [text]
  | cons field rest ih =>
    have comma : text [.mark ',', .blank] = ", " := by decide +kernel
    rw [List.map_cons, String.intercalate_cons_cons, ih, List.flatMap_cons,
      text_append, text_append, comma]
    simp only [String.append_assoc]

theorem compile_eq_listOf (shape : Shape) :
    compile shape = "SELECT " ++ ", ".intercalate (listOf shape) ++ " FROM " ++
      quoteName shape.collection := by
  have parts : select shape = [Token.word "SELECT", .blank] ++ [Token.name shape.collection] ++
      [Token.mark '.', .mark '*'] ++ nestedColumns shape.collection shape.fields ++
      [Token.blank, .word "FROM", .blank] ++ [Token.name shape.collection] := by
    rw [select_eq, selectTail]
    simp
  have opening : text [.word "SELECT", .blank] = "SELECT " := by decide +kernel
  have star : text [.mark '.', .mark '*'] = ".*" := by decide +kernel
  have source : text [.blank, .word "FROM", .blank] = " FROM " := by decide +kernel
  rw [compile, parts, listOf, intercalate_columns, nestedColumns_eq]
  simp only [text_append, text_name, opening, star, source, String.append_assoc]

theorem selectList_compile (shape : Shape) : selectList (compile shape) = some (listOf shape) := by
  have items := itemTexts_select shape []
  rw [List.append_nil] at items
  rw [selectList, compile, text, String.toList_ofList,
    Token.readAll_chars (legible_select shape), select_eq]
  exact items

/-! One chunk of tokens after the other. -/

/-- The selects of whole rows in a row of tokens are those of some shapes, whatever follows. -/
def ListsRows (tokens : List Token) (shapes : List Shape) : Prop :=
  Yields readRowLists tokens ((shapes.map listOf).map some)

namespace ListsRows

theorem append {left right : List Token} {first second : List Shape} (hl : ListsRows left first)
    (hr : ListsRows right second) : ListsRows (left ++ right) (first ++ second) := by
  rw [ListsRows, List.map_append, List.map_append]
  exact Yields.append hl hr

theorem quiet {tokens : List Token} (h : Token.word "SELECT" ∉ tokens) : ListsRows tokens [] := by
  refine Yields.nothing fun token member rest => ?_
  rw [readRowLists, if_neg]
  rintro ⟨rfl, _⟩
  exact h member

/-- A select that starts with a routine is not one of whole rows, and neither is one of a
single column. -/
theorem routine {name : String} (other : name ≠ "SELECT") :
    ListsRows [.word "SELECT", .blank, .word name] [] := by
  intro after
  simp [readRowLists, takesAll, other]

theorem single (name : String) : ListsRows [.word "SELECT", .blank, .name name, .blank] [] := by
  intro after
  simp [readRowLists, takesAll]

theorem within {before inside after : List Token} {shapes : List Shape} (hb : ListsRows before [])
    (h : ListsRows inside shapes) (ha : Token.word "SELECT" ∉ after) :
    ListsRows (before ++ inside ++ after) shapes := by
  have whole := (hb.append h).append (quiet ha)
  rwa [List.nil_append, List.append_nil] at whole

end ListsRows

theorem listsRows_relationColumn (holder field : String) (link : Link) (target : String)
    {select : List Token} {shapes : List Shape} (h : ListsRows select shapes) :
    ListsRows (relationColumn holder field link target select) shapes := by
  let rows := nestedName holder field
  let after : List Token :=
    [Token.blank, .word "WHERE", .blank] ++ joinCondition holder target link ++
      orderBy target link.sort ++
      [Token.mark ')', .blank, .word "AS", .blank, .name rows, .mark ')', .blank, .word "AS",
       .blank, .name field]
  have opening : ListsRows [.mark '('] [] := .quiet (by simp)
  have call : ListsRows [.mark '(', .name rows, .mark ')', .blank, .word "FROM", .blank, .mark '(']
      [] := .quiet (by simp)
  have other : aggregate link.kind ≠ "SELECT" := by cases link.kind <;> decide
  have before := (opening.append (.routine other)).append call
  have quiet : Token.word "SELECT" ∉ after := by
    cases sorted : link.sort <;> simp [after, joinCondition, column, orderBy, words, sorted]
  have split : relationColumn holder field link target select =
      [Token.mark '('] ++ [Token.word "SELECT", .blank, .word (aggregate link.kind)] ++
      [Token.mark '(', .name rows, .mark ')', .blank, .word "FROM", .blank, .mark '('] ++
      select ++ after := by
    simp [relationColumn, named, parens, after, rows]
  rw [split]
  exact before.within h quiet

theorem listsRows_branchFor (holder field discriminant : String) (routes : List Route)
    {routine : String} (other : routine ≠ "SELECT") {more : List (List Token)}
    (hm : ∀ argument ∈ more, Token.word "SELECT" ∉ argument) :
    ListsRows (branchFor (column holder discriminant)
      (cast (column holder field) "text") routes routine more) [] := by
  unfold branchFor
  split
  · exact .quiet (by simp)
  let collections := routes.map (·.collection)
  let arguments := column holder discriminant :: cast (column holder field) "text" :: more
  let before : List Token :=
    [Token.blank, .word "WHEN", .blank] ++ column holder discriminant ++
      [Token.blank, .word "IN", .blank] ++
      parens (commas (collections.map fun name => [.literal name])) ++
      [Token.blank, .word "THEN", .blank, .mark '(']
  let after : List Token :=
    [Token.word "FROM", .blank] ++ named (.word routine :: parens (commas arguments)) "resolved" ++
      [Token.mark ')']
  have literals : Token.word "SELECT" ∉ commas (collections.map fun name => [.literal name]) := by
    refine not_mem_commas (by simp) fun row member => ?_
    obtain ⟨name, _, rfl⟩ := List.mem_map.mp member
    simp
  have handed : Token.word "SELECT" ∉ commas arguments := by
    refine not_mem_commas (by simp) ?_
    simpa [arguments, column, cast] using hm
  have quietBefore : Token.word "SELECT" ∉ before := by
    simpa [before, column, parens] using literals
  have quietAfter : Token.word "SELECT" ∉ after := by
    simpa [after, named, parens, Ne.symm other] using handed
  have split : branch (column holder discriminant) collections routine arguments =
      before ++ [Token.word "SELECT", .blank, .name "resolved", .blank] ++ after := by
    simp [branch, named, parens, before, after]
  rw [split]
  exact (ListsRows.quiet quietBefore).within (.single "resolved") quietAfter

theorem listsRows_choiceColumn (holder field discriminant : String) (routes : List Route) :
    ListsRows (choiceColumn holder field discriminant routes) [] := by
  have map : ∀ argument ∈ [cast [.literal (routeMap (routes.filter (·.nests)))] "json"],
      Token.word "SELECT" ∉ argument := by
    simp [cast]
  have nested := listsRows_branchFor holder field discriminant (routes.filter (·.nests))
    (show "resolve_row_with_nested" ≠ "SELECT" by decide) map
  have flat :=
    listsRows_branchFor holder field discriminant (routes.filter fun route => !route.nests)
      (show "resolve_row" ≠ "SELECT" by decide) (List.forall_mem_nil _)
  have opening : ListsRows [.word "CASE"] [] := .quiet (by simp)
  have otherwise :
      ListsRows ([Token.blank, .word "ELSE", .blank] ++ cast [.literal "\x7b\x7d"] "json" ++
        [Token.blank, .word "END", .blank, .word "AS", .blank, .name field]) [] :=
    .quiet (by simp [cast])
  have split : choiceColumn holder field discriminant routes = [Token.word "CASE"] ++
      branchFor (column holder discriminant) (cast (column holder field) "text")
        (routes.filter (·.nests)) "resolve_row_with_nested"
        [cast [.literal (routeMap (routes.filter (·.nests)))] "json"] ++
      branchFor (column holder discriminant) (cast (column holder field) "text")
        (routes.filter fun route => !route.nests) "resolve_row" [] ++
      ([Token.blank, .word "ELSE", .blank] ++ cast [.literal "\x7b\x7d"] "json" ++
        [Token.blank, .word "END", .blank, .word "AS", .blank, .name field]) := by
    rw [choiceColumn, nestedBranch_eq, flatBranch_eq]
    simp [named]
  rw [split]
  exact ((opening.append nested).append flat).append otherwise

mutual
theorem listsRows_select : (shape : Shape) → ListsRows (select shape) shape.selected
  | .mk collection fields => by
    have star : ListsRows [.blank, .name collection, .mark '.', .mark '*'] [] := .quiet (by simp)
    have tail : ListsRows (selectTail (.mk collection fields)) (Shape.selectedByFields fields) :=
      star.within (listsRows_nestedColumns collection fields) (by simp)
    intro after
    have takes : takesAll (selectTail (.mk collection fields) ++ after) = true := by
      simp [selectTail, takesAll]
    rw [select_eq, List.cons_append, readRowLists, if_pos ⟨rfl, takes⟩, itemTexts_select, tail]
    rfl

theorem listsRows_nestedColumns (holder : String) : (fields : List Field) →
    ListsRows (nestedColumns holder fields) (Shape.selectedByFields fields)
  | [] => .quiet (by simp [nestedColumns])
  | .scalar _ :: rest => listsRows_nestedColumns holder rest
  | .relation name link target :: rest => by
    have separator : ListsRows [.mark ',', .blank] [] := .quiet (by simp)
    have column :=
      listsRows_relationColumn holder name link target.collection (listsRows_select target)
    exact (separator.append column).append (listsRows_nestedColumns holder rest)
  | .polymorphic name discriminant targets :: rest => by
    have separator : ListsRows [.mark ',', .blank] [] := .quiet (by simp)
    have column := listsRows_choiceColumn holder name discriminant (routes targets)
    exact (separator.append column).append (listsRows_nestedColumns holder rest)
end

/-- The selects of whole rows in the text of a shape are those of the shape and of what it joins. -/
theorem rowLists_compile (shape : Shape) :
    rowLists (compile shape) = some (shape.selected.map listOf) := by
  have found := listsRows_select shape []
  rw [List.append_nil, readRowLists, List.append_nil] at found
  rw [rowLists, compile, text, String.toList_ofList, Token.readAll_chars (legible_select shape),
    Option.bind_some, found, mapM_id_some]

/-- Every select of whole rows in a text lists all columns of its table, and then the nested fields
of the shape that it is for, at the shape itself and at all that it joins. -/
def ListsNested (sql : String) (shape : Shape) : Prop :=
  ∃ lists, rowLists sql = some lists ∧
    List.Forall₂ (fun items rows => Lists items rows.collection rows.nestedNames)
      lists shape.selected

theorem listsNested_compile (shape : Shape) : ListsNested (compile shape) shape := by
  refine ⟨_, rowLists_compile shape, ?_⟩
  rw [List.forall₂_map_left_iff, List.forall₂_same]
  intro rows _
  exact lists_listOf rows

theorem listsNested_decoded (shape : Shape) (depth : Nat) :
    ∃ texts, decoded depth (compile shape) = some texts ∧
      List.Forall₂ ListsNested texts (shape.mapped depth) := by
  refine ⟨_, decoded_compile depth shape, ?_⟩
  rw [List.forall₂_map_left_iff, List.forall₂_same]
  intro target _
  exact listsNested_compile target

end Sql

end DocumentViews
