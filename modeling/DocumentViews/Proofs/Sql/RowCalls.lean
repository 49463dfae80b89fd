import DocumentViews.Proofs.Sql.Routing
import DocumentViews.View.Lifecycle

/-! Calls on whole rows.
A routine that makes JSON of rows is handed the name of a source in parentheses. A database takes
such a name for a column of the source if there is one, and for the whole row only else, so the
reader notes with each call which columns its source has: all those of a table, and further ones
under given names. In the statement that creates a view, one call is on the rows of the shape
itself, and one stands in every column of joined rows. -/
namespace DocumentViews.Sql

/-- A call on rows: the name that it is handed, the name of the source next to it, the table all of
whose columns the source has, and the names of its further columns. -/
structure RowCall where
  argument : String
  source : String
  table : String
  given : List String
deriving DecidableEq

def givenNames (depth : Nat) : List Token → List String
  | [] => []
  | token :: rest =>
    if token = .mark '(' then givenNames (depth + 1) rest
    else if token = .mark ')' then if depth = 0 then [] else givenNames (depth - 1) rest
    else if depth = 0 then
      if token = .word "FROM" then [] else (renamed (token :: rest)).toList ++ givenNames 0 rest
    else givenNames depth rest

/-- A call on rows, from what follows the name of its routine. Its select lists nothing else, and
its source is a select in parentheses with all columns of the table that it is from. -/
def RowCall.read : List Token → Option RowCall
  | .mark '(' :: .name argument :: .mark ')' :: rest => do
    let known ← Sql.source rest
    let list ← skip [.word "FROM", .mark '(', .word "SELECT"] rest
    match list with
    | .name table :: .mark '.' :: .mark '*' :: _ =>
      if Sql.source list = some table then some ⟨argument, known, table, givenNames 0 list⟩
      else none
    | _ => none
  | _ => none

def Token.takesRows : Token → Bool
  | .word routine => ["row_to_json", "json_agg"].contains routine
  | _ => false

def readRowCalls : List Token → List (Option RowCall)
  | [] => []
  | token :: rest =>
    if token.takesRows then RowCall.read rest :: readRowCalls rest else readRowCalls rest

/-- The calls on rows in a text, in order; none if there is one that cannot be read. -/
def rowCalls (sql : String) : Option (List RowCall) :=
  (lex sql).bind fun tokens => (readRowCalls tokens).mapM id

def RowCall.on (name : String) (rows : Shape) : RowCall :=
  ⟨name, name, rows.collection, rows.nestedNames⟩

mutual
def rowsCalled : Shape → List RowCall
  | .mk collection fields => rowsCalledByFields collection fields

def rowsCalledByFields (holder : String) : List Field → List RowCall
  | [] => []
  | .scalar _ :: rest => rowsCalledByFields holder rest
  | .relation name _ target :: rest =>
    .on (nestedName holder name) target :: (rowsCalled target ++ rowsCalledByFields holder rest)
  | .polymorphic _ _ _ :: rest => rowsCalledByFields holder rest
end

theorem rowsCalledByFields_eq (holder : String) (fields : List Field) :
    rowsCalledByFields holder fields = fields.flatMap fun field =>
      match field with
      | .relation name _ target => .on (nestedName holder name) target :: rowsCalled target
      | _ => [] := by
  induction fields with
  | nil => rfl
  | cons field rest ih => cases field <;> simp [rowsCalledByFields, ih]

theorem rowsCalled_eq (shape : Shape) :
    rowsCalled shape = rowsCalledByFields shape.collection shape.fields := by
  cases shape
  rfl

/-! The names that a select gives. -/

theorem givenNames_inside {depth left : Nat} {tokens : List Token}
    (h : openAfter depth tokens = some left) (after : List Token) :
    givenNames (depth + 1) (tokens ++ after) = givenNames (left + 1) after := by
  induction tokens generalizing depth with
  | nil =>
    cases h
    rfl
  | cons token rest ih =>
    rw [openAfter] at h
    rw [List.cons_append, givenNames]
    split at h
    · rename_i opens
      rw [if_pos opens]
      exact ih h
    · rename_i opens
      rw [if_neg opens]
      split at h
      · rename_i closes
        rw [if_pos closes, if_neg (by omega)]
        split at h
        · cases h
        · have shifted : depth + 1 - 1 = depth - 1 + 1 := by omega
          rw [shifted]
          exact ih h
      · rename_i closes
        rw [if_neg closes, if_neg (by omega)]
        exact ih h

theorem renamed_eq_none {token : Token} {rest : List Token} (h : token ≠ .word "AS") :
    renamed (token :: rest) = none := by
  unfold renamed
  split
  · rename_i same
    cases same
    exact if_neg fun same => h (congrArg Token.word same)
  · rfl

def Gives (tokens : List Token) (names : List String) : Prop := Yields (givenNames 0) tokens names

namespace Gives

theorem append {left right : List Token} {first second : List String} (hl : Gives left first)
    (hr : Gives right second) :
    Gives (left ++ right) (first ++ second) :=
  Yields.append hl hr

theorem flat {tokens : List Token}
    (h : ∀ token ∈ tokens, token ≠ .mark '(' ∧ token ≠ .mark ')' ∧
      token ≠ .word "FROM" ∧ token ≠ .word "AS") :
    Gives tokens [] := by
  refine Yields.nothing fun token member rest => ?_
  obtain ⟨opens, closes, ends, gives⟩ := h token member
  rw [givenNames, if_neg opens, if_neg closes, if_pos rfl, if_neg ends, renamed_eq_none gives]
  rfl

theorem parens {inside : List Token} (h : Balanced inside) : Gives (parens inside) [] := by
  intro after
  have opened : givenNames 0 (Sql.parens inside ++ after) =
      givenNames 1 (inside ++ Token.mark ')' :: after) := by
    simp [Sql.parens, givenNames]
  rw [opened, givenNames_inside (h 0)]
  simp [givenNames]

theorem name (name : String) : Gives [.word "AS", .name name] [name] := by
  intro after
  simp [givenNames, renamed]

end Gives

theorem gives_relationColumn (holder field : String) (link : Link) (target : String)
    {select : List Token} (h : Balanced select) :
    Gives (significant (relationColumn holder field link target select)) [field] := by
  have name : Balanced [.word (aggregate link.kind)] := .flat (by simp)
  have argument : Balanced [.name (nestedName holder field)] := .flat (by simp)
  have rows := (balanced_joinedRows holder target link h).parens
  rw [significant_relationColumn]
  exact (Gives.parens (balanced_derived (name.append argument.parens) rows _)).append (.name field)

theorem gives_branchFor (holder field discriminant : String) (routes : List Route)
    (routine : String) {more : List (List Token)} (hm : ∀ argument ∈ more, Balanced argument) :
    Gives (significant (branchFor (column holder discriminant) (cast (column holder field) "text")
      routes routine more)) [] := by
  unfold branchFor
  split
  · exact Yields.nil
  have literals := (balanced_literals (routes.map (·.collection))).significant
  have name : Balanced [.word routine] := .flat (by simp)
  have call := name.append (balanced_arguments holder field discriminant hm).significant.parens
  have opening :
      Gives ([Token.word "WHEN"] ++ significant (column holder discriminant) ++ [Token.word "IN"])
      [] :=
    .flat (by simp [column, significant])
  have then_ : Gives [Token.word "THEN"] [] := .flat (by simp)
  rw [significant_branch]
  exact ((opening.append (.parens literals)).append then_).append
    (.parens (balanced_derived (.flat (by simp)) call "resolved"))

theorem gives_choiceColumn (holder field discriminant : String) (targets : List Shape) :
    Gives (significant (choiceColumn holder field discriminant (routes targets))) [field] := by
  have map : Balanced (cast [.literal (routeMap ((routes targets).filter (·.nests)))] "json") :=
    .cast (.flat (by simp)) "json"
  have case_ : Gives [Token.word "CASE"] [] := .flat (by simp)
  have nested :=
    gives_branchFor holder field discriminant ((routes targets).filter (·.nests))
      "resolve_row_with_nested" (List.forall_mem_singleton.mpr map)
  have flat :=
    gives_branchFor holder field discriminant ((routes targets).filter fun route => !route.nests)
      "resolve_row" (List.forall_mem_nil _)
  have otherwise : Gives [Token.word "ELSE", .literal "\x7b\x7d", .mark ':', .mark ':',
      .word "json", .word "END"] [] :=
    .flat (by simp)
  rw [significant_choiceColumn]
  exact ((case_.append nested).append flat).append (otherwise.append (.name field))

theorem gives_nestedColumns (holder : String) (fields : List Field) :
    Gives (significant (nestedColumns holder fields))
      ((fields.filter Field.isNested).map Field.name) := by
  induction fields with
  | nil => exact Yields.nil
  | cons field rest ih =>
    have separator : Gives (significant [.mark ',', .blank]) [] := .flat (by simp [significant])
    cases field with
    | scalar name => exact ih
    | relation name link target =>
      rw [nestedColumns, significant_append, significant_append]
      exact (separator.append (gives_relationColumn holder name link _
        (balanced_select target))).append ih
    | polymorphic name discriminant targets =>
      rw [nestedColumns, significant_append, significant_append]
      exact (separator.append (gives_choiceColumn holder name discriminant targets)).append ih

theorem givenNames_body (shape : Shape) (after : List Token) :
    givenNames 0 (body shape ++ after) = shape.nestedNames := by
  cases shape with
  | mk collection fields =>
    have star : Gives [Token.name collection, .mark '.', .mark '*'] [] := .flat (by simp)
    have list := star.append (gives_nestedColumns collection fields)
    rw [body, List.append_assoc, list]
    simp [givenNames, Shape.nestedNames, Shape.fields]

theorem body_opens (shape : Shape) :
    ∃ rest, body shape = .name shape.collection :: .mark '.' :: .mark '*' :: rest := by
  cases shape
  exact ⟨_, rfl⟩

/-- The select of some rows, narrowed or not, is read as the source of a call on them. -/
theorem read_rowCall (name : String) (rows : Shape) {narrowed : List Token}
    (balanced : Balanced narrowed)
    (plain : ∀ after, renamed (narrowed ++ Token.mark ')' :: after) = none) (after : List Token) :
    RowCall.read (.mark '(' :: .name name :: .mark ')' :: .word "FROM" ::
        (parens (significant (select rows) ++ narrowed) ++
          Token.word "AS" :: .name name :: after)) =
      some (.on name rows) := by
  let item : List Token := parens (significant (select rows) ++ narrowed)
  let behind : List Token := Token.word "AS" :: .name name :: after
  have closed : Passes (.word "AS") item :=
    .parens ((balanced_select rows).significant.append balanced) (by simp)
  have known : source (Token.word "FROM" :: (item ++ behind)) = some name :=
    source_given .nil closed ⟨_, _, rfl, rfl⟩ name after
  have written : item ++ behind =
      .mark '(' :: .word "SELECT" :: (body rows ++ (narrowed ++ Token.mark ')' :: behind)) := by
    simp [item, parens, significant_select]
  have table := source_body rows (plain behind)
  have given := givenNames_body rows (narrowed ++ Token.mark ')' :: behind)
  obtain ⟨rest, opens⟩ := body_opens rows
  rw [opens] at written table given
  rw [RowCall.read, known, written]
  simp only [List.cons_append] at table given ⊢
  simp [table, given, RowCall.on]

/-! One chunk of tokens after the other. -/

def CallsRows (tokens : List Token) (calls : List RowCall) : Prop :=
  Yields readRowCalls tokens (calls.map some)

namespace CallsRows

theorem append {left right : List Token} {first second : List RowCall} (hl : CallsRows left first)
    (hr : CallsRows right second) : CallsRows (left ++ right) (first ++ second) := by
  rw [CallsRows, List.map_append]
  exact Yields.append hl hr

theorem quiet {tokens : List Token} (h : ∀ token ∈ tokens, token.takesRows = false) :
    CallsRows tokens [] := by
  refine Yields.nothing fun token member rest => ?_
  rw [readRowCalls, h token member, if_neg Bool.false_ne_true]

/-- A call on the name that the select of some rows is given next to it. -/
theorem call {routine : String} (takes : (Token.word routine).takesRows = true) (name : String)
    {rows : Shape} {narrowed : List Token} {calls : List RowCall} (balanced : Balanced narrowed)
    (plain : ∀ after, renamed (narrowed ++ Token.mark ')' :: after) = none)
    (h : CallsRows (significant (select rows) ++ narrowed) calls) :
    CallsRows (.word routine :: parens [.name name] ++ Token.word "FROM" ::
        (parens (significant (select rows) ++ narrowed) ++ [Token.word "AS", .name name]))
          (.on name rows :: calls) := by
  intro after
  have read := read_rowCall name rows balanced plain after
  have opening : CallsRows [.mark '(', .name name, .mark ')', .word "FROM", .mark '('] [] :=
    .quiet (by simp [Token.takesRows])
  have closing : CallsRows [.mark ')', .word "AS", .name name] [] :=
    .quiet (by simp [Token.takesRows])
  have below := ((opening.append h).append closing) after
  have split : (.word routine :: parens [.name name] ++ Token.word "FROM" ::
      (parens (significant (select rows) ++ narrowed) ++ [Token.word "AS", .name name])) ++ after =
      .word routine :: .mark '(' :: .name name :: .mark ')' :: .word "FROM" ::
        (parens (significant (select rows) ++ narrowed) ++
          Token.word "AS" :: .name name :: after) := by
    simp [parens]
  rw [split, readRowCalls, if_pos takes, read, List.map_cons, List.cons_append]
  simpa [parens] using below

end CallsRows

theorem takesRows_aggregate (kind : RelationKind) :
    (Token.word (aggregate kind)).takesRows = true := by
  cases kind <;> decide

theorem callsRows_relationColumn (holder field : String) (link : Link) {target : Shape}
    {calls : List RowCall} (h : CallsRows (significant (select target)) calls) :
    CallsRows (significant (relationColumn holder field link target.collection (select target)))
      (.on (nestedName holder field) target :: calls) := by
  let narrowed : List Token :=
    .word "WHERE" :: (significant (joinCondition holder target.collection link) ++
      significant (orderBy target.collection link.sort))
  have quiet : CallsRows narrowed [] := by
    refine .quiet ?_
    cases sorted : link.sort <;>
      simp [narrowed, joinCondition, orderBy, sorted, column, words, significant, Token.takesRows]
  have balanced : Balanced narrowed := balanced_narrowed holder target.collection link
  have rows := h.append quiet
  rw [List.append_nil] at rows
  have call :=
    CallsRows.call (takesRows_aggregate link.kind) (nestedName holder field) balanced
      (fun _ => rfl) rows
  have opening : CallsRows [.mark '(', .word "SELECT"] [] := .quiet (by simp [Token.takesRows])
  have closing : CallsRows [.mark ')', .word "AS", .name field] [] :=
    .quiet (by simp [Token.takesRows])
  have whole := (opening.append call).append closing
  rw [significant_relationColumn]
  simpa [derived, joinedRows, parens, narrowed] using whole

theorem callsRows_choiceColumn (holder field discriminant : String) (targets : List Shape) :
    CallsRows (significant (choiceColumn holder field discriminant (routes targets))) [] := by
  rw [significant_choice]
  refine .quiet fun token member => ?_
  rcases List.mem_cons.mp member with rfl | inside
  · decide
  cases token with
  | word keyword =>
    by_contra takes
    rw [Bool.not_eq_false] at takes
    simp only [Token.takesRows, List.contains_eq_mem, List.mem_cons, List.not_mem_nil,
      or_false, decide_eq_true_eq] at takes
    refine not_mem_choiceBody holder field discriminant targets ?_ inside
    rcases takes with rfl | rfl <;> decide
  | name content => rfl
  | literal content => rfl
  | mark c => rfl
  | blank => rfl

mutual
/-- A select calls the rows of the targets that it joins, in order. -/
theorem callsRows_select :
    (shape : Shape) → CallsRows (significant (select shape)) (rowsCalled shape)
  | .mk collection fields => by
    have opening : CallsRows [.word "SELECT", .name collection, .mark '.', .mark '*'] [] :=
      .quiet (by simp [Token.takesRows])
    have closing : CallsRows [.word "FROM", .name collection] [] :=
      .quiet (by simp [Token.takesRows])
    have whole := (opening.append (callsRows_nestedColumns collection fields)).append closing
    rw [significant_select, body, rowsCalled]
    simpa using whole

theorem callsRows_nestedColumns (holder : String) : (fields : List Field) →
    CallsRows (significant (nestedColumns holder fields)) (rowsCalledByFields holder fields)
  | [] => fun _ => rfl
  | .scalar _ :: rest => callsRows_nestedColumns holder rest
  | .relation name link target :: rest => by
    have separator : CallsRows (significant [.mark ',', .blank]) [] := fun _ => rfl
    have column := callsRows_relationColumn holder name link (callsRows_select target)
    have others := callsRows_nestedColumns holder rest
    rw [nestedColumns, significant_append, significant_append]
    exact (separator.append column).append others
  | .polymorphic name discriminant targets :: rest => by
    have separator : CallsRows (significant [.mark ',', .blank]) [] := fun _ => rfl
    have column := callsRows_choiceColumn holder name discriminant targets
    have others := callsRows_nestedColumns holder rest
    rw [nestedColumns, significant_append, significant_append]
    exact (separator.append column).append others
end

theorem rowCalls_text {tokens : List Token} {calls : List RowCall} (legible : Legible tokens)
    (h : CallsRows (significant tokens) calls) : rowCalls (text tokens) = some calls := by
  have found := h []
  rw [List.append_nil, readRowCalls, List.append_nil] at found
  rw [rowCalls, lex_text legible, Option.bind_some, found, mapM_id_some]

/-- The calls on rows in the text of a select are those of its shape. -/
theorem rowCalls_compile (shape : Shape) : rowCalls (compile shape) = some (rowsCalled shape) :=
  rowCalls_text (legible_select shape) (callsRows_select shape)

/-! The statement that creates a view. -/

def viewWords : ViewKind → List Token
  | .plain => words ["CREATE", "VIEW"]
  | .materialized => words ["CREATE", "MATERIALIZED", "VIEW"]

def viewOpening : List Token :=
  [.blank, .mark '(', .name dataColumn, .mark ')', .blank, .word "AS", .blank,
    .word "SELECT", .blank, .word "row_to_json", .mark '(', .name "root", .mark ')', .blank,
    .word "FROM", .blank, .mark '(']

def viewClosing : List Token := [.mark ')', .blank, .word "AS", .blank, .name "root"]

def viewTokens (kind : ViewKind) (name : String) (shape : Shape) : List Token :=
  (viewWords kind ++ [.blank, .name name] ++ viewOpening) ++ select shape ++ viewClosing

theorem text_append (left right : List Token) : text (left ++ right) = text left ++ text right := by
  rw [text, List.flatMap_append, String.ofList_append]
  rfl

theorem text_viewTokens (kind : ViewKind) (name : String) (shape : Shape) :
    text (viewTokens kind name shape) =
      View.createStatement kind name (View.rowQuery (compile shape)) := by
  have words : text (viewWords kind ++ [.blank]) = "CREATE " ++ View.keywords kind := by
    cases kind <;> decide +kernel
  have opening : text viewOpening =
      " (" ++ (quoteName dataColumn ++ (") AS " ++ "SELECT row_to_json(\"root\") FROM (")) := by
    decide +kernel
  have closing : text viewClosing = ") AS \"root\"" := by decide +kernel
  have quoted : text [.name name] = quoteName name := by simp [text, Token.chars, quoteName]
  have parts : viewTokens kind name shape =
      viewWords kind ++ [.blank] ++ [.name name] ++ viewOpening ++ select shape ++ viewClosing := by
    simp [viewTokens]
  rw [parts, text_append, text_append, text_append, text_append, words, quoted, opening, closing]
  unfold View.createStatement View.rowQuery compile
  generalize quoteName dataColumn = data
  simp only [String.append_assoc]

theorem legible_viewTokens (kind : ViewKind) (name : String) (shape : Shape) :
    Legible (viewTokens kind name shape) := by
  have opening : Legible (viewWords kind ++ [.blank, .name name] ++ viewOpening) := by
    constructor
    · cases kind <;> simp [viewWords, viewOpening, words, Token.legible, isPunctuation] <;> decide
    · cases kind <;> simp [viewWords, viewOpening, words, Token.Apart, Token.loose]
  have closing : Legible viewClosing := by
    constructor
    · decide
    · simp [viewClosing, Token.Apart, Token.loose]
  exact (opening.append (legible_select shape) (.inl (by simp [viewOpening, Token.loose]))).append
    closing (.inr fun _ head => by cases head; rfl)

theorem callsRows_viewTokens (kind : ViewKind) (name : String) (shape : Shape) :
    CallsRows (significant (viewTokens kind name shape))
      (.on "root" shape :: rowsCalled shape) := by
  have opening : CallsRows (significant (viewWords kind) ++
      [.name name, .mark '(', .name dataColumn, .mark ')', .word "AS", .word "SELECT"]) [] :=
    .quiet (by cases kind <;> simp [viewWords, words, significant, Token.takesRows])
  have rows := callsRows_select shape
  rw [← List.append_nil (significant (select shape))] at rows
  have takes : (Token.word "row_to_json").takesRows = true := by decide
  have call := CallsRows.call takes "root" (fun _ => rfl) (fun _ => rfl) rows
  have whole := opening.append call
  simpa [viewTokens, viewOpening, viewClosing, significant, parens] using whole

theorem maps_viewTokens (kind : ViewKind) (name : String) (shape : Shape) :
    maps (text (viewTokens kind name shape)) = maps (compile shape) := by
  have quiet : Token.word "resolve_row_with_nested" ∉
      viewWords kind ++ [.blank, .name name] ++ viewOpening := by
    cases kind <;> simp [viewWords, viewOpening, words]
  have quietAfter : Token.word "resolve_row_with_nested" ∉ viewClosing := by decide
  have handed := hands_within quiet (hands_select shape) quietAfter
  have alone := hands_select shape
  rw [Hands] at handed alone
  rw [maps, maps, lex_text (legible_viewTokens kind name shape), lex_compile, Option.bind_some,
    Option.bind_some, alone, viewTokens, handed]

theorem rowCalls_createStatement (kind : ViewKind) (name : String) (shape : Shape) :
    rowCalls (View.createStatement kind name (View.rowQuery (compile shape))) =
      some (.on "root" shape :: rowsCalled shape) := by
  rw [← text_viewTokens]
  exact rowCalls_text (legible_viewTokens kind name shape) (callsRows_viewTokens kind name shape)

/-- The calls on rows in the texts that stand a number of maps deep in the statement over a
shape. -/
def viewCalls : Nat → Shape → List (List RowCall)
  | 0, shape => [.on "root" shape :: rowsCalled shape]
  | depth + 1, shape => (shape.mapped (depth + 1)).map rowsCalled

theorem rowCalls_decoded (kind : ViewKind) (name : String) (shape : Shape) (depth : Nat) :
    ∃ texts, decoded depth (View.createStatement kind name (View.rowQuery (compile shape))) =
      some texts ∧ texts.map rowCalls = (viewCalls depth shape).map some := by
  cases depth with
  | zero => exact ⟨_, rfl,
    congrArg (fun calls => [calls]) (rowCalls_createStatement kind name shape)⟩
  | succ depth =>
    refine ⟨(shape.mapped (depth + 1)).map compile, ?_, ?_⟩
    · rw [← text_viewTokens, ← decoded_compile, decoded, decoded, maps_viewTokens]
    · rw [viewCalls, List.map_map, List.map_map]
      exact List.map_congr_left fun query _ => rowCalls_compile query

end DocumentViews.Sql
