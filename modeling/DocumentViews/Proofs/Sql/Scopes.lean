import DocumentViews.Proofs.Sql.NestedMaps
import DocumentViews.Proofs.Sql.Quoting

/-! Which tables a qualified column can mean.
The text of a select is read as nested scopes. Every select opens a scope under the name of its
source; its list and its condition see that scope and all around it, but its source sees only those
around it, for a source in parentheses is no lateral one. What a text refers to, with the scopes in
sight at each place, turns out to be a function of the shape that it was compiled from. -/
namespace DocumentViews.Sql

/-- A column of a table, or all of them, and the scopes in sight where it is named,
innermost first. -/
structure Reference where
  table : String
  column : Option String
  scopes : List String
deriving DecidableEq

/-- Open parentheses: the scope of the select in them, if there is one, and whether its
source is read. -/
structure Frame where
  scope : Option String
  inSource : Bool

def visible (frames : List Frame) : List String :=
  frames.filterMap fun frame => if frame.inSource then none else frame.scope

/-- What follows the first token of its kind outside of further parentheses. -/
def atLevel (depth : Nat) (stop : Token) : List Token → List Token
  | [] => []
  | token :: rest =>
    if depth = 0 ∧ token = stop then rest
    else if token = .mark '(' then atLevel (depth + 1) stop rest
    else if token = .mark ')' then if depth = 0 then [] else atLevel (depth - 1) stop rest
    else atLevel depth stop rest

def renamed : List Token → Option String
  | .word keyword :: .name name :: _ => if keyword = "AS" then some name else none
  | _ => none

/-- The name of a source: of a table its own unless it is given another, of all else the one
it is given. -/
def sourceName : List Token → Option String
  | .name table :: rest => some ((renamed rest).getD table)
  | rest => renamed (.word "AS" :: atLevel 0 (.word "AS") rest)

def source (tokens : List Token) : Option String := sourceName (atLevel 0 (.word "FROM") tokens)

def setInSource (flag : Bool) : List Frame → List Frame
  | [] => []
  | frame :: frames => { frame with inSource := flag } :: frames

def follow (frames : List Frame) (rest : List Token) : Token → List Frame
  | .mark c =>
    if c = '(' then ⟨none, false⟩ :: frames else if c = ')' then frames.tail else frames
  | .word keyword =>
    -- a select knows its source before it comes to it, so the rest of the text is looked at
    if keyword = "SELECT" then ⟨source rest, false⟩ :: frames.tail
    else if keyword = "FROM" then setInSource true frames
    else if keyword = "WHERE" ∨ keyword = "ORDER" then setInSource false frames
    else frames
  | _ => frames

def qualified : List Token → Option (String × Option String)
  | .name table :: .mark point :: .name column :: _ =>
      if point = '.' then some (table, some column) else none
  | .name table :: .mark point :: .mark star :: _ =>
    if point = '.' ∧ star = '*' then some (table, none) else none
  | _ => none

def referencesFrom (frames : List Frame) : List Token → List Reference
  | [] => []
  | token :: rest =>
    ((qualified (token :: rest)).map fun found =>
      Reference.mk found.1 found.2 (visible frames)).toList ++
      referencesFrom (follow frames rest token) rest

/-- All qualified columns of an SQL text that is run on its own, in their order. -/
def references (sql : String) : Option (List Reference) :=
  (lex sql).map (referencesFrom [⟨none, false⟩])

/-- A reference, and how many scopes further out the table stands that is meant. -/
structure Intended extends Reference where
  level : Nat
deriving DecidableEq

/-- The innermost scope of the name is the one meant. -/
def Intended.Binds (reference : Intended) : Prop :=
  reference.scopes[reference.level]? = some reference.table ∧
    ∀ nearer < reference.level, reference.scopes[nearer]? ≠ some reference.table

def ownColumn (table column : String) (outer : List String) : Intended :=
  ⟨⟨table, some column, table :: outer⟩, 0⟩

def intendedInBranch (holder field discriminant : String) (outer : List String)
    (targets : List Shape) :
    List Intended :=
  if targets.isEmpty then []
  else [ownColumn holder discriminant outer, ownColumn holder discriminant outer,
    ownColumn holder field outer]

/-- What the column of a field refers to apart from the select of its target: the key
columns with the holder one scope further out than the target, the order of the target, and
the columns of a choice. -/
def intendedByField (holder : String) (outer : List String) : Field → List Intended
  | .scalar _ => []
  | .relation _ link target =>
    let far (column : String) : Intended :=
      ⟨⟨holder, some column, target.collection :: holder :: outer⟩, 1⟩
    let near (column : String) : Intended := ownColumn target.collection column (holder :: outer)
    (if link.kind = .manyToOne then [far link.join.column, near link.join.foreignColumn]
      else [near link.join.column, far link.join.foreignColumn]) ++ (link.sort.map near).toList
  | .polymorphic field discriminant targets =>
    intendedInBranch holder field discriminant outer (targets.filter Shape.hasNested) ++
      intendedInBranch holder field discriminant outer
        (targets.filter fun target => !target.hasNested)

mutual
def intendedBySelect (outer : List String) : Shape → List Intended
  | .mk collection fields =>
    ⟨⟨collection, none, collection :: outer⟩, 0⟩ :: intendedByColumns collection outer fields

def intendedByColumns (holder : String) (outer : List String) : List Field → List Intended
  | [] => []
  | .scalar _ :: rest => intendedByColumns holder outer rest
  | .relation name link target :: rest =>
    intendedBySelect (holder :: outer) target ++
      intendedByField holder outer (.relation name link target) ++
      intendedByColumns holder outer rest
  | .polymorphic name discriminant targets :: rest =>
    intendedByField holder outer (.polymorphic name discriminant targets) ++
      intendedByColumns holder outer rest
end

/-! Looking ahead for the source of a select. -/

theorem atLevel_inside {depth left : Nat} {tokens : List Token}
    (h : openAfter depth tokens = some left) (stop : Token) (after : List Token) :
    atLevel (depth + 1) stop (tokens ++ after) = atLevel (left + 1) stop after := by
  induction tokens generalizing depth with
  | nil =>
    cases h
    rfl
  | cons token rest ih =>
    rw [openAfter] at h
    rw [List.cons_append, atLevel, if_neg (by omega)]
    split at h
    · rename_i opens
      rw [if_pos opens]
      exact ih h
    · rename_i opens
      rw [if_neg opens]
      split at h
      · rename_i closes
        rw [if_pos closes, if_neg (by omega)]
        split at h
        · cases h
        · rename_i inner
          have shifted : depth + 1 - 1 = depth - 1 + 1 := by omega
          rw [shifted]
          exact ih h
      · rename_i closes
        rw [if_neg closes]
        exact ih h

/-- Tokens without the one looked for, outside of parentheses that they open and close. -/
def Passes (stop : Token) (tokens : List Token) : Prop :=
  ∀ after, atLevel 0 stop (tokens ++ after) = atLevel 0 stop after

namespace Passes

variable {stop : Token}

theorem nil : Passes stop [] := by
  intro after
  rfl

theorem append {left right : List Token} (hl : Passes stop left) (hr : Passes stop right) :
    Passes stop (left ++ right) := by
  intro after
  rw [List.append_assoc, hl, hr]

theorem flat {tokens : List Token}
    (h : ∀ token ∈ tokens, token ≠ stop ∧ token ≠ .mark '(' ∧ token ≠ .mark ')') :
    Passes stop tokens := by
  induction tokens with
  | nil => exact nil
  | cons token rest ih =>
    intro after
    obtain ⟨goes, opens, closes⟩ := h token List.mem_cons_self
    rw [List.cons_append, atLevel, if_neg (fun both => goes both.2), if_neg opens, if_neg closes]
    exact ih (fun other member => h other (List.mem_cons_of_mem _ member)) after

theorem parens {inside : List Token} (h : Balanced inside) (other : stop ≠ .mark '(') :
    Passes stop (parens inside) := by
  intro after
  have opened : atLevel 0 stop (Sql.parens inside ++ after) =
      atLevel 1 stop (inside ++ Token.mark ')' :: after) := by
    simp [Sql.parens, atLevel, Ne.symm other]
  rw [opened, atLevel_inside (h 0)]
  simp [atLevel]

end Passes

/-! One chunk of tokens after the other. -/

/-- Tokens that are read in some frames with these references and leave other frames, whatever
follows. What follows must not start with a point, for it would qualify the name before it. -/
structure Refers (frames : List Frame) (tokens : List Token) (found : List Reference)
    (left : List Frame) : Prop where
  opens : tokens.head? ≠ some (.mark '.')
  refers : ∀ after, after.head? ≠ some (.mark '.') →
    referencesFrom frames (tokens ++ after) = found ++ referencesFrom left after

def Token.inert : Token → Bool
  | .mark c => c ≠ '(' && c ≠ ')' && c ≠ '.'
  | .word keyword => !(["SELECT", "FROM", "WHERE", "ORDER"].contains keyword)
  | _ => true

theorem qualified_eq_none {token : Token} {rest : List Token} (h : rest.head? ≠ some (.mark '.')) :
    qualified (token :: rest) = none := by
  unfold qualified
  split
  · rename_i point column tail same
    cases same
    simpa using h
  · rename_i point star tail same
    cases same
    simp only [List.head?_cons, ne_eq, Option.some.injEq, Token.mark.injEq] at h
    simp [h]
  · rfl

theorem follow_inert {token : Token} (h : token.inert = true) (frames : List Frame)
    (rest : List Token) :
    follow frames rest token = frames := by
  cases token with
  | mark c =>
    simp only [Token.inert, ne_eq, decide_not, Bool.and_eq_true, Bool.not_eq_eq_eq_not,
      Bool.not_true, decide_eq_false_iff_not] at h
    simp [follow, h]
  | word keyword =>
    simp only [Token.inert, List.contains_eq_mem, List.mem_cons, List.not_mem_nil, or_false,
      Bool.not_eq_eq_eq_not, Bool.not_true, decide_eq_false_iff_not, not_or] at h
    simp [follow, h]
  | name content => rfl
  | literal content => rfl
  | blank => rfl

theorem head?_append_ne {left right : List Token} {token : Token} (hl : left.head? ≠ some token)
    (hr : right.head? ≠ some token) : (left ++ right).head? ≠ some token := by
  cases left with
  | nil => exact hr
  | cons first rest => exact hl

namespace Refers

variable {frames middle left : List Frame} {frame : Frame}

theorem nil : Refers frames [] [] frames := by
  constructor
  · simp
  · intro after _
    rfl

theorem append {first second : List Token} {before behind : List Reference}
    (h₁ : Refers frames first before middle) (h₂ : Refers middle second behind left) :
    Refers frames (first ++ second) (before ++ behind) left := by
  constructor
  · exact head?_append_ne h₁.opens h₂.opens
  · intro after settled
    rw [List.append_assoc, h₁.refers _ (head?_append_ne h₂.opens settled),
      h₂.refers after settled, List.append_assoc]

theorem token {token : Token} (plain : token ≠ .mark '.')
    (h : ∀ rest, follow frames rest token = left) : Refers frames [token] [] left := by
  constructor
  · simpa using plain
  · intro after settled
    rw [List.singleton_append, referencesFrom, qualified_eq_none settled, h after]
    rfl

theorem inert {tokens : List Token} (h : ∀ token ∈ tokens, token.inert = true) :
    Refers frames tokens [] frames := by
  induction tokens with
  | nil => exact nil
  | cons first rest ih =>
    have here := h first List.mem_cons_self
    have plain : first ≠ .mark '.' := by
      rintro rfl
      cases here
    have others := ih fun other member => h other (List.mem_cons_of_mem _ member)
    exact (token plain (follow_inert here frames)).append others

theorem column (table name : String) :
    Refers frames (column table name) [⟨table, some name, visible frames⟩] frames := by
  constructor
  · simp [Sql.column]
  · intro after settled
    show referencesFrom frames (.name table :: .mark '.' :: .name name :: after) = _
    rw [referencesFrom, referencesFrom, referencesFrom, qualified_eq_none settled]
    rfl

theorem star (table : String) :
    Refers frames [.name table, .mark '.', .mark '*'] [⟨table, none, visible frames⟩] frames := by
  constructor
  · simp
  · intro after _
    rfl

theorem parens {inside : List Token} {found : List Reference}
    (h : Refers (⟨none, false⟩ :: frames) inside found (frame :: frames)) :
    Refers frames (parens inside) found frames := by
  have opening : Refers frames [.mark '('] [] (⟨none, false⟩ :: frames) :=
    token (by simp) fun _ => rfl
  have closing : Refers (frame :: frames) [.mark ')'] [] frames := token (by simp) fun _ => rfl
  simpa [Sql.parens] using (opening.append h).append closing

theorem from_source :
    Refers (frame :: frames) [.word "FROM"] [] ({ frame with inSource := true } :: frames) :=
  token (by simp) fun _ => rfl

theorem where_condition :
    Refers (frame :: frames) [.word "WHERE"] [] ({ frame with inSource := false } :: frames) :=
  token (by simp) fun _ => rfl

theorem select {body : List Token} {found : List Reference} {scope : String}
    (named : ∀ after, source (body ++ after) = some scope)
    (h : Refers (⟨some scope, false⟩ :: frames) body found left) :
    Refers (frame :: frames) (.word "SELECT" :: body) found left := by
  constructor
  · simp
  · intro after settled
    rw [List.cons_append, referencesFrom, ← h.refers after settled, ← named after]
    rfl

end Refers

/-! The constructions of a select. -/

theorem significant_append (left right : List Token) :
    significant (left ++ right) = significant left ++ significant right := List.filter_append ..

def derived (list item : List Token) (name : String) : List Token :=
  parens (.word "SELECT" :: (list ++ Token.word "FROM" :: (item ++ [Token.word "AS", .name name])))

def joinedRows (holder target : String) (link : Link) (select : List Token) : List Token :=
  significant select ++ Token.word "WHERE" :: (significant (joinCondition holder target link) ++
    significant (orderBy target link.sort))

theorem significant_relationColumn (holder field : String) (link : Link) (target : String)
    (select : List Token) :
    significant (relationColumn holder field link target select) =
      derived (.word (aggregate link.kind) :: parens [.name (nestedName holder field)])
        (parens (joinedRows holder target link select)) (nestedName holder field) ++
      [Token.word "AS", .name field] := by
  simp [relationColumn, derived, joinedRows, named, parens, significant]

theorem significant_branch (discriminant : List Token) (collections : List String)
    (routine : String) (arguments : List (List Token)) :
    significant (branch discriminant collections routine arguments) =
      [Token.word "WHEN"] ++ significant discriminant ++ [Token.word "IN"] ++
        parens (significant (commas (collections.map fun name => [.literal name]))) ++
        [Token.word "THEN"] ++ derived [.name "resolved"]
        (.word routine :: parens (significant (commas arguments))) "resolved" := by
  simp [branch, derived, named, parens, significant]

theorem inert_commas {rows : List (List Token)}
    (h : ∀ row ∈ rows, ∀ token ∈ row, token.inert = true) :
    ∀ token ∈ significant (commas rows), token.inert = true := by
  intro token member
  rcases mem_commas (List.mem_filter.mp member).1 with ⟨row, isRow, inRow⟩ | rfl | rfl
  · exact h row isRow token inRow
  · rfl
  · rfl

theorem inert_literals (collections : List String) :
    ∀ token ∈ significant (commas (collections.map fun name => [.literal name])),
      token.inert = true := by
  apply inert_commas
  intro row isRow token inRow
  obtain ⟨name, _, rfl⟩ := List.mem_map.mp isRow
  cases List.mem_singleton.mp inRow
  rfl

/-- A source in parentheses or from a routine is known by the name that it is given. -/
theorem source_given {list item : List Token} (hl : Passes (.word "FROM") list)
    (hi : Passes (.word "AS") item) (solid : ∃ first rest, item = first :: rest ∧
      first.isQuoted = false) (name : String) (after : List Token) :
    source (list ++ Token.word "FROM" :: (item ++ Token.word "AS" :: .name name :: after)) =
      some name := by
  have found : atLevel 0 (.word "FROM")
      (list ++ Token.word "FROM" :: (item ++ Token.word "AS" :: .name name :: after)) =
      item ++ Token.word "AS" :: .name name :: after := by
    rw [hl]
    simp [atLevel]
  have given := hi (Token.word "AS" :: .name name :: after)
  obtain ⟨first, rest, rfl, free⟩ := solid
  rw [source, found]
  cases first with
  | name content => cases free
  | _ =>
    rw [List.cons_append] at given ⊢
    rw [sourceName, given]
    · rfl
    · simp

/-- A table that is not renamed is known by its own name. -/
theorem source_table {list : List Token} (hl : Passes (.word "FROM") list) (table : String)
    {after : List Token} (plain : renamed after = none) :
    source (list ++ Token.word "FROM" :: .name table :: after) = some table := by
  have found : atLevel 0 (.word "FROM") (list ++ Token.word "FROM" :: .name table :: after) =
      .name table :: after := by
    rw [hl]
    simp [atLevel]
  rw [source, found, sourceName, plain]
  rfl

theorem balanced_narrowed (holder target : String) (link : Link) :
    Balanced (.word "WHERE" :: (significant (joinCondition holder target link) ++
      significant (orderBy target link.sort))) := by
  have keyword : Balanced [Token.word "WHERE"] := .flat (by simp)
  have condition := (balanced_joinCondition holder target link).significant
  exact keyword.append (condition.append (balanced_orderBy target link.sort).significant)

theorem balanced_joinedRows (holder target : String) (link : Link) {select : List Token}
    (h : Balanced select) :
    Balanced (joinedRows holder target link select) :=
  h.significant.append (balanced_narrowed holder target link)

theorem balanced_derived {list item : List Token} (hl : Balanced list) (hi : Balanced item)
    (name : String) :
    Balanced (.word "SELECT" ::
      (list ++ Token.word "FROM" :: (item ++ [Token.word "AS", .name name]))) := by
  have first : Balanced [Token.word "SELECT"] := .flat (by simp)
  have from_ : Balanced [Token.word "FROM"] := .flat (by simp)
  have given : Balanced [Token.word "AS", .name name] := .flat (by simp)
  exact first.append (hl.append (from_.append (hi.append given)))

theorem passes_derived {stop : Token} (other : stop ≠ .mark '(') {list item : List Token}
    (hl : Balanced list) (hi : Balanced item) (name : String) :
    Passes stop (derived list item name) :=
  .parens (balanced_derived hl hi name) other

theorem passes_relationColumn (holder field : String) (link : Link) (target : String)
    {select : List Token} (h : Balanced select) :
    Passes (.word "FROM") (significant (relationColumn holder field link target select)) := by
  have name : Balanced [.word (aggregate link.kind)] := .flat (by simp)
  have argument : Balanced [.name (nestedName holder field)] := .flat (by simp)
  rw [significant_relationColumn]
  exact (passes_derived (by simp) (name.append argument.parens)
    (balanced_joinedRows holder target link h).parens _).append (.flat (by simp))

theorem balanced_arguments (holder field discriminant : String) {more : List (List Token)}
    (hm : ∀ argument ∈ more, Balanced argument) :
    Balanced (commas (column holder discriminant ::
      cast (column holder field) "text" :: more)) := by
  have item : Balanced (cast (column holder field) "text") := .cast (.column holder field) "text"
  exact .commas (List.forall_mem_cons.mpr ⟨.column _ _, List.forall_mem_cons.mpr ⟨item, hm⟩⟩)

theorem passes_branchFor (holder field discriminant : String) (routes : List Route)
    (routine : String) {more : List (List Token)} (hm : ∀ argument ∈ more, Balanced argument) :
    Passes (.word "FROM")
      (significant (branchFor (column holder discriminant) (cast (column holder field) "text")
        routes routine more)) := by
  unfold branchFor
  split
  · exact .nil
  have literals := (balanced_literals (routes.map (·.collection))).significant
  have name : Balanced [.word routine] := .flat (by simp)
  have call := name.append (balanced_arguments holder field discriminant hm).significant.parens
  rw [significant_branch]
  refine Passes.append
    (Passes.append (Passes.append ?_ (.parens literals (by simp))) (.flat (by simp)))
    (passes_derived (by simp) (.flat (by simp)) call "resolved")
  exact .flat (by simp [column, significant])

theorem significant_choiceColumn (holder field discriminant : String) (routes : List Route) :
    significant (choiceColumn holder field discriminant routes) =
      [Token.word "CASE"] ++
        significant (branchFor (column holder discriminant) (cast (column holder field) "text")
          (routes.filter (·.nests)) "resolve_row_with_nested"
            [cast [.literal (routeMap (routes.filter (·.nests)))] "json"]) ++
        significant (branchFor (column holder discriminant) (cast (column holder field) "text")
          (routes.filter fun route => !route.nests) "resolve_row" []) ++
        [Token.word "ELSE", .literal "\x7b\x7d", .mark ':', .mark ':', .word "json", .word "END",
          .word "AS", .name field] := by
  rw [← nestedBranch_eq, ← flatBranch_eq]
  simp [choiceColumn, named, cast, significant]

theorem passes_nestedColumns (holder : String) (fields : List Field) :
    Passes (.word "FROM") (significant (nestedColumns holder fields)) := by
  induction fields with
  | nil => exact .nil
  | cons field rest ih =>
    have separator : Passes (.word "FROM") (significant [.mark ',', .blank]) :=
      .flat (by simp [significant])
    cases field with
    | scalar name => exact ih
    | relation name link target =>
      rw [nestedColumns, significant_append, significant_append]
      exact (separator.append (passes_relationColumn holder name link _
        (balanced_select target))).append ih
    | polymorphic name discriminant targets =>
      have map : Balanced (cast [.literal (routeMap ((routes targets).filter (·.nests)))] "json") :=
        .cast (.flat (by simp)) "json"
      rw [nestedColumns, significant_append, significant_append, significant_choiceColumn]
      refine Passes.append
        (separator.append (Passes.append (Passes.append (Passes.append ?_ ?_) ?_) ?_)) ih
      · exact .flat (by simp)
      · exact passes_branchFor holder name discriminant _ _ (List.forall_mem_singleton.mpr map)
      · exact passes_branchFor holder name discriminant _ _ (List.forall_mem_nil _)
      · exact .flat (by simp)

def body : Shape → List Token
  | .mk collection fields =>
    [Token.name collection, .mark '.', .mark '*'] ++
      significant (nestedColumns collection fields) ++
      [Token.word "FROM", .name collection]

theorem significant_select (shape : Shape) :
    significant (select shape) = .word "SELECT" :: body shape := by
  cases shape with
  | mk collection fields => simp [select, body, significant]

theorem source_body (shape : Shape) {after : List Token} (plain : renamed after = none) :
    source (body shape ++ after) = some shape.collection := by
  cases shape with
  | mk collection fields =>
    have list : Passes (.word "FROM") ([Token.name collection, .mark '.', .mark '*'] ++
        significant (nestedColumns collection fields)) :=
      (Passes.flat (by simp)).append (passes_nestedColumns collection fields)
    rw [body, List.append_assoc]
    exact source_table list collection plain

theorem visible_select (scope : String) (frames : List Frame) :
    visible (⟨some scope, false⟩ :: frames) = scope :: visible frames := rfl

theorem visible_source (scope : Option String) (frames : List Frame) :
    visible (⟨scope, true⟩ :: frames) = visible frames := rfl

theorem visible_parens (frames : List Frame) :
    visible (⟨none, false⟩ :: frames) = visible frames := rfl

theorem refers_joinCondition (frames : List Frame) (holder target : String) (link : Link) :
    Refers frames (significant (joinCondition holder target link))
      (if link.kind = .manyToOne then
        [⟨holder, some link.join.column, visible frames⟩,
          ⟨target, some link.join.foreignColumn, visible frames⟩]
      else [⟨target, some link.join.column, visible frames⟩,
        ⟨holder, some link.join.foreignColumn, visible frames⟩])
      frames := by
  have sides : ∀ first second third fourth : String,
      Refers frames
        (significant (column first second ++ [Token.blank, .mark '=', .blank] ++
          column third fourth))
        [⟨first, some second, visible frames⟩, ⟨third, some fourth, visible frames⟩] frames := by
    intro first second third fourth
    have equals : Refers frames [.mark '='] [] frames := .inert (by decide)
    exact ((Refers.column first second).append equals).append (.column third fourth)
  unfold joinCondition
  split
  · exact sides ..
  · exact sides ..

theorem refers_orderBy (frames : List Frame) (target : String) (sort : Option String) :
    Refers (⟨some target, false⟩ :: frames) (significant (orderBy target sort))
      ((sort.map fun name => ⟨target, some name, target :: visible frames⟩).toList)
      (⟨some target, false⟩ :: frames) := by
  cases sort with
  | none => exact .nil
  | some name =>
    have order :
        Refers (⟨some target, false⟩ :: frames) [.word "ORDER"] []
        (⟨some target, false⟩ :: frames) :=
      .token (by simp) fun _ => rfl
    have by_ : Refers (⟨some target, false⟩ :: frames) [.word "BY"] []
        (⟨some target, false⟩ :: frames) :=
      .inert (by decide)
    exact (order.append by_).append (.column target name)

theorem references_relation (holder field : String) (outer : List String) (link : Link)
    (target : Shape) :
    (intendedByField holder outer (.relation field link target)).map Intended.toReference =
      (if link.kind = .manyToOne then
        [⟨holder, some link.join.column, target.collection :: holder :: outer⟩,
          ⟨target.collection, some link.join.foreignColumn, target.collection :: holder :: outer⟩]
      else [⟨target.collection, some link.join.column, target.collection :: holder :: outer⟩,
        ⟨holder, some link.join.foreignColumn, target.collection :: holder :: outer⟩]) ++
      (link.sort.map fun name =>
        Reference.mk target.collection (some name)
          (target.collection :: holder :: outer)).toList := by
  rw [intendedByField, List.map_append]
  congr 1
  · split <;> rfl
  · cases link.sort <;> rfl

/-- A derived select sees the scopes around it and none of its own. -/
theorem Refers.derived {frames : List Frame} {list item : List Token} {found : List Reference}
    {name : String} (quiet : Passes (.word "FROM") list) (closed : Passes (.word "AS") item)
    (solid : ∃ first rest, item = first :: rest ∧ first.isQuoted = false)
    (hl : Refers (⟨some name, false⟩ :: frames) list [] (⟨some name, false⟩ :: frames))
    (hi : Refers (⟨some name, true⟩ :: frames) item found (⟨some name, true⟩ :: frames)) :
    Refers frames (derived list item name) found frames := by
  have given : Refers (⟨some name, true⟩ :: frames) [.word "AS", .name name] []
      (⟨some name, true⟩ :: frames) :=
    .inert (by simp [Token.inert])
  have whole := hl.append (Refers.from_source.append (hi.append given))
  rw [List.append_nil] at whole
  refine Refers.parens (Refers.select (fun after => ?_) whole)
  have named := source_given quiet closed solid name after
  simpa using named

/-- Joined rows see the target innermost and the holder one scope further out. -/
theorem refers_joinedRows {frames : List Frame} {holder : String} {outer : List String}
    (sight : visible frames = holder :: outer) (field : String) (link : Link) (target : Shape)
    (h : Refers (⟨some target.collection, false⟩ :: frames) (body target)
      ((intendedBySelect (visible frames) target).map Intended.toReference)
      (⟨some target.collection, true⟩ :: frames)) :
    Refers (⟨none, false⟩ :: frames) (joinedRows holder target.collection link (select target))
      ((intendedBySelect (holder :: outer) target ++
        intendedByField holder outer (.relation field link target)).map
        Intended.toReference) (⟨some target.collection, false⟩ :: frames) := by
  have joined :=
    (refers_joinCondition (⟨some target.collection, false⟩ :: frames) holder target.collection
      link).append (refers_orderBy frames target.collection link.sort)
  rw [visible_select, sight, ← references_relation holder field outer link target] at joined
  have whole := h.append (Refers.where_condition.append joined)
  rw [sight, List.nil_append, ← List.map_append] at whole
  rw [joinedRows, significant_select, List.cons_append]
  refine Refers.select (fun after => ?_) whole
  rw [List.append_assoc]
  exact source_body target rfl

theorem refers_relationColumn {frames : List Frame} {holder : String} {outer : List String}
    (sight : visible frames = holder :: outer) (field : String) (link : Link) (target : Shape)
    (h : ∀ frames, Refers (⟨some target.collection, false⟩ :: frames) (body target)
      ((intendedBySelect (visible frames) target).map Intended.toReference)
      (⟨some target.collection, true⟩ :: frames)) :
    Refers frames (significant (relationColumn holder field link target.collection (select target)))
      ((intendedBySelect (holder :: outer) target ++
        intendedByField holder outer (.relation field link target)).map
        Intended.toReference) frames := by
  let rows := nestedName holder field
  have word : ∀ frames, Passes (.word "FROM") [.word (aggregate link.kind)] ∧
      Refers frames [.word (aggregate link.kind)] [] frames := by
    intro frames
    cases link.kind <;> exact ⟨.flat (by simp [aggregate]), .inert (by decide)⟩
  have argument : Balanced [.name rows] := .flat (by simp)
  have call : Refers (⟨some rows, false⟩ :: frames) (parens [.name rows]) []
      (⟨some rows, false⟩ :: frames) :=
    .parens (.inert (by simp [Token.inert]))
  have around : visible (⟨some rows, true⟩ :: frames) = holder :: outer := sight
  have inside := (refers_joinedRows around field link target (h _)).parens
  have closed :
      Passes (.word "AS") (parens (joinedRows holder target.collection link (select target))) :=
    .parens (balanced_joinedRows holder target.collection link (balanced_select target)) (by simp)
  have column :=
    Refers.derived ((word frames).1.append (.parens argument (by simp))) closed ⟨_, _, rfl, rfl⟩
      ((word _).2.append call) inside
  have outermost : Refers frames [.word "AS", .name field] [] frames :=
    .inert (by simp [Token.inert])
  rw [significant_relationColumn, ← List.append_nil (List.map _ _)]
  exact column.append outermost

theorem refers_arguments (frames : List Frame) (holder field discriminant : String)
    {more : List (List Token)} (hm : ∀ argument ∈ more, ∀ token ∈ argument, token.inert = true) :
    Refers frames
      (significant (commas (column holder discriminant :: cast (column holder field) "text" ::
        more)))
      [⟨holder, some discriminant, visible frames⟩, ⟨holder, some field, visible frames⟩]
      frames := by
  have comma : Refers frames [.mark ','] [] frames := .inert (by decide)
  have type : Refers frames [.mark ':', .mark ':', .word "text"] [] frames := .inert (by decide)
  have two := (Refers.column holder discriminant).append
    (comma.append ((Refers.column holder field).append type))
  cases more with
  | nil => exact two
  | cons argument others =>
    have rest := comma.append (Refers.inert (inert_commas hm))
    simpa [commas, significant, cast, column] using two.append rest

theorem refers_branchFor {frames : List Frame} {holder : String} {outer : List String}
    (sight : visible frames = holder :: outer) (field discriminant : String) (targets : List Shape)
    {routine : String} (word : (Token.word routine).inert = true) (named : routine ≠ "AS")
    {more : List (List Token)}
    (hm : ∀ argument ∈ more, Balanced argument ∧ ∀ token ∈ argument, token.inert = true) :
    Refers frames
      (significant (branchFor (column holder discriminant) (cast (column holder field) "text")
        (routes targets) routine more))
      ((intendedInBranch holder field discriminant outer targets).map Intended.toReference)
      frames := by
  cases targets with
  | nil => exact .nil
  | cons target rest =>
    have call :=
      (balanced_arguments holder field discriminant fun argument member =>
        (hm argument member).1).significant
    have closed : Passes (.word "AS") ([Token.word routine] ++
        parens (significant (commas (column holder discriminant ::
          cast (column holder field) "text" :: more)))) :=
      (Passes.flat (by simpa using named)).append (.parens call (by simp))
    have item : Refers (⟨some "resolved", true⟩ :: frames) ([Token.word routine] ++
        parens (significant (commas (column holder discriminant ::
          cast (column holder field) "text" :: more)))) _ _ :=
      (Refers.inert (by simpa using word)).append
        (refers_arguments _ holder field discriminant fun argument member =>
          (hm argument member).2).parens
    have list : Refers (⟨some "resolved", false⟩ :: frames) [.name "resolved"] [] _ :=
      .inert (by simp [Token.inert])
    have lookup := Refers.derived (.flat (by simp)) closed ⟨_, _, rfl, rfl⟩ list item
    have names := inert_literals ((routes (target :: rest)).map (·.collection))
    have literals : Refers frames (parens _) [] frames := .parens (.inert names)
    have when_ : Refers frames [.word "WHEN"] [] frames := .inert (by decide)
    have in_ : Refers frames [.word "IN"] [] frames := .inert (by decide)
    have then_ : Refers frames [.word "THEN"] [] frames := .inert (by decide)
    have chosen := (when_.append (Refers.column holder discriminant)).append (in_.append literals)
    have whole := (chosen.append then_).append lookup
    rw [visible_parens, visible_source, sight] at whole
    show Refers frames (significant (branch _ _ _ _)) _ frames
    rw [significant_branch]
    exact whole

theorem refers_choiceColumn {frames : List Frame} {holder : String} {outer : List String}
    (sight : visible frames = holder :: outer) (field discriminant : String)
    (targets : List Shape) :
    Refers frames (significant (choiceColumn holder field discriminant (routes targets)))
      ((intendedByField holder outer (.polymorphic field discriminant targets)).map
        Intended.toReference) frames := by
  have case_ : Refers frames [.word "CASE"] [] frames := .inert (by decide)
  have map :
      ∀ argument ∈ [cast [.literal (routeMap (routes (targets.filter Shape.hasNested)))] "json"],
        Balanced argument ∧ ∀ token ∈ argument, token.inert = true :=
    List.forall_mem_singleton.mpr ⟨.cast (.flat (by simp)) "json", by simp [cast, Token.inert]⟩
  have nestedWord : (Token.word "resolve_row_with_nested").inert = true := by decide
  have flatWord : (Token.word "resolve_row").inert = true := by decide
  have nested :=
    refers_branchFor sight field discriminant (targets.filter Shape.hasNested) nestedWord
      (by decide) map
  have flat :=
    refers_branchFor sight field discriminant (targets.filter fun target => !target.hasNested)
      flatWord (by decide) (List.forall_mem_nil _)
  have otherwise : Refers frames [Token.word "ELSE", .literal "\x7b\x7d", .mark ':', .mark ':',
      .word "json", .word "END", .word "AS", .name field] [] frames :=
    .inert (by simp [Token.inert])
  have whole := ((case_.append nested).append flat).append otherwise
  rw [significant_choiceColumn, filter_routes, filter_flat_routes, intendedByField, List.map_append]
  simpa using whole

mutual
theorem refers_body : (shape : Shape) → (frames : List Frame) →
    Refers (⟨some shape.collection, false⟩ :: frames) (body shape)
      ((intendedBySelect (visible frames) shape).map Intended.toReference)
        (⟨some shape.collection, true⟩ :: frames)
  | .mk collection fields, frames => by
    have columns := refers_nestedColumns (visible_select collection frames) fields
    have last : Refers (⟨some collection, true⟩ :: frames) [.name collection] []
        (⟨some collection, true⟩ :: frames) :=
      .inert (by simp [Token.inert])
    have whole := ((Refers.star collection).append columns).append (Refers.from_source.append last)
    simpa [body, intendedBySelect, visible_select, Shape.collection] using whole

theorem refers_nestedColumns {frames : List Frame} {holder : String} {outer : List String}
    (sight : visible frames = holder :: outer) : (fields : List Field) →
    Refers frames (significant (nestedColumns holder fields))
      ((intendedByColumns holder outer fields).map Intended.toReference) frames
  | [] => .nil
  | .scalar _ :: rest => refers_nestedColumns sight rest
  | .relation name link target :: rest => by
    have separator : Refers frames [.mark ','] [] frames := .inert (by decide)
    have column := refers_relationColumn sight name link target (refers_body target)
    have whole := (separator.append column).append (refers_nestedColumns sight rest)
    rw [nestedColumns, significant_append, significant_append, intendedByColumns, List.map_append]
    exact whole
  | .polymorphic name discriminant targets :: rest => by
    have separator : Refers frames [.mark ','] [] frames := .inert (by decide)
    have column := refers_choiceColumn sight name discriminant targets
    have whole := (separator.append column).append (refers_nestedColumns sight rest)
    rw [nestedColumns, significant_append, significant_append, intendedByColumns, List.map_append]
    exact whole
end

/-- The qualified columns of a compiled select are those that the shape asks for, each in the scopes
of the chain of tables from its own select outwards. -/
theorem references_compile (shape : Shape) :
    references (compile shape) = some ((intendedBySelect [] shape).map Intended.toReference) := by
  have named : source (body shape) = some shape.collection := by
    have alone : renamed [] = none := rfl
    have plain := source_body shape alone
    rwa [List.append_nil] at plain
  have inside := (refers_body shape []).refers [] (by simp)
  have opened : referencesFrom [⟨none, false⟩] (.word "SELECT" :: body shape) =
      referencesFrom [⟨some shape.collection, false⟩] (body shape) := by
    rw [← named]
    rfl
  rw [references, lex_compile, Option.map_some, significant_select, opened]
  simpa [visible, referencesFrom] using inside

end DocumentViews.Sql
