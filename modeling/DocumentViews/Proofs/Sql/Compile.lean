import DocumentViews.Proofs.Sql.Lexer
import DocumentViews.Sql.Select

/-! The text of a select is read as the tokens it was written from.
Every construction of the compiler joins its parts at a blank or a punctuation mark, so the parts
stay legible side by side whatever names they hold. -/
namespace DocumentViews.Sql

namespace Legible

theorem nil : Legible [] := ⟨fun _ member => (List.not_mem_nil member).elim, List.IsChain.nil⟩

theorem append {left right : List Token} (hl : Legible left) (hr : Legible right)
    (seam : (∀ token ∈ left.getLast?, token.loose = true) ∨
      (∀ token ∈ right.head?, token.loose = true)) :
    Legible (left ++ right) := by
  constructor
  · intro token member
    rcases List.mem_append.mp member with before | behind
    · exact hl.each token before
    · exact hr.each token behind
  · refine List.isChain_append.mpr ⟨hl.apart, hr.apart, ?_⟩
    intro last isLast first isFirst
    exact seam.imp (fun loose => loose last isLast) (fun loose => loose first isFirst)

theorem cons {token : Token} {rest : List Token} (here : token.legible = true)
    (loose : token.loose = true) (hr : Legible rest) : Legible (token :: rest) := by
  have single : Legible [token] :=
    ⟨fun _ member => by simpa [List.mem_singleton.mp member] using here, .singleton token⟩
  exact append single hr (.inl fun _ last => by cases last; exact loose)

theorem solid {token : Token} {rest : List Token} (here : token.legible = true) (hr : Legible rest)
    (loose : ∀ next ∈ rest.head?, next.loose = true) : Legible (token :: rest) := by
  have single : Legible [token] :=
    ⟨fun _ member => by simpa [List.mem_singleton.mp member] using here, .singleton token⟩
  exact append single hr (.inr loose)

theorem column (table name : String) : Legible (column table name) := by
  constructor
  · simp [Sql.column, Token.legible, isPunctuation]
  · simp [Sql.column, Token.Apart, Token.loose]

theorem parens {inside : List Token} (h : Legible inside) : Legible (parens inside) := by
  have closed : Legible (inside ++ [Token.mark ')']) :=
    append h (cons rfl rfl nil) (.inr fun _ head => by cases head; rfl)
  exact cons rfl rfl closed

theorem named {value : List Token} (h : Legible value) (name : String) :
    Legible (named value name) := by
  refine append h ?_ (.inr fun _ head => by cases head; rfl)
  constructor
  · simp [Token.legible]
    decide
  · simp [Token.Apart, Token.loose]

theorem cast {value : List Token} (h : Legible value) {type : String}
    (word : (Token.word type).legible = true) :
    Legible (cast value type) := by
  refine append h ?_ (.inr fun _ head => by cases head; rfl)
  constructor
  · simpa [isPunctuation, Token.legible] using word
  · simp [Token.Apart, Token.loose]

theorem commas {rows : List (List Token)} (each : ∀ row ∈ rows, Legible row) :
    Legible (commas rows) := by
  induction rows with
  | nil => exact nil
  | cons row rest ih =>
    have here := each row List.mem_cons_self
    have below := ih fun other member => each other (List.mem_cons_of_mem _ member)
    cases rest with
    | nil => exact here
    | cons next others =>
      have separator : Legible (row ++ [Token.mark ',', .blank]) :=
        append here (cons rfl rfl (cons rfl rfl nil)) (.inr fun _ head => by cases head; rfl)
      exact append separator below (.inl fun _ last => by simp at last; subst last; rfl)

theorem around {left right : List Token} {token : Token} (hl : Legible left)
    (here : token.legible = true) (hr : Legible right) :
    Legible (left ++ [Token.blank, token, .blank] ++ right) := by
  have middle : Legible [.blank, token, .blank] :=
    cons rfl rfl (solid here (cons rfl rfl nil) fun _ head => by cases head; rfl)
  refine append (append hl middle (.inr fun _ head => by cases head; rfl)) hr
    (.inl fun last isLast => ?_)
  rw [List.getLast?_append_of_ne_nil _ (by simp)] at isLast
  cases isLast
  rfl

end Legible

theorem legible_aggregate (kind : RelationKind) : (Token.word (aggregate kind)).legible = true := by
  cases kind <;> decide

theorem legible_joinCondition (holder target : String) (link : Link) :
    Legible (joinCondition holder target link) :=
  .around (.column _ _) (by decide) (.column _ _)

theorem legible_orderBy (target : String) (sort : Option String) :
    Legible (orderBy target sort) := by
  cases sort with
  | none => exact .nil
  | some name =>
    have order : Legible (words ["ORDER", "BY"]) := by
      constructor
      · decide
      · simp [words, Token.Apart, Token.loose]
    exact .cons rfl rfl (.append order (.cons rfl rfl (.column target name))
      (.inr fun _ head => by cases head; rfl))

theorem loose_orderBy (target : String) (sort : Option String) :
    ∀ token ∈ (orderBy target sort).head?, token.loose = true := by
  intro token head
  cases sort <;> cases head
  rfl

theorem legible_relationColumn (holder field : String) (link : Link) (target : String)
    {select : List Token} (h : Legible select) :
    Legible (relationColumn holder field link target select) := by
  have rows : Legible
      (select ++ [Token.blank, .word "WHERE", .blank] ++ joinCondition holder target link ++
        orderBy target link.sort) :=
    .append (.around h (by decide) (legible_joinCondition holder target link))
      (legible_orderBy target link.sort) (.inr (loose_orderBy target link.sort))
  have call : Legible ([Token.word "SELECT", .blank, .word (aggregate link.kind)] ++
      parens [.name (nestedName holder field)]) := by
    have word := legible_aggregate link.kind
    have name : Legible [.name (nestedName holder field)] := .solid rfl .nil fun _ head => by
      cases head
    refine .append ?_ name.parens (.inr fun _ head => by cases head; rfl)
    exact .solid (by decide) (.cons rfl rfl (.solid word .nil fun _ head => by cases head))
      fun _ head => by cases head; rfl
  exact ((call.around (by decide) (rows.parens.named _)).parens).named field

theorem legible_branch {discriminant : List Token} (hd : Legible discriminant)
    (collections : List String) {routine : String} (word : (Token.word routine).legible = true)
    {arguments : List (List Token)} (ha : ∀ argument ∈ arguments, Legible argument) :
    Legible (branch discriminant collections routine arguments) := by
  have literals : Legible (commas (collections.map fun name => [.literal name])) := by
    refine .commas fun row member => ?_
    obtain ⟨name, _, rfl⟩ := List.mem_map.mp member
    exact .solid rfl .nil fun _ head => by cases head
  have call : Legible (.word routine :: parens (commas arguments)) :=
    .solid word (Legible.commas ha).parens fun _ head => by cases head; rfl
  have lookup :
      Legible ([Token.word "SELECT", .blank, .name "resolved", .blank, .word "FROM", .blank] ++
        named (.word routine :: parens (commas arguments)) "resolved") :=
    .append ⟨by decide, by simp [Token.Apart, Token.loose]⟩ (call.named "resolved")
      (.inl fun _ last => by cases last; rfl)
  have opening : Legible ([Token.blank, .word "WHEN", .blank] ++ discriminant) :=
    .append ⟨by decide, by simp [Token.Apart, Token.loose]⟩ hd
      (.inl fun _ last => by cases last; rfl)
  exact (opening.around (by decide) literals.parens).around (by decide) lookup.parens

/-- A branch with its targets; without targets it is left out. -/
def branchFor (discriminant item : List Token) (routes : List Route) (routine : String)
    (more : List (List Token)) : List Token :=
  if routes.isEmpty then []
  else branch discriminant (routes.map (·.collection)) routine (discriminant :: item :: more)

theorem nestedBranch_eq (discriminant item : List Token) (routes : List Route) :
    nestedBranch discriminant item routes =
      branchFor discriminant item routes "resolve_row_with_nested"
        [cast [.literal (routeMap routes)] "json"] := by
  cases routes <;> rfl

theorem flatBranch_eq (discriminant item : List Token) (routes : List Route) :
    flatBranch discriminant item routes = branchFor discriminant item routes "resolve_row" [] := by
  cases routes <;> rfl

theorem legible_branchFor {discriminant item : List Token} (hd : Legible discriminant)
    (hi : Legible item) (routes : List Route) {routine : String}
    (word : (Token.word routine).legible = true) {more : List (List Token)}
    (hm : ∀ argument ∈ more, Legible argument) :
    Legible (branchFor discriminant item routes routine more) := by
  unfold branchFor
  split
  · exact .nil
  · exact legible_branch hd _ word
      (List.forall_mem_cons.mpr ⟨hd, List.forall_mem_cons.mpr ⟨hi, hm⟩⟩)

theorem loose_branchFor (discriminant item : List Token) (routes : List Route) (routine : String)
    (more : List (List Token)) :
    ∀ token ∈ (branchFor discriminant item routes routine more).head?, token.loose = true := by
  intro token head
  cases routes <;> cases head
  rfl

theorem legible_choiceColumn (holder field discriminant : String) (routes : List Route) :
    Legible (choiceColumn holder field discriminant routes) := by
  have chosen := Legible.column holder discriminant
  have item : Legible (cast (column holder field) "text") :=
    .cast (.column holder field) (by decide)
  have opening : Legible [.word "CASE"] := .solid (by decide) .nil fun _ head => by cases head
  have map : Legible (cast [.literal (routeMap (routes.filter (·.nests)))] "json") :=
    .cast (.solid rfl .nil fun _ head => by cases head) (by decide)
  have nested :=
    opening.append
      (legible_branchFor chosen item (routes.filter (·.nests)) (by decide)
        (List.forall_mem_singleton.mpr map))
      (.inr (loose_branchFor _ _ _ "resolve_row_with_nested" _))
  have flat :=
    nested.append
      (legible_branchFor chosen item (routes.filter fun route => !route.nests) (by decide)
        (List.forall_mem_nil _))
      (.inr (loose_branchFor _ _ _ "resolve_row" _))
  have otherwise : Legible (cast [.literal "\x7b\x7d"] "json") :=
    .cast (.solid rfl .nil fun _ head => by cases head) (by decide)
  have closing : Legible [.blank, .word "END"] :=
    .cons rfl rfl (.solid (by decide) .nil fun _ head => by cases head)
  rw [choiceColumn, nestedBranch_eq, flatBranch_eq]
  exact ((flat.around (by decide) otherwise).append closing
    (.inr fun _ head => by cases head; rfl)).named field

theorem routes_eq (targets : List Shape) :
    routes targets = targets.map fun target =>
        ⟨target.collection, target.hasNested, select target⟩ := by
  induction targets with
  | nil => rfl
  | cons target rest ih => rw [routes, ih, List.map_cons]

theorem filter_routes (targets : List Shape) :
    (routes targets).filter (·.nests) = routes (targets.filter Shape.hasNested) := by
  rw [routes_eq, routes_eq, List.filter_map]
  rfl

theorem filter_flat_routes (targets : List Shape) :
    (routes targets).filter (fun route => !route.nests) =
      routes (targets.filter fun target => !target.hasNested) := by
  rw [routes_eq, routes_eq, List.filter_map]
  rfl

def columnOf (holder : String) : Field → List Token
  | .scalar _ => []
  | .relation name link target => relationColumn holder name link target.collection (select target)
  | .polymorphic name discriminant targets => choiceColumn holder name discriminant (routes targets)

theorem nestedColumns_eq (holder : String) (fields : List Field) :
    nestedColumns holder fields =
      (fields.filter Field.isNested).flatMap fun field =>
          [.mark ',', .blank] ++ columnOf holder field := by
  induction fields with
  | nil => rfl
  | cons field rest ih =>
    cases field with
    | scalar name => exact ih
    | relation name link target =>
      rw [nestedColumns, ih]
      rfl
    | polymorphic name discriminant targets =>
      rw [nestedColumns, ih]
      rfl

theorem loose_nestedColumns (holder : String) (fields : List Field) :
    ∀ token ∈ (nestedColumns holder fields).head?, token.loose = true := by
  induction fields with
  | nil => exact fun _ head => by cases head
  | cons field rest ih =>
    cases field with
    | scalar _ => exact ih
    | relation _ _ _ => exact fun _ head => by cases head; rfl
    | polymorphic _ _ _ => exact fun _ head => by cases head; rfl

mutual
theorem legible_select : (shape : Shape) → Legible (select shape)
  | .mk collection fields => by
    have opening : Legible [.word "SELECT", .blank, .name collection, .mark '.', .mark '*'] :=
      ⟨by simp [Token.legible, isPunctuation]; decide, by simp [Token.Apart, Token.loose]⟩
    have closing : Legible [.blank, .word "FROM", .blank, .name collection] :=
      ⟨by simp [Token.legible]; decide, by simp [Token.Apart, Token.loose]⟩
    have columns := legible_nestedColumns collection fields
    exact (opening.append columns (.inr (loose_nestedColumns _ _))).append closing
      (.inr fun _ head => by cases head; rfl)

theorem legible_nestedColumns (holder : String) :
    (fields : List Field) → Legible (nestedColumns holder fields)
  | [] => .nil
  | .scalar _ :: rest => legible_nestedColumns holder rest
  | .relation name link target :: rest => by
    have column := legible_relationColumn holder name link target.collection (legible_select target)
    have others := legible_nestedColumns holder rest
    exact (Legible.cons rfl rfl (.cons rfl rfl column)).append others
      (.inr (loose_nestedColumns _ _))
  | .polymorphic name discriminant targets :: rest => by
    have column := legible_choiceColumn holder name discriminant (routes targets)
    have others := legible_nestedColumns holder rest
    exact (Legible.cons rfl rfl (.cons rfl rfl column)).append others
      (.inr (loose_nestedColumns _ _))
end

/-- Reading the SELECT of a shape gives the tokens it was written from. -/
theorem lex_compile (shape : Shape) : lex (compile shape) = some (significant (select shape)) :=
  lex_text (legible_select shape)

end DocumentViews.Sql
