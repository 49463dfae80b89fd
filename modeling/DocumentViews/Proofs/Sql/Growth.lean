import DocumentViews.Proofs.Sql.Quoting
import DocumentViews.Proofs.Sql.Readability
import Mathlib.Algebra.Group.Nat.Defs
import Mathlib.Data.List.Infix
import Mathlib.Logic.Function.Iterate

/-! How quotes grow with depth.
A select in a map is written as JSON and then as part of a literal. Both go character by character,
so a column that stands so many maps deep is written as its text carried so many times, and stands
in one piece in the select of the whole. A single quote doubles each time; before a double quote the
backslashes double and one is added. The own characters of a column are written by its own depth,
whatever its map holds. -/
namespace DocumentViews

namespace Sql

/-- A text as it stands in a literal that holds JSON: escaped, then with every single quote
doubled. -/
def carried (text : List Char) : List Char :=
  (Json.Escape.encode text).flatMap (Text.Quoted.doubled literalMark)

theorem carried_append (left right : List Char) :
    carried (left ++ right) = carried left ++ carried right := by
  simp [carried, Json.Escape.encode]

theorem iterate_carried_append (depth : Nat) (left right : List Char) :
    carried^[depth] (left ++ right) = carried^[depth] left ++ carried^[depth] right := by
  induction depth with
  | zero => rfl
  | succ depth ih => simp only [Function.iterate_succ_apply', ih, carried_append]

/-- Every character is carried for itself. -/
theorem iterate_carried_eq (depth : Nat) (text : List Char) :
    carried^[depth] text = text.flatMap fun c => carried^[depth] [c] := by
  induction text with
  | nil =>
    induction depth with
    | zero => rfl
    | succ depth ih =>
      rw [Function.iterate_succ_apply', ih]
      rfl
  | cons c rest ih => rw [List.flatMap_cons, ← ih, ← iterate_carried_append, List.singleton_append]

theorem carried_within {inner outer : List Char} (inside : inner <:+: outer) :
    carried inner <:+: carried outer :=
  (inside.flatMap Json.Escape.char).flatMap (Text.Quoted.doubled literalMark)

theorem carried_replicate {c : Char} (twice : carried [c] = [c, c]) (count : Nat) :
    carried (List.replicate count c) = List.replicate (2 * count) c := by
  induction count with
  | zero => rfl
  | succ count ih =>
    have more : 2 * (count + 1) = 2 * count + 1 + 1 := by omega
    rw [List.replicate_succ, ← List.singleton_append, carried_append, twice, ih, more]
    rfl

theorem iterate_carried_single (depth : Nat) :
    carried^[depth] ['\''] = List.replicate (2 ^ depth) '\'' := by
  induction depth with
  | zero => rfl
  | succ depth ih =>
    rw [Function.iterate_succ_apply', ih, carried_replicate rfl, Nat.pow_succ, Nat.mul_comm]

theorem iterate_carried_double (depth : Nat) :
    carried^[depth] ['"'] = List.replicate (2 ^ depth - 1) '\\' ++ ['"'] := by
  induction depth with
  | zero => rfl
  | succ depth ih =>
    have positive := Nat.two_pow_pos depth
    have count : 2 ^ (depth + 1) - 1 = 2 * (2 ^ depth - 1) + 1 := by
      rw [Nat.pow_succ]
      omega
    rw [Function.iterate_succ_apply', ih, carried_append, carried_replicate rfl, count,
      List.replicate_succ', List.append_assoc]
    rfl

end Sql

structure PolymorphicColumn where
  holder : String
  field : String
  discriminant : String
  targets : List Shape

def PolymorphicColumn.chars (column : PolymorphicColumn) : List Char :=
  (Sql.choiceColumn column.holder column.field column.discriminant
    (Sql.routes column.targets)).flatMap Sql.Token.chars

/-- The column is in the shape, inside so many maps. -/
inductive Shape.Holds : Shape → Nat → PolymorphicColumn → Prop
  | here {shape : Shape} {field discriminant : String} {targets : List Shape}
      (member : .polymorphic field discriminant targets ∈ shape.fields) :
      shape.Holds 0 ⟨shape.collection, field, discriminant, targets⟩
  | joined {shape target : Shape} {field : String} {link : Link} {depth : Nat}
      {column : PolymorphicColumn} (member : .relation field link target ∈ shape.fields)
      (within : target.Holds depth column) :
      shape.Holds depth column
  | mapped {shape target : Shape} {field discriminant : String} {targets : List Shape} {depth : Nat}
      {column : PolymorphicColumn} (member : .polymorphic field discriminant targets ∈ shape.fields)
      (inside : target ∈ targets) (within : target.Holds depth column) :
        shape.Holds (depth + 1) column

/-- No polymorphic field of the shape has two targets of one collection. -/
def Shape.Unrepeated (shape : Shape) : Prop :=
  ∀ depth column, shape.Holds depth column → (column.targets.map Shape.collection).Nodup

def Field.Unrepeated : Field → Prop
  | .scalar _ => True
  | .relation _ _ target => target.Unrepeated
  | .polymorphic _ _ targets =>
    (targets.map Shape.collection).Nodup ∧ ∀ target ∈ targets, target.Unrepeated

theorem Shape.Unrepeated.field {shape : Shape} (unrepeated : shape.Unrepeated) {field : Field}
    (member : field ∈ shape.fields) : field.Unrepeated := by
  cases field with
  | scalar name => exact trivial
  | relation name link target =>
    exact fun depth column within => unrepeated depth column (.joined member within)
  | polymorphic name discriminant targets =>
    refine ⟨unrepeated 0 _ (.here member), ?_⟩
    intro target inside depth column within
    exact unrepeated (depth + 1) column (.mapped member inside within)

theorem Shape.unrepeated_mk (collection : String) (fields : List Field) :
    (Shape.mk collection fields).Unrepeated ↔ ∀ field ∈ fields, field.Unrepeated := by
  constructor
  · intro unrepeated field member
    exact unrepeated.field member
  · intro each depth column holds
    cases holds with
    | here member => exact (each _ member).1
    | joined member within => exact each _ member depth column within
    | mapped member inside within => exact (each _ member).2 _ inside _ column within

theorem Shape.Holds.hasNested {shape : Shape} {depth : Nat} {column : PolymorphicColumn}
    (holds : shape.Holds depth column) : shape.hasNested = true := by
  have nests {field : Field} (member : field ∈ shape.fields) (nested : field.isNested = true) :
      shape.hasNested = true := List.any_eq_true.mpr ⟨field, member, nested⟩
  cases holds with
  | here member => exact nests member rfl
  | joined member _ => exact nests member rfl
  | mapped member _ _ => exact nests member rfl

namespace Sql

theorem columnOf_within {shape : Shape} {field : Field} (member : field ∈ shape.fields) :
    columnOf shape.collection field <:+: select shape := by
  obtain ⟨collection, fields⟩ := shape
  have inside : columnOf collection field <:+: nestedColumns collection fields := by
    simp only [Shape.fields] at member
    induction fields with
    | nil => cases member
    | cons first rest ih =>
      rcases List.mem_cons.mp member with rfl | later
      · cases field with
        | scalar name => exact List.nil_infix
        | relation name link target => exact List.infix_append _ _ _
        | polymorphic name discriminant targets => exact List.infix_append _ _ _
      · refine (ih later).trans ?_
        cases first with
        | scalar name => exact List.infix_rfl
        | relation name link target => exact (List.suffix_append _ _).isInfix
        | polymorphic name discriminant targets => exact (List.suffix_append _ _).isInfix
  exact inside.trans (List.infix_append _ _ _)

theorem chars_within {shape : Shape} {field : Field} (member : field ∈ shape.fields) :
    (columnOf shape.collection field).flatMap Token.chars <:+: (compile shape).toList := by
  rw [compile, text, String.toList_ofList]
  exact (columnOf_within member).flatMap _

theorem compile_within_relation {shape target : Shape} {field : String} {link : Link}
    (member : .relation field link target ∈ shape.fields) :
    (compile target).toList <:+: (compile shape).toList := by
  obtain ⟨before, after, split, _⟩ :=
    relationColumn_around shape.collection field link target.collection (select target)
  have inside : select target <:+: columnOf shape.collection (.relation field link target) := by
    rw [columnOf, split]
    exact List.infix_append _ _ _
  refine List.IsInfix.trans ?_ (chars_within member)
  rw [compile, text, String.toList_ofList]
  exact inside.flatMap _

/-- A text with places in it: characters, and names that stand for texts. -/
abbrev Template := List (Char ⊕ String)

namespace Template

def own (text : List Char) : Template := text.map .inl

def fill (write : Char → List Char) (insert : String → List Char) (template : Template) :
    List Char :=
  template.flatMap (Sum.elim write insert)

@[simp]
theorem fill_nil (write : Char → List Char) (insert : String → List Char) :
    fill write insert [] = [] := rfl

@[simp]
theorem fill_char (write : Char → List Char) (insert : String → List Char) (c : Char)
    (rest : Template) :
    fill write insert (.inl c :: rest) = write c ++ fill write insert rest := rfl

@[simp]
theorem fill_name (write : Char → List Char) (insert : String → List Char) (name : String)
    (rest : Template) :
    fill write insert (.inr name :: rest) = insert name ++ fill write insert rest := rfl

@[simp]
theorem fill_append (write : Char → List Char) (insert : String → List Char)
    (left right : Template) :
    fill write insert (left ++ right) = fill write insert left ++ fill write insert right :=
  List.flatMap_append

@[simp]
theorem fill_own (write : Char → List Char) (insert : String → List Char) (text : List Char) :
    fill write insert (own text) = text.flatMap write := by
  simp [fill, own, List.flatMap_map]

def rewritten (write : Char → List Char) (template : Template) : Template :=
  template.flatMap (Sum.elim (fun c => own (write c)) fun name => [.inr name])

theorem mem_rewritten (write : Char → List Char) {template : Template} {name : String}
    (member : .inr name ∈ template) :
    .inr name ∈ template.rewritten write :=
  List.mem_flatMap.mpr ⟨.inr name, member, List.mem_singleton_self _⟩

theorem flatMap_fill (write : Char → List Char) (insert : String → List Char)
    (template : Template) :
    (template.fill (fun c => [c]) insert).flatMap write =
      (template.rewritten write).fill (fun c => [c]) fun name => (insert name).flatMap write := by
  induction template with
  | nil => rfl
  | cons place rest ih =>
    cases place with
    | inl c =>
      have first : rewritten write (.inl c :: rest) = own (write c) ++ rewritten write rest := rfl
      simp [first, ih]
    | inr name =>
      have first : rewritten write (.inr name :: rest) = .inr name :: rewritten write rest := rfl
      simp [first, ih]

theorem iterate_fill (depth : Nat) (insert : String → List Char) (template : Template) :
    carried^[depth] (template.fill (fun c => [c]) insert) =
      template.fill (fun c => carried^[depth] [c]) fun name => carried^[depth] (insert name) := by
  induction template with
  | nil => exact iterate_carried_eq depth []
  | cons place rest ih =>
    cases place with
    | inl c => rw [fill_char, fill_char, iterate_carried_append, ih]
    | inr name => rw [fill_name, fill_name, iterate_carried_append, ih]

theorem insert_within (write : Char → List Char) (insert : String → List Char) {template : Template}
    {name : String} (member : .inr name ∈ template) :
    insert name <:+: template.fill write insert := by
  obtain ⟨before, after, rfl⟩ := List.append_of_mem member
  rw [fill_append, fill_name]
  exact List.infix_append' _ _ _

end Template

def openMembers : List String → Template
  | [] => []
  | [name] => Template.own (Json.literal name ++ [':', '"']) ++ [.inr name, .inl '"']
  | name :: next :: rest =>
    Template.own (Json.literal name ++ [':', '"']) ++ [.inr name, .inl '"', .inl ','] ++
      openMembers (next :: rest)

theorem mem_openMembers {name : String} {names : List String} (member : name ∈ names) :
    .inr name ∈ openMembers names := by
  induction names with
  | nil => cases member
  | cons first rest ih =>
    cases rest with
    | nil =>
      cases List.mem_singleton.mp member
      simp [openMembers]
    | cons next others =>
      rcases List.mem_cons.mp member with rfl | later
      · simp [openMembers]
      · simp [openMembers, ih later]

theorem compactMembers_eq_fill {find : String → String} {entries : List (String × String)}
    (found : ∀ entry ∈ entries, find entry.1 = entry.2) :
    Json.compactMembers (Json.textMembers entries) =
      (openMembers (entries.map (·.1))).fill (fun c => [c]) fun name =>
          Json.Escape.encode (find name).toList := by
  induction entries with
  | nil => rfl
  | cons entry rest ih =>
    obtain ⟨here, below⟩ := List.forall_mem_cons.mp found
    cases rest with
    | nil => simp [openMembers, Json.textMembers, Json.compactMembers,
      Json.compactChars, Json.literal, here]
    | cons next others =>
      have later := ih below
      simp only [Json.textMembers, List.map_cons] at later
      simp [openMembers, Json.textMembers, Json.compactMembers, Json.compactChars,
        Json.literal, here, later]

def choiceBefore (holder field discriminant : String) (nested : List String) : List Token :=
  [Token.word "CASE", .blank, .word "WHEN", .blank] ++ column holder discriminant ++
    [Token.blank, .word "IN", .blank] ++ parens (commas (nested.map fun name => [.literal name])) ++
    [Token.blank, .word "THEN", .blank, .mark '(', .word "SELECT", .blank, .name "resolved", .blank,
      .word "FROM", .blank, .word "resolve_row_with_nested", .mark '('] ++
    column holder discriminant ++ [Token.mark ',', .blank] ++ cast (column holder field) "text" ++
      [Token.mark ',', .blank]

def choiceRest (holder field discriminant : String) (flat : List String) : List Token :=
  (if flat.isEmpty then [] else
    branch (column holder discriminant) flat "resolve_row"
      [column holder discriminant, cast (column holder field) "text"]) ++
  named ([Token.blank, .word "ELSE", .blank] ++ cast [.literal "\x7b\x7d"] "json" ++
    [.blank, .word "END"]) field

def choiceAfter (holder field discriminant : String) (flat : List String) : List Token :=
  [.mark ':', .mark ':', .word "json", .mark ')', .blank, .word "AS", .blank,
    .name "resolved", .mark ')'] ++ choiceRest holder field discriminant flat

theorem choiceColumn_mapped (holder field discriminant : String) {routes : List Route}
    (nests : routes.filter (·.nests) ≠ []) :
    choiceColumn holder field discriminant routes =
      choiceBefore holder field discriminant ((routes.filter (·.nests)).map (·.collection)) ++
        .literal (routeMap (routes.filter (·.nests))) ::
          choiceAfter holder field discriminant
            ((routes.filter fun route => !route.nests).map (·.collection)) := by
  obtain ⟨route, rest, split⟩ := List.exists_cons_of_ne_nil nests
  simp [choiceColumn, split, nestedBranch, flatBranch_eq, branchFor, branch, choiceBefore,
    choiceAfter, choiceRest, named, parens, commas, cast]

theorem choiceColumn_flat (holder field discriminant : String) {routes : List Route}
    (nests : routes.filter (·.nests) = []) :
    choiceColumn holder field discriminant routes = .word "CASE" ::
      choiceRest holder field discriminant
        ((routes.filter fun route => !route.nests).map (·.collection)) := by
  simp [choiceColumn, nests, nestedBranch, flatBranch_eq, branchFor, choiceRest, named]

def mapKeys (names : List String) : List String :=
  (NameMap.ofList (names.map fun name => (name, ()))).keys

theorem keys_selects (targets : List Shape) :
    (selects targets).keys = mapKeys (targets.map Shape.collection) := by
  have erased :=
    NameMap.entries_ofList_map (fun _ => ()) (targets.map fun target =>
      (target.collection, compile target))
  have keys := congrArg (List.map (·.1)) erased
  simpa [mapKeys, NameMap.keys, selects, Function.comp_def] using keys.symm

def openMap (names : List String) : Template :=
  .inl '\x7b' :: (openMembers (mapKeys names) ++ [.inl '\x7d'])

/-- The text of a choice with the selects in its map left open. -/
def choiceTemplate (holder field discriminant : String) (nested flat : List String) : Template :=
  if nested.isEmpty then
    .own ((.word "CASE" :: choiceRest holder field discriminant flat).flatMap Token.chars)
  else
    Template.own ((choiceBefore holder field discriminant nested).flatMap
      Token.chars ++ [literalMark]) ++
      (openMap nested).rewritten (Text.Quoted.doubled literalMark) ++
      Template.own (literalMark :: (choiceAfter holder field discriminant flat).flatMap Token.chars)

theorem mem_choiceTemplate {holder field discriminant : String} {nested flat : List String}
    {name : String} (key : name ∈ mapKeys nested) :
    .inr name ∈ choiceTemplate holder field discriminant nested flat := by
  have some : nested.isEmpty = false := by
    cases nested with
    | nil => cases key
    | cons first rest => rfl
  have place : .inr name ∈ (openMap nested).rewritten (Text.Quoted.doubled literalMark) :=
    Template.mem_rewritten _ (List.mem_cons_of_mem _ (List.mem_append_left _ (mem_openMembers key)))
  rw [choiceTemplate, some]
  exact List.mem_append_left _ (List.mem_append_right _ place)

def selectIn (targets : List Shape) (name : String) : List Char :=
  (((selects (targets.filter Shape.hasNested)).get? name).getD "").toList

theorem doubled_routeMap (targets : List Shape) (find : String → String)
    (found : ∀ entry ∈ (selects targets).entries, find entry.1 = entry.2) :
    (routeMap (routes targets)).toList.flatMap (Text.Quoted.doubled literalMark) =
      ((openMap (targets.map Shape.collection)).rewritten (Text.Quoted.doubled literalMark)).fill
        (fun c => [c]) fun name => carried (find name).toList := by
  have text : (routeMap (routes targets)).toList =
      (openMap (targets.map Shape.collection)).fill (fun c => [c])
        fun name => Json.Escape.encode (find name).toList := by
    have members := compactMembers_eq_fill found
    rw [openMap, ← keys_selects, routeMap_eq]
    simp [Json.compact, Json.compactChars, members, NameMap.keys]
  rw [text, Template.flatMap_fill]
  rfl

theorem chars_eq_fill (holder field discriminant : String) (targets : List Shape) :
    (choiceColumn holder field discriminant (routes targets)).flatMap Token.chars =
      (choiceTemplate holder field discriminant
        ((targets.filter Shape.hasNested).map Shape.collection)
        ((targets.filter fun target => !target.hasNested).map Shape.collection)).fill (fun c => [c])
        fun name => carried (selectIn targets name) := by
  have nested : ((routes targets).filter (·.nests)).map (·.collection) =
      (targets.filter Shape.hasNested).map Shape.collection := by
    rw [filter_routes, collections_routes]
  have flat : ((routes targets).filter fun route => !route.nests).map (·.collection) =
      (targets.filter fun target => !target.hasNested).map Shape.collection := by
    rw [filter_flat_routes, collections_routes]
  unfold choiceTemplate
  -- without a target that nests further there is no map and no place to fill
  by_cases none : targets.filter Shape.hasNested = []
  · rw [choiceColumn_flat _ _ _ (by rw [filter_routes, none]; rfl), flat, none]
    simp
  · have some : (routes targets).filter (·.nests) ≠ [] := by
      rw [filter_routes, routes_eq]
      exact mt List.map_eq_nil_iff.mp none
    rw [choiceColumn_mapped _ _ _ some, nested, flat, filter_routes]
    have map := doubled_routeMap (targets.filter Shape.hasNested)
      (fun name => ((selects (targets.filter Shape.hasNested)).get? name).getD "")
        (fun entry member => by
        rw [(NameMap.mem_entries_iff _ _).mp member]; rfl)
    rw [if_neg (by simpa using none)]
    simp [Token.chars, Text.Quoted.encode, map, selectIn]

theorem selectIn_collection {targets : List Shape} (distinct : (targets.map Shape.collection).Nodup)
    {target : Shape} (member : target ∈ targets) (nests : target.hasNested = true) :
    selectIn targets target.collection = (compile target).toList := by
  have kept : target ∈ targets.filter Shape.hasNested := List.mem_filter.mpr ⟨member, nests⟩
  have unrepeated : ((targets.filter Shape.hasNested).map Shape.collection).Nodup :=
    distinct.sublist (List.filter_sublist.map _)
  rw [selectIn, get?_selects_of_mem unrepeated kept]
  rfl

theorem carried_within_choice (holder field discriminant : String) {targets : List Shape}
    (distinct : (targets.map Shape.collection).Nodup) {target : Shape} (member : target ∈ targets)
    (nests : target.hasNested = true) :
    carried (compile target).toList <:+:
      (choiceColumn holder field discriminant (routes targets)).flatMap Token.chars := by
  have kept : target ∈ targets.filter Shape.hasNested := List.mem_filter.mpr ⟨member, nests⟩
  have key : target.collection ∈ mapKeys
      ((targets.filter Shape.hasNested).map Shape.collection) := by
    rw [← keys_selects]
    exact (mem_keys_selects _ _).mpr ⟨target, kept, rfl⟩
  have place : .inr target.collection ∈ choiceTemplate holder field discriminant
      ((targets.filter Shape.hasNested).map Shape.collection)
      ((targets.filter fun target => !target.hasNested).map Shape.collection) :=
    mem_choiceTemplate key
  rw [chars_eq_fill, ← selectIn_collection distinct member nests]
  exact Template.insert_within _ (fun name => carried (selectIn targets name)) place

end Sql

/-- A column that is so many maps deep stands in the select in one piece, carried so many times. -/
theorem Shape.Holds.within {shape : Shape} {depth : Nat} {column : PolymorphicColumn}
    (holds : shape.Holds depth column) (unrepeated : shape.Unrepeated) :
    Sql.carried^[depth] column.chars <:+: (Sql.compile shape).toList := by
  -- a join keeps the depth and the text; a map carries the whole select of its target once more
  induction holds with
  | here member => exact Sql.chars_within member
  | joined member _ ih =>
    exact (ih (unrepeated.field member)).trans (Sql.compile_within_relation member)
  | mapped member inside within ih =>
    obtain ⟨distinct, below⟩ := unrepeated.field member
    have inner := Sql.carried_within (ih (below _ inside))
    rw [Function.iterate_succ_apply']
    refine (inner.trans ?_).trans (Sql.chars_within member)
    exact Sql.carried_within_choice _ _ _ distinct inside within.hasNested

namespace PolymorphicColumn

/-- What a column shows of a target itself: its collection, and whether it has a select in
the map. -/
def kinds (targets : List Shape) : List (String × Bool) :=
  targets.map fun target => (target.collection, target.hasNested)

def template (column : PolymorphicColumn) : Sql.Template :=
  Sql.choiceTemplate column.holder column.field column.discriminant
    (((kinds column.targets).filter (·.2)).map (·.1))
      (((kinds column.targets).filter fun kind => !kind.2).map (·.1))

theorem chars_eq (column : PolymorphicColumn) : column.chars =
    column.template.fill (fun c => [c]) fun name =>
        Sql.carried (Sql.selectIn column.targets name) := by
  have nested : ((kinds column.targets).filter (·.2)).map (·.1) =
      (column.targets.filter Shape.hasNested).map Shape.collection := by
    simp [kinds, List.filter_map, Function.comp_def]
  have flat : ((kinds column.targets).filter fun kind => !kind.2).map (·.1) =
      (column.targets.filter fun target => !target.hasNested).map Shape.collection := by
    simp [kinds, List.filter_map, Function.comp_def]
  rw [chars, template, nested, flat, Sql.chars_eq_fill]

/-- The own characters of a column go by its own depth, whatever the targets of its map hold. -/
theorem iterate_chars (depth : Nat) (column : PolymorphicColumn) (others : List Shape)
    (same : kinds others = kinds column.targets) :
    Sql.carried^[depth] { column with targets := others }.chars =
      column.template.fill (fun c => Sql.carried^[depth] [c])
        fun name => Sql.carried^[depth + 1] (Sql.selectIn others name) := by
  rw [chars_eq, Sql.Template.iterate_fill, template, same]
  rfl

end PolymorphicColumn

/-- A column that is so many maps deep stands in the select in one piece, carried so many times:
every character for itself, a single quote as a power of two of them, a double quote behind one
backslash less than that power. What is nested below the column changes the selects in its map
and nothing else of it. -/
theorem quotes_grow_with_depth {shape : Shape} (unrepeated : shape.Unrepeated) {depth : Nat}
    {column : PolymorphicColumn} (holds : shape.Holds depth column) :
    Sql.carried^[depth] column.chars <:+: (Sql.compile shape).toList ∧
    Sql.carried^[depth] column.chars = column.chars.flatMap (fun c => Sql.carried^[depth] [c]) ∧
    Sql.carried^[depth] ['\''] = List.replicate (2 ^ depth) '\'' ∧
    Sql.carried^[depth] ['"'] = List.replicate (2 ^ depth - 1) '\\' ++ ['"'] ∧
    ∀ others : List Shape, PolymorphicColumn.kinds others = PolymorphicColumn.kinds column.targets →
      Sql.carried^[depth] { column with targets := others }.chars =
        column.template.fill (fun c => Sql.carried^[depth] [c])
          fun name => Sql.carried^[depth + 1] (Sql.selectIn others name) :=
  ⟨holds.within unrepeated, Sql.iterate_carried_eq depth _, Sql.iterate_carried_single depth,
    Sql.iterate_carried_double depth, column.iterate_chars depth⟩

/-- A column under two maps and a join, all under names full of quotes. -/
theorem quotes_grow_with_depth_hostile :
    let leaf : Shape := .mk "l\"ea'f" [.polymorphic "x'" "k\\" [.mk "p" [.scalar "id"]]]
    let middle : Shape := .mk "o'b\\j\"" [.relation "r'" ⟨.oneToMany, ⟨"t", "c\"", "k'"⟩, some "s"⟩
      (.mk "i'n" [.polymorphic "f\n" "d'" [leaf]])]
    let shape : Shape := .mk "ro'ot" [.polymorphic "it\"em" "co'll" [.mk "flat" [], middle]]
    let column : PolymorphicColumn := ⟨"l\"ea'f", "x'", "k\\", [.mk "p" [.scalar "id"]]⟩
    (shape.Unrepeated ∧ shape.Holds 2 column) ∧ Sql.carried^[2] column.chars <:+:
      (Sql.compile shape).toList := by
  intro leaf middle shape column
  have unrepeated : shape.Unrepeated := by
    simp [shape, middle, leaf, Shape.unrepeated_mk, Field.Unrepeated, Shape.collection]
  have holds : shape.Holds 2 column :=
    .mapped (.head _) (.tail _ (.head _))
      (.joined (.head _) (.mapped (.head _) (.head _) (.here (.head _))))
  exact ⟨⟨unrepeated, holds⟩, (quotes_grow_with_depth unrepeated holds).1⟩

end DocumentViews
