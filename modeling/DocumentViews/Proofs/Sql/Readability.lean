import DocumentViews.Proofs.Sql.NestedMaps
import Mathlib.Data.List.Nodup

/-! What the text of a select tells about its shape.
The text leaves some things out: plain columns, the table of a join, how to-many joins came
about, and in which places targets that nest further stand among the flat ones. The core of a
shape is the shape without these. Two shapes whose choices have targets with names of their
own give one text exactly if they have one core, so no name can make the text of one document
pass for that of another. -/
namespace DocumentViews

def Link.core (link : Link) : Link :=
  { link with
    kind := if link.kind = .manyToOne then .manyToOne else .oneToMany
    join := { link.join with table := "" } }

namespace Shape

/-- Targets with those that nest further first, each group in its order. -/
def nestedFirst (targets : List Shape) : List Shape :=
  targets.filter hasNested ++ targets.filter fun target => !target.hasNested

mutual
/-- What the text of a select shows of a shape. -/
def core : Shape → Shape
  | .mk collection fields => .mk collection (coreFields fields)

def coreFields : List Field → List Field
  | [] => []
  | .scalar _ :: rest => coreFields rest
  | .relation name link target :: rest => .relation name link.core (core target) :: coreFields rest
  | .polymorphic name discriminant targets :: rest =>
    .polymorphic name discriminant (nestedFirst (coreTargets targets)) :: coreFields rest

def coreTargets : List Shape → List Shape
  | [] => []
  | target :: rest => core target :: coreTargets rest
end

mutual
/-- Every choice in the shape has targets, and their collections tell them apart. -/
def Discerning : Shape → Prop
  | .mk _ fields => DiscerningFields fields

def DiscerningFields : List Field → Prop
  | [] => True
  | .scalar _ :: rest => DiscerningFields rest
  | .relation _ _ target :: rest => Discerning target ∧ DiscerningFields rest
  | .polymorphic _ _ targets :: rest =>
    targets ≠ [] ∧ (targets.map collection).Nodup ∧ DiscerningTargets targets ∧
      DiscerningFields rest

def DiscerningTargets : List Shape → Prop
  | [] => True
  | target :: rest => Discerning target ∧ DiscerningTargets rest
end

theorem coreTargets_eq (targets : List Shape) : coreTargets targets = targets.map core := by
  induction targets with
  | nil => rfl
  | cons target rest ih => rw [coreTargets, ih, List.map_cons]

@[simp]
theorem collection_core (shape : Shape) : shape.core.collection = shape.collection := by
  cases shape
  rfl

theorem any_coreFields (fields : List Field) :
    (coreFields fields).any Field.isNested = fields.any Field.isNested := by
  induction fields with
  | nil => rfl
  | cons field rest ih =>
    cases field with
    | scalar name => simpa [coreFields, Field.isNested] using ih
    | relation name link target => rfl
    | polymorphic name discriminant targets => rfl

@[simp]
theorem hasNested_core (shape : Shape) : shape.core.hasNested = shape.hasNested := by
  cases shape with
  | mk collection fields => exact any_coreFields fields

theorem coreFields_of_flat {fields : List Field} (flat : fields.any Field.isNested = false) :
    coreFields fields = [] := by
  induction fields with
  | nil => rfl
  | cons field rest ih =>
    cases field with
    | scalar name => exact ih (by simpa [Field.isNested] using flat)
    | relation name link target => cases flat
    | polymorphic name discriminant targets => cases flat

theorem core_of_flat {shape : Shape} (flat : shape.hasNested = false) :
    shape.core = .mk shape.collection [] := by
  cases shape with
  | mk collection fields =>
    have none : coreFields fields = [] := coreFields_of_flat flat
    rw [core, none, Shape.collection]

theorem nestedFirst_core (targets : List Shape) :
    nestedFirst (coreTargets targets) =
      (targets.filter hasNested).map core ++
        (targets.filter fun target => !target.hasNested).map core := by
  simp [nestedFirst, coreTargets_eq, List.filter_map, Function.comp_def]

/-- Targets of the same collections have the same cores if those of one collection do. -/
theorem map_core_eq {targets others : List Shape}
    (names : targets.map collection = others.map collection)
    (same : ∀ target ∈ targets, ∀ other ∈ others, target.collection = other.collection →
      target.core = other.core) :
    targets.map core = others.map core := by
  induction targets generalizing others with
  | nil =>
    rw [List.map_eq_nil_iff.mp names.symm]
  | cons target rest ih =>
    cases others with
    | nil => cases names
    | cons other left =>
      obtain ⟨here, below⟩ := List.cons.inj names
      rw [List.map_cons, List.map_cons,
        same target List.mem_cons_self other List.mem_cons_self here]
      congr 1
      apply ih below
      intro target member other found
      exact same target (List.mem_cons_of_mem _ member) other (List.mem_cons_of_mem _ found)

end Shape

namespace Sql

-- The core keeps the text.

theorem aggregate_core (link : Link) : aggregate link.core.kind = aggregate link.kind := by
  cases kind : link.kind <;> simp [Link.core, kind, aggregate]

theorem joinCondition_core (holder target : String) (link : Link) :
    joinCondition holder target link.core = joinCondition holder target link := by
  cases kind : link.kind <;> simp [Link.core, kind, joinCondition]

theorem relationColumn_core (holder field : String) (link : Link) (target : String)
    (select : List Token) :
    relationColumn holder field link.core target select =
      relationColumn holder field link target select := by
  simp only [relationColumn, aggregate_core, joinCondition_core]
  rfl

theorem choiceColumn_nestedFirst (holder field discriminant : String) (targets : List Shape) :
    choiceColumn holder field discriminant (routes (Shape.nestedFirst targets)) =
      choiceColumn holder field discriminant (routes targets) := by
  have nested : (Shape.nestedFirst targets).filter Shape.hasNested =
      targets.filter Shape.hasNested := by
    simp [Shape.nestedFirst, List.filter_append, List.filter_filter]
  have flat : (Shape.nestedFirst targets).filter (fun target => !target.hasNested) =
      targets.filter fun target => !target.hasNested := by
    simp [Shape.nestedFirst, List.filter_append, List.filter_filter]
  simp only [choiceColumn, filter_routes, filter_flat_routes, nested, flat]

mutual
theorem select_core : (shape : Shape) → select shape.core = select shape
  | .mk collection fields => by
    rw [Shape.core, select, select, nestedColumns_core collection fields]

theorem nestedColumns_core (holder : String) :
    (fields : List Field) → nestedColumns holder
    (Shape.coreFields fields) = nestedColumns holder fields
  | [] => rfl
  | .scalar _ :: rest => nestedColumns_core holder rest
  | .relation name link target :: rest => by
    rw [Shape.coreFields, nestedColumns, nestedColumns, relationColumn_core, select_core target,
      Shape.collection_core, nestedColumns_core holder rest]
  | .polymorphic name discriminant targets :: rest => by
    rw [Shape.coreFields, nestedColumns, nestedColumns, choiceColumn_nestedFirst,
      routes_core targets, nestedColumns_core holder rest]

theorem routes_core : (targets : List Shape) → routes (Shape.coreTargets targets) = routes targets
  | [] => rfl
  | target :: rest => by
    rw [Shape.coreTargets, routes, routes, select_core target, Shape.collection_core,
      Shape.hasNested_core, routes_core rest]
end

-- The text gives the tokens, and the tokens the core.

theorem select_eq_of_compile {shape other : Shape} (h : compile shape = compile other) :
    select shape = select other := by
  have texts : (select shape).flatMap Token.chars = (select other).flatMap Token.chars :=
    String.ofList_injective h
  have read := Token.readAll_chars (legible_select shape)
  rw [texts, Token.readAll_chars (legible_select other)] at read
  exact (Option.some.inj read).symm

theorem orderBy_read {target : String} {sort other : Option String} {after rest : List Token}
    (h : orderBy target sort ++ .mark ')' :: after = orderBy target other ++ .mark ')' :: rest) :
    sort = other ∧ after = rest := by
  cases sort <;> cases other <;> simp [orderBy, words, column] at h
  · exact ⟨rfl, h⟩
  · exact ⟨congrArg some h.1, h.2⟩

theorem join_read {holder target : String} {link other : Link} {after rest : List Token}
    (routines : aggregate link.kind = aggregate other.kind)
    (h : joinCondition holder target link ++ (orderBy target link.sort ++ .mark ')' :: after) =
      joinCondition holder target other ++ (orderBy target other.sort ++ .mark ')' :: rest)) :
    link.core = other.core ∧ after = rest := by
  obtain ⟨kind, ⟨table, near, far⟩, sort⟩ := link
  obtain ⟨otherKind, ⟨otherTable, otherNear, otherFar⟩, otherSort⟩ := other
  have columns : near = otherNear ∧ far = otherFar ∧ orderBy target sort ++ .mark ')' :: after =
      orderBy target otherSort ++ .mark ')' :: rest := by
    cases kind <;> cases otherKind <;> simp_all [aggregate, joinCondition, column]
  obtain ⟨rfl, rfl, order⟩ := columns
  obtain ⟨rfl, rfl⟩ := orderBy_read order
  cases kind <;> cases otherKind <;> simp_all [aggregate, Link.core]

theorem relationColumn_read {holder name field : String} {link other : Link} {target found : Shape}
    {after rest : List Token}
    (reads : ∀ {after rest}, select target ++ after = select found ++ rest →
      target.core = found.core ∧ after = rest)
    (h : relationColumn holder name link target.collection (select target) ++ after =
      relationColumn holder field other found.collection (select found) ++ rest) :
    Field.relation name link.core target.core = .relation field other.core found.core ∧
      after = rest := by
  simp only [relationColumn, named, parens, List.append_assoc, List.cons_append, List.nil_append,
    List.cons.injEq, Token.word.injEq, true_and] at h
  obtain ⟨routines, -, body⟩ := h
  obtain ⟨cores, body⟩ := reads body
  have same : target.collection = found.collection := by
    rw [← Shape.collection_core target, cores, Shape.collection_core]
  rw [same] at body
  simp only [List.cons.injEq, true_and] at body
  obtain ⟨links, closing⟩ := join_read routines body
  simp only [List.cons.injEq, Token.name.injEq, true_and] at closing
  obtain ⟨-, rfl, rfl⟩ := closing
  rw [links, cores]
  exact ⟨rfl, rfl⟩

theorem literals_read {names others : List String} {after rest : List Token}
    (h : commas (names.map fun name => [.literal name]) ++ .mark ')' :: after =
      commas (others.map fun name => [.literal name]) ++ .mark ')' :: rest) :
    names = others ∧ after = rest := by
  induction names generalizing others with
  | nil =>
    rcases others with _ | ⟨other, _ | ⟨following, left⟩⟩ <;> simp [commas] at h
    exact ⟨rfl, h⟩
  | cons name below ih =>
    rcases below with _ | ⟨next, below⟩ <;>
      rcases others with _ | ⟨other, _ | ⟨following, left⟩⟩ <;>
      simp only [List.map_cons, List.map_nil, commas, List.cons_append, List.nil_append,
        List.cons.injEq, Token.literal.injEq, Token.mark.injEq, true_and, reduceCtorEq, false_and,
        and_false, Char.reduceEq] at h
    · obtain ⟨rfl, rfl⟩ := h
      exact ⟨rfl, rfl⟩
    · obtain ⟨rfl, h⟩ := h
      obtain ⟨same, rfl⟩ := @ih (following :: left) h
      exact ⟨congrArg _ same, rfl⟩

theorem branch_read {holder discriminant other : String} {collections found : List String}
    {routine call : String} {arguments handed : List (List Token)} {after rest : List Token}
    (h : branch (column holder discriminant) collections routine arguments ++ after =
      branch (column holder other) found call handed ++ rest) :
    discriminant = other ∧ collections = found ∧ routine = call ∧
      commas arguments ++ .mark ')' ::
        ([.blank, .word "AS", .blank, .name "resolved", .mark ')'] ++ after) =
        commas handed ++ .mark ')' ::
          ([.blank, .word "AS", .blank, .name "resolved", .mark ')'] ++ rest) := by
  simp only [branch, named, parens, column, List.append_assoc, List.cons_append, List.nil_append,
    List.cons.injEq, Token.name.injEq, true_and] at h
  obtain ⟨discriminants, h⟩ := h
  obtain ⟨names, h⟩ := literals_read h
  simp only [List.cons.injEq, Token.word.injEq, true_and] at h
  exact ⟨discriminants, names, h⟩

/-- Tokens that do not open with a branch for a routine. -/
def Past (holder routine : String) (tokens : List Token) : Prop :=
  ∀ discriminant collections arguments after,
    tokens ≠ branch (column holder discriminant) collections routine arguments ++ after

theorem past_else (holder routine : String) (tokens : List Token) :
    Past holder routine (.blank :: .word "ELSE" :: tokens) := by
  intro discriminant collections arguments after h
  simp [branch] at h

theorem past_branchFor {holder discriminant : String} {item : List Token} {routes : List Route}
    {routine call : String} {more : List (List Token)} {after : List Token}
    (different : routine ≠ call) (past : Past holder call after) :
    Past holder call
      (branchFor (column holder discriminant) item routes routine more ++ after) := by
  unfold branchFor
  split
  · exact past
  · intro _ _ _ _ h
    exact different (branch_read h).2.2.1

theorem branchFor_read {holder discriminant other : String} {item piece : List Token}
    {routes found : List Route} {routine : String} {more rows : List (List Token)}
    {after rest : List Token} (past : Past holder routine after) (beyond : Past holder routine rest)
    (calls : ∀ {after rest}, commas (column holder discriminant :: item :: more) ++
      .mark ')' :: after = commas (column holder other :: piece :: rows) ++ .mark ')' :: rest →
      more = rows ∧ after = rest)
    (h : branchFor (column holder discriminant) item routes routine more ++ after =
      branchFor (column holder other) piece found routine rows ++ rest) :
    routes.map (·.collection) = found.map (·.collection) ∧
      (routes ≠ [] → discriminant = other ∧ more = rows) ∧ after = rest := by
  unfold branchFor at h
  cases routes with
  | nil =>
    cases found with
    | nil => exact ⟨rfl, fun filled => absurd rfl filled, h⟩
    | cons route left => exact absurd h (past _ _ _ _)
  | cons route left =>
    cases found with
    | nil => exact absurd h.symm (beyond _ _ _ _)
    | cons next others =>
      obtain ⟨discriminants, names, -, arguments⟩ := branch_read h
      obtain ⟨same, closing⟩ := calls arguments
      exact ⟨names, fun _ => ⟨discriminants, same⟩, List.append_cancel_left closing⟩

/-- Targets with one map of selects have the same select for the same collection. -/
theorem routeMap_read {targets others : List Shape}
    (h : routeMap (routes targets) = routeMap (routes others)) :
    selects targets = selects others := by
  have read := read_routeMap targets
  rw [h, read_routeMap others] at read
  have members := congrArg Json.texts? (Option.some.inj read)
  rw [texts?_textMembers, texts?_textMembers] at members
  exact NameMap.ext (Option.some.inj members).symm

theorem get?_selects_of_mem {targets : List Shape} (distinct : (targets.map Shape.collection).Nodup)
    {target : Shape} (member : target ∈ targets) :
    (selects targets).get? target.collection = some (compile target) := by
  have listed :
      (targets.reverse.find? fun other => other.collection = target.collection).isSome := by
    rw [List.find?_isSome]
    exact ⟨target, List.mem_reverse.mpr member, decide_eq_true rfl⟩
  obtain ⟨last, found⟩ := Option.isSome_iff_exists.mp listed
  have same : last.collection = target.collection := by simpa using List.find?_some found
  have here : last ∈ targets := List.mem_reverse.mp (List.mem_of_find?_eq_some found)
  rw [get?_selects, found, List.inj_on_of_nodup_map distinct here member same]
  cases target
  rfl

/-- Targets in one order with one map of selects have the same cores, if their selects are
read alike. -/
theorem map_core_of_selects {targets others : List Shape}
    (distinct : (targets.map Shape.collection).Nodup)
    (names : targets.map Shape.collection = others.map Shape.collection)
    (maps : selects targets = selects others)
    (reads : ∀ target ∈ targets, ∀ other, select target = select other → target.core = other.core) :
    targets.map Shape.core = others.map Shape.core := by
  apply Shape.map_core_eq names
  intro target member other found same
  apply reads target member other
  apply select_eq_of_compile
  apply Option.some.inj
  rw [← get?_selects_of_mem distinct member,
    ← get?_selects_of_mem (names ▸ distinct) found, maps, same]

theorem map_core_of_flat {targets others : List Shape}
    (flat : ∀ target ∈ targets, target.hasNested = false)
    (plain : ∀ other ∈ others, other.hasNested = false)
    (names : targets.map Shape.collection = others.map Shape.collection) :
    targets.map Shape.core = others.map Shape.core := by
  apply Shape.map_core_eq names
  intro target member other found same
  rw [Shape.core_of_flat (flat target member), Shape.core_of_flat (plain other found), same]

theorem map_collection_routes (targets : List Shape) :
    (routes targets).map (·.collection) = targets.map Shape.collection := by
  rw [routes_eq, List.map_map]
  rfl

theorem routes_ne_nil {targets : List Shape} (inhabited : targets ≠ []) : routes targets ≠ [] := by
  rw [routes_eq]
  exact mt List.map_eq_nil_iff.mp inhabited

/-- What the column of a choice tells: its field and both groups of targets, with the map of
the group that has one. The discriminant stands in the branches, so a choice without targets
does not show it. -/
theorem choiceColumn_tells {holder name field discriminant other : String}
    {targets found : List Shape} {after rest : List Token}
    (h : choiceColumn holder name discriminant (routes targets) ++ after =
      choiceColumn holder field other (routes found) ++ rest) :
    name = field ∧ (targets ≠ [] → discriminant = other) ∧
      (targets.filter Shape.hasNested).map Shape.collection =
        (found.filter Shape.hasNested).map Shape.collection ∧
      (targets.filter fun target => !target.hasNested).map Shape.collection =
        (found.filter fun target => !target.hasNested).map Shape.collection ∧
      (targets.filter Shape.hasNested ≠ [] →
        selects (targets.filter Shape.hasNested) = selects (found.filter Shape.hasNested)) ∧
      after = rest := by
  simp only [choiceColumn, nestedBranch_eq, flatBranch_eq, filter_routes, filter_flat_routes, named,
    List.append_assoc, List.cons_append, List.nil_append, List.cons.injEq, true_and] at h
  obtain ⟨nestedNames, nested, h⟩ := branchFor_read
    (past_branchFor (by decide) (past_else _ _ _)) (past_branchFor (by decide) (past_else _ _ _))
    (by simp [commas, column, cast]) h
  obtain ⟨flatNames, flat, h⟩ :=
    branchFor_read (past_else _ _ _) (past_else _ _ _) (by simp [commas, column, cast]) h
  simp only [List.cons.injEq, List.append_cancel_left_eq, Token.name.injEq, true_and] at h
  rw [map_collection_routes, map_collection_routes] at nestedNames flatNames
  refine ⟨h.1, ?_, nestedNames, flatNames, ?_, h.2⟩
  · intro inhabited
    obtain ⟨target, member⟩ := List.exists_mem_of_ne_nil targets inhabited
    cases nests : target.hasNested with
    | true =>
      have among := List.mem_filter.mpr ⟨member, nests⟩
      exact (nested (routes_ne_nil (List.ne_nil_of_mem among))).1
    | false =>
      have among : target ∈ targets.filter fun target => !target.hasNested :=
        List.mem_filter.mpr ⟨member, by simp [nests]⟩
      exact (flat (routes_ne_nil (List.ne_nil_of_mem among))).1
  · intro inhabited
    apply routeMap_read
    simpa [cast] using (nested (routes_ne_nil inhabited)).2

theorem choiceColumn_read {holder name field discriminant other : String}
    {targets found : List Shape} {after rest : List Token} (inhabited : targets ≠ [])
    (distinct : (targets.map Shape.collection).Nodup)
    (reads : ∀ target ∈ targets, ∀ other, select target = select other → target.core = other.core)
    (h : choiceColumn holder name discriminant (routes targets) ++ after =
      choiceColumn holder field other (routes found) ++ rest) :
    Field.polymorphic name discriminant (Shape.nestedFirst (Shape.coreTargets targets)) =
      .polymorphic field other (Shape.nestedFirst (Shape.coreTargets found)) ∧ after = rest := by
  obtain ⟨rfl, discriminants, nestedNames, flatNames, maps, rfl⟩ := choiceColumn_tells h
  have nested : (targets.filter Shape.hasNested).map Shape.core =
      (found.filter Shape.hasNested).map Shape.core := by
    by_cases none : targets.filter Shape.hasNested = []
    · rw [none] at nestedNames ⊢
      rw [List.map_eq_nil_iff.mp nestedNames.symm]
    · refine map_core_of_selects (distinct.sublist (List.filter_sublist.map _)) nestedNames
        (maps none) ?_
      intro target member
      exact reads target (List.mem_of_mem_filter member)
  have flat : (targets.filter fun target => !target.hasNested).map Shape.core =
      (found.filter fun target => !target.hasNested).map Shape.core :=
    map_core_of_flat (by simp) (by simp) flatNames
  rw [Shape.nestedFirst_core, Shape.nestedFirst_core, nested, flat, discriminants inhabited]
  exact ⟨rfl, rfl⟩

-- The induction is on the first shape. The second one is taken apart alongside, and alone only at
-- its plain columns, which leave no tokens.
mutual
/-- A select is read in one way, whatever follows it. -/
theorem select_read : (shape other : Shape) → shape.Discerning → ∀ {after rest},
    select shape ++ after = select other ++ rest → shape.core = other.core ∧ after = rest
  | .mk collection fields, .mk name others, discerning, after, rest, h => by
    simp only [select, List.append_assoc, List.cons_append, List.nil_append, List.cons.injEq,
      Token.name.injEq, true_and] at h
    obtain ⟨rfl, h⟩ := h
    obtain ⟨same, h⟩ := nestedColumns_read collection fields others discerning h
    simp only [List.cons.injEq, true_and] at h
    exact ⟨by rw [Shape.core, Shape.core, same], h⟩
termination_by shape other => (sizeOf shape, sizeOf other)

theorem nestedColumns_read (holder : String) :
    (fields others : List Field) → Shape.DiscerningFields fields →
    ∀ {after rest},
      nestedColumns holder fields ++ .blank :: after =
        nestedColumns holder others ++ .blank :: rest →
      Shape.coreFields fields = Shape.coreFields others ∧ after = rest
  | .scalar _ :: fields, others, discerning, after, rest, h =>
    nestedColumns_read holder fields others discerning h
  | fields, .scalar _ :: others, discerning, after, rest, h =>
    nestedColumns_read holder fields others discerning h
  | [], [], _, after, rest, h => ⟨rfl, (List.cons.inj h).2⟩
  | .relation name link target :: fields, .relation field other found :: others, ⟨here, below⟩,
      after, rest, h => by
    simp only [nestedColumns, List.append_assoc, List.append_cancel_left_eq] at h
    obtain ⟨first, h⟩ := relationColumn_read (select_read target found here) h
    obtain ⟨more, h⟩ := nestedColumns_read holder fields others below h
    rw [Shape.coreFields, Shape.coreFields, first, more]
    exact ⟨rfl, h⟩
  | .polymorphic name discriminant targets :: fields, .polymorphic field other found :: others,
      ⟨inhabited, distinct, each, below⟩, after, rest, h => by
    simp only [nestedColumns, List.append_assoc, List.append_cancel_left_eq] at h
    obtain ⟨first, h⟩ := choiceColumn_read inhabited distinct (targets_read targets each) h
    obtain ⟨more, h⟩ := nestedColumns_read holder fields others below h
    rw [Shape.coreFields, Shape.coreFields, first, more]
    exact ⟨rfl, h⟩
  | [], .relation .. :: _, _, _, _, h => by simp [nestedColumns] at h
  | [], .polymorphic .. :: _, _, _, _, h => by simp [nestedColumns] at h
  | .relation .. :: _, [], _, _, _, h => by simp [nestedColumns] at h
  | .polymorphic .. :: _, [], _, _, _, h => by simp [nestedColumns] at h
  | .relation .. :: _, .polymorphic .. :: _, _, _, _, h => by
    simp [nestedColumns, relationColumn, choiceColumn, named, parens] at h
  | .polymorphic .. :: _, .relation .. :: _, _, _, _, h => by
    simp [nestedColumns, relationColumn, choiceColumn, named, parens] at h
termination_by fields others => (sizeOf fields, sizeOf others)

theorem targets_read :
    (targets : List Shape) → Shape.DiscerningTargets targets → ∀ target ∈ targets, ∀ other,
    select target = select other → target.core = other.core
  | target :: rest, discerning, found, member, other, h => by
    rcases List.mem_cons.mp member with here | there
    · rw [here] at h ⊢
      exact (select_read target other discerning.1 (congrArg (· ++ []) h)).1
    · exact targets_read rest discerning.2 found there other h
termination_by targets => (sizeOf targets, 0)
end

/-- The text of a select and the core of its shape determine each other. It is enough that one of
the shapes has choices with targets that can be told apart. -/
theorem compile_eq_iff_core_eq {shape other : Shape} (discerning : shape.Discerning) :
    compile shape = compile other ↔ shape.core = other.core := by
  constructor
  · intro h
    have tokens := select_eq_of_compile h
    exact (select_read shape other discerning (congrArg (· ++ []) tokens)).1
  · intro h
    rw [compile, compile, ← select_core shape, ← select_core other, h]

/-- Two shapes under names full of quotes that differ in all that the text leaves out have one text;
two targets and one whose name imitates the list of both do not. -/
theorem compile_eq_iff_core_eq_hostile :
    let nested : Shape := .mk "ne\"st" [.polymorphic "p'" "q" [.mk "leaf" [.scalar "id"]]]
    let first : Shape := .mk "ro'ot" [.scalar "id",
      .relation "fi\"eld" ⟨.oneToMany, ⟨"table", "c'", "k\""⟩, some "s"⟩ (.mk "x\" y" []),
      .polymorphic "it'em" "d\\" [.mk "flat'" [.scalar "n"], nested]]
    let second : Shape := .mk "ro'ot" [
      .relation "fi\"eld" ⟨.manyToAny, ⟨"elsewhere", "c'", "k\""⟩, some "s"⟩
        (.mk "x\" y" [.scalar "more"]),
      .polymorphic "it'em" "d\\" [nested, .mk "flat'" []], .scalar "last"]
    let both : Shape := .mk "pages" [.polymorphic "item" "kind" [.mk "a" [], .mk "b" []]]
    let imitation : Shape := .mk "pages" [.polymorphic "item" "kind" [.mk "a', 'b" []]]
    first.Discerning ∧ first ≠ second ∧ compile first = compile second ∧
      both.Discerning ∧ compile both ≠ compile imitation := by
  intro nested first second both imitation
  have told : first.Discerning := by
    simp [first, nested, Shape.Discerning, Shape.DiscerningFields,
      Shape.DiscerningTargets, Shape.collection]
  have apart : both.Discerning := by
    simp [both, Shape.Discerning, Shape.DiscerningFields, Shape.DiscerningTargets, Shape.collection]
  have different : both.core ≠ imitation.core := by
    simp [both, imitation, Shape.core, Shape.coreFields, Shape.coreTargets, Shape.nestedFirst,
      Shape.hasNested, Shape.fields]
  exact ⟨told, by simp [first, second], (compile_eq_iff_core_eq told).mpr rfl, apart,
    mt (compile_eq_iff_core_eq apart).mp different⟩

end Sql

end DocumentViews
