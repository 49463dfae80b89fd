import DocumentViews.Proofs.Resolution.Visited
import Mathlib.Data.List.Forall2
import Mathlib.Data.Set.Card

/-! The paths of a shape are its maximal chains.
A node may occur several times in a shape, so an occurrence is told by its site: which child is
taken at each step down. The paths belong to the sites of all nodes without children, one to one and
from left to right, and every chain of the shape goes on to one of them. -/
namespace DocumentViews.Shape

def children (shape : Shape) : List Shape := shape.fields.flatMap Field.targets

theorem mem_children {shape target : Shape} :
    target ∈ shape.children ↔ ∃ field ∈ shape.fields, target ∈ field.targets := List.mem_flatMap

/-- The way down to the node of a site, with the collections that it passes. -/
inductive Descends : Shape → List Nat → List String → Shape → Prop
  | here (shape : Shape) : Descends shape [] [shape.collection] shape
  | down {shape child node : Shape} {i : Nat} {site : List Nat} {chain : List String}
      (found : shape.children[i]? = some child) (below : Descends child site chain node) :
      Descends shape (i :: site) (shape.collection :: chain) node

/-- A site whose node has no children, with the collections on the way to it. -/
def LeafAt (shape : Shape) (site : List Nat) (chain : List String) : Prop :=
  ∃ leaf, shape.Descends site chain leaf ∧ leaf.children = []

theorem Descends.step {shape node target : Shape} {site : List Nat} {chain : List String} {i : Nat}
    (h : shape.Descends site chain node) (found : node.children[i]? = some target) :
    shape.Descends (site ++ [i]) (chain ++ [target.collection]) target := by
  induction h with
  | here shape => exact .down found (.here target)
  | down above _ ih => exact .down above (ih found)

theorem Node.descends {shape node : Shape} {above : List String} (h : shape.Node above node) :
    ∃ site, shape.Descends site (node.collection :: above).reverse node := by
  induction h with
  | root => exact ⟨[], .here shape⟩
  | @step above node target field _ member leads ih =>
    obtain ⟨site, down⟩ := ih
    obtain ⟨i, found⟩ := List.mem_iff_getElem?.mp (mem_children.mpr ⟨field, member, leads⟩)
    refine ⟨site ++ [i], ?_⟩
    rw [List.reverse_cons]
    exact down.step found

/-! What the paths of a shape are in terms of those of its children. -/

theorem pathsOfTargets_eq (targets : List Shape) :
    pathsOfTargets targets = targets.flatMap paths := by
  induction targets with
  | nil => rfl
  | cons target rest ih => rw [pathsOfTargets, ih, List.flatMap_cons]

theorem pathsOfFields_eq (fields : List Field) :
    pathsOfFields fields = (fields.flatMap Field.targets).flatMap paths := by
  induction fields with
  | nil => rfl
  | cons field rest ih =>
    cases field with
    | scalar name => rw [pathsOfFields, ih, List.flatMap_cons, Field.targets, List.nil_append]
    | relation name link target =>
      rw [pathsOfFields, ih, List.flatMap_cons, Field.targets,
        List.singleton_append, List.flatMap_cons]
    | polymorphic name discriminant targets =>
      rw [pathsOfFields, ih, pathsOfTargets_eq, List.flatMap_cons,
        Field.targets, List.flatMap_append]

theorem paths_ne_nil (shape : Shape) : shape.paths ≠ [] := by
  obtain ⟨collection, fields⟩ := shape
  rw [paths]
  split
  · exact List.cons_ne_nil _ _
  · rename_i some
    simpa using some

theorem paths_of_leaf {shape : Shape} (leaf : shape.children = []) :
    shape.paths = [[shape.collection]] := by
  obtain ⟨collection, fields⟩ := shape
  have none : pathsOfFields fields = [] := by
    rw [pathsOfFields_eq]
    exact congrArg (List.flatMap paths) leaf
  rw [paths, none]
  rfl

theorem paths_of_children {shape : Shape} (some : shape.children ≠ []) :
    shape.paths = (shape.children.flatMap paths).map (shape.collection :: ·) := by
  obtain ⟨collection, fields⟩ := shape
  obtain ⟨child, member⟩ := List.exists_mem_of_ne_nil _ some
  have filled : pathsOfFields fields ≠ [] := by
    rw [pathsOfFields_eq]
    exact fun empty => paths_ne_nil child (List.flatMap_eq_nil_iff.mp empty child member)
  rw [paths]
  split
  · rename_i empty
    exact absurd empty filled
  · rw [pathsOfFields_eq]
    rfl

theorem cons_mem_paths {shape child : Shape} {path : List String} (member : child ∈ shape.children)
    (below : path ∈ child.paths) : shape.collection :: path ∈ shape.paths := by
  rw [paths_of_children (List.ne_nil_of_mem member)]
  exact List.mem_map_of_mem (List.mem_flatMap.mpr ⟨child, member, below⟩)

theorem head?_of_mem_paths {shape : Shape} {path : List String} (member : path ∈ shape.paths) :
    path.head? = some shape.collection := by
  by_cases leaf : shape.children = []
  · rw [paths_of_leaf leaf] at member
    rw [List.mem_singleton.mp member, List.head?_cons]
  · rw [paths_of_children leaf] at member
    obtain ⟨rest, _, rfl⟩ := List.mem_map.mp member
    rw [List.head?_cons]

/-- Every chain goes on to a path. -/
theorem Descends.prefix_path {shape node : Shape} {site : List Nat} {chain : List String}
    (h : shape.Descends site chain node) : ∃ path ∈ shape.paths, chain <+: path := by
  induction h with
  | here shape =>
    obtain ⟨path, member⟩ := List.exists_mem_of_ne_nil _ shape.paths_ne_nil
    obtain ⟨rest, rfl⟩ := List.head?_eq_some_iff.mp (head?_of_mem_paths member)
    exact ⟨_, member, rest, rfl⟩
  | @down shape child node i site chain found below ih =>
    obtain ⟨path, member, start⟩ := ih
    exact ⟨_, cons_mem_paths (List.mem_of_getElem? found) member,
      List.cons_prefix_cons.mpr ⟨rfl, start⟩⟩

/-! The sites of the paths. -/

/-- Sites from left to right, each with its path, that leave none out. -/
structure Marks (found : List Nat → List String → Prop) (sites : List (List Nat))
    (paths : List (List String)) :
    Prop where
  rising : sites.Pairwise (· < ·)
  each : List.Forall₂ found sites paths
  all : ∀ site chain, found site chain → site ∈ sites

namespace Marks

variable {found : List Nat → List String → Prop} {sites : List (List Nat)}
    {paths : List (List String)}

theorem of_mem (h : Marks found sites paths) {site : List Nat} (member : site ∈ sites) :
    ∃ chain, found site chain := by
  obtain ⟨i, at_site⟩ := List.mem_iff_getElem.mp member
  obtain ⟨bound, rfl⟩ := at_site
  exact ⟨_, h.each.get bound (h.each.length_eq ▸ bound)⟩

theorem append {later : List Nat → List String → Prop} {sites' : List (List Nat)}
    {paths' : List (List String)} (i : Nat) (h : Marks found sites paths)
    (h' : Marks later sites' paths') (apart : ∀ site chain, later site chain → ∃ j rest,
      i < j ∧ site = j :: rest) :
    Marks (fun site chain => (∃ rest, site = i :: rest ∧ found rest chain) ∨ later site chain)
      (sites.map (i :: ·) ++ sites') (paths ++ paths') where
  rising := by
    refine List.pairwise_append.mpr ⟨?_, h'.rising, ?_⟩
    · rw [List.pairwise_map]
      exact h.rising.imp fun before => List.cons_lt_cons_iff.mpr (.inr ⟨rfl, before⟩)
    · intro site left other right
      obtain ⟨rest, _, rfl⟩ := List.mem_map.mp left
      obtain ⟨chain, there⟩ := h'.of_mem right
      obtain ⟨j, rest', before, rfl⟩ := apart other chain there
      exact List.cons_lt_cons_iff.mpr (.inl before)
  each := by
    refine List.rel_append ?_ (h'.each.imp fun _ _ => .inr)
    rw [List.forall₂_map_left_iff]
    exact h.each.imp fun rest _ here => .inl ⟨rest, rfl, here⟩
  all := by
    rintro site chain (⟨rest, rfl, here⟩ | there)
    · exact List.mem_append_left _ (List.mem_map_of_mem (h.all rest chain here))
    · exact List.mem_append_right _ (h'.all site chain there)

theorem map_cons (h : Marks found sites paths) (collection : String) :
    Marks (fun site chain => ∃ below, chain = collection :: below ∧ found site below) sites
      (paths.map (collection :: ·)) where
  rising := h.rising
  each := by
    rw [List.forall₂_map_right_iff]
    exact h.each.imp fun _ below here => ⟨below, rfl, here⟩
  all := by
    rintro site chain ⟨below, _, here⟩
    exact h.all site below here

end Marks

def LeafBelow (row : List Shape) (start : Nat) (site : List Nat) (chain : List String) : Prop :=
  ∃ i rest child, site = (start + i) :: rest ∧ row[i]? = some child ∧ child.LeafAt rest chain

theorem leafBelow_cons {child : Shape} {row : List Shape} {start : Nat} {site : List Nat}
    {chain : List String} :
    LeafBelow (child :: row) start site chain ↔
      (∃ rest, site = start :: rest ∧ child.LeafAt rest chain) ∨
        LeafBelow row (start + 1) site chain := by
  constructor
  · rintro ⟨i, rest, other, rfl, found, leaf⟩
    cases i with
    | zero =>
      cases Option.some.inj found
      exact .inl ⟨rest, rfl, leaf⟩
    | succ i => exact .inr ⟨i, rest, other, by rw [Nat.add_assoc, Nat.add_comm 1], found, leaf⟩
  · rintro (⟨rest, rfl, leaf⟩ | ⟨i, rest, other, rfl, found, leaf⟩)
    · exact ⟨0, rest, child, rfl, rfl, leaf⟩
    · exact ⟨i + 1, rest, other, by rw [Nat.add_assoc, Nat.add_comm 1], found, leaf⟩

theorem marks_row {row : List Shape}
    (each : ∀ child ∈ row, ∃ sites, Marks child.LeafAt sites child.paths) (start : Nat) :
    ∃ sites, Marks (LeafBelow row start) sites (row.flatMap paths) := by
  induction row generalizing start with
  | nil => exact ⟨[], .nil, .nil, nofun⟩
  | cons child rest ih =>
    obtain ⟨sites, here⟩ := each child List.mem_cons_self
    obtain ⟨others, there⟩ :=
      ih (fun other member => each other (List.mem_cons_of_mem _ member)) (start + 1)
    refine ⟨sites.map (start :: ·) ++ others, ?_⟩
    have split : LeafBelow (child :: rest) start = fun site chain =>
        (∃ below, site = start :: below ∧ child.LeafAt below chain) ∨
          LeafBelow rest (start + 1) site chain :=
      funext fun _ => funext fun _ => propext leafBelow_cons
    rw [List.flatMap_cons, split]
    apply here.append start there
    rintro site chain ⟨i, below, _, rfl, _⟩
    exact ⟨_, below, by omega, rfl⟩

theorem leafAt_of_leaf {shape : Shape} (leaf : shape.children = []) {site : List Nat}
    {chain : List String} :
    shape.LeafAt site chain ↔ site = [] ∧ chain = [shape.collection] := by
  constructor
  · rintro ⟨node, here | ⟨found, _⟩, _⟩
    · exact ⟨rfl, rfl⟩
    · rw [leaf] at found
      cases found
  · rintro ⟨rfl, rfl⟩
    exact ⟨shape, .here shape, leaf⟩

theorem leafAt_of_children {shape : Shape} (some : shape.children ≠ []) {site : List Nat}
    {chain : List String} :
    shape.LeafAt site chain ↔
      ∃ below, chain = shape.collection :: below ∧ LeafBelow shape.children 0 site below := by
  constructor
  · rintro ⟨node, here | @⟨_, child, _, i, rest, below, found, down⟩, leaf⟩
    · exact absurd leaf some
    · exact ⟨below, rfl, i, rest, child, by rw [Nat.zero_add], found, node, down, leaf⟩
  · rintro ⟨below, rfl, i, rest, child, rfl, found, node, down, leaf⟩
    rw [Nat.zero_add]
    exact ⟨node, .down found down, leaf⟩

theorem sizeOf_child {shape child : Shape} (member : child ∈ shape.children) :
    sizeOf child < sizeOf shape := by
  obtain ⟨collection, fields⟩ := shape
  obtain ⟨field, held, leads⟩ := mem_children.mp member
  have inFields : sizeOf field < sizeOf fields := List.sizeOf_lt_of_mem held
  have inField : sizeOf child < sizeOf field := by
    cases field with
    | scalar name => cases leads
    | relation name link target =>
      cases List.mem_singleton.mp leads
      simp
    | polymorphic name discriminant targets =>
      have inTargets : sizeOf child < sizeOf targets := List.sizeOf_lt_of_mem leads
      simp only [Field.polymorphic.sizeOf_spec]
      omega
  simp only [Shape.mk.sizeOf_spec]
  omega

theorem marks_paths (shape : Shape) : ∃ sites, Marks shape.LeafAt sites shape.paths := by
  by_cases leaf : shape.children = []
  · have found : shape.LeafAt = fun site chain => site = [] ∧ chain = [shape.collection] :=
      funext fun _ => funext fun _ => propext (leafAt_of_leaf leaf)
    rw [found, paths_of_leaf leaf]
    exact ⟨[[]], List.pairwise_singleton _ _, .cons ⟨rfl, rfl⟩ .nil, fun _ _ here =>
      List.mem_singleton.mpr here.1⟩
  · have found : shape.LeafAt = fun site chain =>
        ∃ below, chain = shape.collection :: below ∧ LeafBelow shape.children 0 site below :=
      funext fun _ => funext fun _ => propext (leafAt_of_children leaf)
    -- The sites below a node are those below its children, numbered from left to right.
    obtain ⟨sites, below⟩ := marks_row (fun child member => marks_paths child) 0
    rw [found, paths_of_children leaf]
    exact ⟨sites, below.map_cons shape.collection⟩
termination_by sizeOf shape
decreasing_by exact sizeOf_child member

theorem ncard_leaves {shape : Shape} {sites : List (List Nat)}
    (h : Marks shape.LeafAt sites shape.paths) :
    {site | ∃ chain, shape.LeafAt site chain}.ncard = shape.paths.length := by
  have same : {site | ∃ chain, shape.LeafAt site chain} = ↑sites.toFinset := by
    rw [List.coe_toFinset]
    ext site
    exact ⟨fun ⟨chain, leaf⟩ => h.all site chain leaf, h.of_mem⟩
  have distinct : sites.Nodup := h.rising.imp fun before => ne_of_lt before
  rw [same, Set.ncard_coe_finset, List.toFinset_card_of_nodup distinct, h.each.length_eq]

/-- The paths of a shape are the chains from its root to every node without children: from left to
right, one for each such node, and every chain of the shape is the front of one. -/
theorem paths_are_maximal_chains (shape : Shape) :
    (∃ sites : List (List Nat), sites.Pairwise (· < ·) ∧
      List.Forall₂ shape.LeafAt sites shape.paths ∧
      ∀ site chain, shape.LeafAt site chain → site ∈ sites) ∧
    {site | ∃ chain, shape.LeafAt site chain}.ncard = shape.paths.length ∧ shape.paths ≠ [] ∧
    (∀ path ∈ shape.paths, path.head? = some shape.collection) ∧
    ∀ above node, shape.Node above node → ∃ path ∈ shape.paths,
      (node.collection :: above).reverse <+: path := by
  obtain ⟨sites, marks⟩ := shape.marks_paths
  refine ⟨⟨sites, marks.rising, marks.each, marks.all⟩, ncard_leaves marks, shape.paths_ne_nil,
    fun _ => head?_of_mem_paths, fun above node reached => ?_⟩
  obtain ⟨site, leads⟩ := reached.descends
  exact leads.prefix_path

/-- A target that is named twice ends two paths, and a choice without targets ends none of
its own. -/
example :
    (Shape.mk "pages"
      [.scalar "id", .polymorphic "item" "kind" [.mk "notes" [.scalar "id"], .mk "notes" []],
       .polymorphic "none" "kind" []]).paths = [["pages", "notes"], ["pages", "notes"]] := rfl

end DocumentViews.Shape
