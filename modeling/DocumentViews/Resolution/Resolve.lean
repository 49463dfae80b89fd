import DocumentViews.Resolution.Trail
import DocumentViews.Resolution.Walk
import DocumentViews.Shape.Basic

/-! From a schema to the shape of a collection's documents.
Each field of a collection is a column, a nested document or nothing, as the first relation that
applies to it says. Nesting stops at excluded collections, at the collection itself, at the one the
walk came from, and where the trail ends; what is cut off is noted. The walk below a field is handed
in as a function, so that a field can be understood without the recursion. -/
namespace DocumentViews

/-- The column that names a row's target when the relation names none. -/
def standardDiscriminant : String := "collection"

def Collection.scalars (collection : Collection) : List Field :=
  collection.columns.map .scalar

namespace Scope

/-- Whether a relation concerns a collection: stored on it, pointing at it, or stored on a junction
named after it and one of its virtual fields. -/
def concerns (relation : Relation) (name : String) (collection : Collection) : Bool :=
  relation.collection == name || relation.related == some name ||
    collection.virtualFields.any fun field => relation.collection == Classifier.junction name field

/-- The first relation that applies to a field, with its kind. -/
def relationFor (scope : Scope) (name : String) (collection : Collection) (field : String) :
    Option (Relation × RelationKind) :=
  (scope.snapshot.relations.filter fun relation => concerns relation name collection).findSome?
    fun relation => (scope.classify relation name field).map fun kind => (relation, kind)

end Scope

namespace Trail

variable {scope : Scope}

/-- The walk below a target: its fields, given that the trail leads on to it. -/
abbrev Descent (trail : Trail scope) : Type :=
  (next : Trail scope) → trail.HopsTo next → Walk (List Field)

def remark (trail : Trail scope) (field : String) (about : Remark) : Walk Unit :=
  Walk.note ⟨trail.here, field, about⟩

/-- The shape of a known target: its columns only where the trail ends, else the walk below it. -/
def target (trail : Trail scope) (descend : trail.Descent) (name : String) (collection : Collection)
    (known : scope.snapshot.collection? name = some collection) : Walk Shape :=
  if stop : (trail.onward name collection known).ends then pure (.mk name collection.scalars)
  else do
    let fields ← descend (trail.onward name collection known) ⟨rfl, Bool.eq_false_iff.mpr stop⟩
    pure (.mk name fields)

/-- The field that orders the rows of a target, if the target has it; one row needs no order. -/
def sortField (trail : Trail scope) (field : String) (relation : Relation) (kind : RelationKind)
    (name : String) (collection : Collection) : Walk (Option String) :=
  match kind, relation.sortField with
  | .manyToOne, _ => pure none
  | _, none => pure none
  | _, some sort =>
    if collection.fields.contains sort then pure (some sort)
    else do
      trail.remark field (.unknownSort sort name)
      pure none

def joined (trail : Trail scope) (descend : trail.Descent) (field : String) (relation : Relation)
    (kind : RelationKind) (join : Join) (name : String) (collection : Collection)
    (known : scope.snapshot.collection? name = some collection) : Walk (Option Field) :=
  let holders := if kind = .manyToOne then (trail.here, name) else (name, trail.here)
  if scope.snapshot.hasField holders.1 join.column &&
    scope.snapshot.hasField holders.2 join.foreignColumn then do
    let sort ← trail.sortField field relation kind name collection
    let shape ← trail.target descend name collection known
    pure (some (.relation field ⟨kind, join, sort⟩ shape))
  else do
    trail.remark field (.unknownColumns holders.1 join.column holders.2 join.foreignColumn)
    pure none

/-- A field that leads to one target, unless one of the cuts applies. -/
def single (trail : Trail scope) (descend : trail.Descent) (field : String) (relation : Relation)
    (kind : RelationKind) (name : String) : Walk (Option Field) :=
  if scope.policy.excludes name then do
    trail.remark field (.excluded name)
    pure none
  else if name = trail.here then do
    trail.remark field .selfRelation
    pure none
  else if kind = .manyToOne ∧ trail.parent? = some name then do
    trail.remark field (.backReference name)
    pure none
  else
    match relation.join? with
    | none => do
      trail.remark field .noJoin
      pure none
    | some join =>
      match known : scope.snapshot.collection? name with
      | none => Walk.missing name
      | some collection => trail.joined descend field relation kind join name collection known

/-- Whether a field that may refer to several collections leaves one of them out. -/
def filters (trail : Trail scope) (name : String) : Bool :=
  scope.policy.excludes name || (name == scope.root && !scope.policy.revisitRoot) ||
    name == trail.here || trail.parent? == some name

def option (trail : Trail scope) (descend : trail.Descent) (field : String) (name : String) :
    Walk (Option Shape) :=
  if trail.filters name then do
    trail.remark field (.filtered name)
    pure none
  else
    match known : scope.snapshot.collection? name with
    | none => Walk.missing name
    | some collection => do
      let shape ← trail.target descend name collection known
      pure (some shape)

def several (trail : Trail scope) (descend : trail.Descent) (field : String) (relation : Relation) :
    Walk (Option Field) :=
  let discriminant := relation.discriminant.getD standardDiscriminant
  if trail.collection.fields.contains discriminant then do
    let targets ← Walk.gather (trail.option descend field) (relation.allowed.getD [])
    if targets.isEmpty then do
      trail.remark field .noTargets
      pure none
    else pure (some (.polymorphic field discriminant targets))
  else do
    trail.remark field (.noDiscriminant discriminant)
    pure none

/-- The nested field that a relation makes, if any. A one-to-many field tagged as polymorphic joins
junction rows, each of which names its own target. -/
def nested (trail : Trail scope) (descend : trail.Descent) (field : String) (info : FieldInfo)
    (relation : Relation) (kind : RelationKind) : Walk (Option Field) :=
  if kind = .manyToAny ∧ relation.collection = trail.here ∧ relation.field = field then
    trail.several descend field relation
  else if kind = .manyToOne then
    match relation.related with
    | none => do
      trail.remark field .noRelated
      pure none
    | some name => trail.single descend field relation kind name
  else
    let kind := if kind = .oneToMany ∧ info.hasTag "m2a" then .manyToAny else kind
    trail.single descend field relation kind relation.collection

/-- What a field without a nested document shows: its column, if it has one. -/
def plain (field : String) (info : FieldInfo) : Option Field :=
  if info.virtual then none else some (.scalar field)

def field (trail : Trail scope) (descend : trail.Descent) (entry : String × FieldInfo) :
    Walk (Option Field) :=
  match scope.relationFor trail.here trail.collection entry.1 with
  | none => pure (plain entry.1 entry.2)
  | some (relation, kind) => do
    let found ← trail.nested descend entry.1 entry.2 relation kind
    pure (found.or (plain entry.1 entry.2))

def expand (trail : Trail scope) : Walk (List Field) :=
  Walk.gather (trail.field fun next _ => next.expand) trail.collection.fields.entries
termination_by trail.budget
decreasing_by exact budget_lt_of_hopsTo ‹_›

end Trail

/-- The shape of a collection's documents. An excluded root shows its columns only. -/
def Scope.resolve (scope : Scope) : Walk Shape :=
  match known : scope.snapshot.collection? scope.root with
  | none => Walk.missing scope.root
  | some collection =>
    if scope.policy.excludes scope.root then pure (.mk scope.root collection.scalars)
    else do
      let start : Trail scope := ⟨scope.root, [], collection, known⟩
      let fields ← start.expand
      pure (.mk scope.root fields)

end DocumentViews
