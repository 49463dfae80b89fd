import DocumentViews.NameMap

/-! The schema at one point in time: collections with their fields, and the relations between them.
A collection has no name of its own; its name is the one it is kept under. -/
namespace DocumentViews

/-- A field of a collection. A virtual field has no column; it stands for the far side of a
relation. -/
structure FieldInfo where
  virtual : Bool
  special : List String
deriving DecidableEq, Inhabited

def FieldInfo.hasTag (info : FieldInfo) (tag : String) : Bool := info.special.contains tag

structure Collection where
  fields : NameMap FieldInfo
deriving Inhabited

def Collection.virtualFields (collection : Collection) : List String :=
  (collection.fields.entries.filter fun entry => entry.2.virtual).map (·.1)

def Collection.columns (collection : Collection) : List String :=
  (collection.fields.entries.filter fun entry => !entry.2.virtual).map (·.1)

/-- The columns of a relation as far as the database reports them. -/
structure JoinReport where
  table : Option String
  column : Option String
  foreignTable : Option String
  foreignColumn : Option String
deriving DecidableEq, Inhabited

structure Join where
  table : String
  column : String
  foreignColumn : String
deriving DecidableEq, Inhabited

/-- The columns of a join, if every needed one is reported. -/
def JoinReport.complete (report : JoinReport) : Option Join :=
  match report.table, report.column, report.foreignColumn with
  | some table, some column, some foreignColumn => some ⟨table, column, foreignColumn⟩
  | _, _, _ => none

structure RelationDetails where
  /-- The virtual field on the related collection. -/
  oneField : Option String
  /-- The column that names the target collection of each row. -/
  oneCollectionField : Option String
  /-- The collections that a row may refer to. -/
  oneAllowedCollections : Option (List String)
  sortField : Option String
  junctionField : Option String
deriving DecidableEq, Inhabited

/-- A relation from a field of one collection to another collection, or to several. -/
structure Relation where
  collection : String
  field : String
  related : Option String
  report : Option JoinReport
  details : Option RelationDetails
deriving DecidableEq, Inhabited

namespace Relation

def join? (relation : Relation) : Option Join := relation.report.bind JoinReport.complete

def oneField (relation : Relation) : Option String := relation.details.bind (·.oneField)

def sortField (relation : Relation) : Option String := relation.details.bind (·.sortField)

def allowed (relation : Relation) : Option (List String) :=
  relation.details.bind (·.oneAllowedCollections)

def discriminant (relation : Relation) : Option String :=
  relation.details.bind (·.oneCollectionField)

end Relation

/-- A schema: collections by name, and relations in their given order. -/
structure Snapshot where
  collections : NameMap Collection
  relations : List Relation
deriving Inhabited

namespace Snapshot

def collection? (snapshot : Snapshot) (name : String) : Option Collection :=
  snapshot.collections.get? name

def hasField (snapshot : Snapshot) (collection field : String) : Bool :=
  match snapshot.collection? collection with
  | none => false
  | some found => found.fields.contains field

def hasTag (snapshot : Snapshot) (collection field tag : String) : Bool :=
  match snapshot.collection? collection with
  | none => false
  | some found => (found.fields.get? field).any fun info => info.hasTag tag

end Snapshot

end DocumentViews
