import DocumentViews.Schema.Snapshot

/-! Relations as seen from a field.
A classifier says what a relation means for a field of a collection, or that it means nothing
there. Resolution takes any classifier; the standard one reads the relation's own data. -/
namespace DocumentViews

inductive RelationKind where
  /-- The field holds the key of one row. -/
  | manyToOne
  /-- Rows of another collection hold keys of rows of this one. -/
  | oneToMany
  /-- The collection of the row that the field refers to is named by the row itself. -/
  | manyToAny
deriving DecidableEq, Inhabited

namespace RelationKind

def label : RelationKind → String
  | .manyToOne => "m2o"
  | .oneToMany => "o2m"
  | .manyToAny => "m2a"

def ofLabel? (name : String) : Option RelationKind :=
  if name = "m2o" then some .manyToOne
  else if name = "o2m" then some .oneToMany
  else if name = "m2a" then some .manyToAny
  else none

end RelationKind

/-- Says what a relation is for a field of a collection; none when it does not apply there. -/
abbrev Classifier := Relation → String → String → Option RelationKind

namespace Classifier

/-- The name of the collection that links a collection through one of its fields. -/
def junction (collection field : String) : String := collection ++ "_" ++ field

/-- A relation stored on the field itself leads to one row, or to any of the allowed collections.
A relation that points at the collection is seen from its named far field, or, when none is named,
from the field whose junction holds the relation. -/
def standard : Classifier := fun relation collection field =>
  if relation.collection = collection ∧ relation.field = field then
    if relation.allowed.isSome then some .manyToAny else some .manyToOne
  else if relation.related = some collection then
    match relation.oneField with
    | some oneField => if oneField = field then some .oneToMany else none
    | none => if relation.collection = junction collection field then some .oneToMany else none
  else none

/-- One line of a table of kinds: a relation, the field that asks, and the answer. -/
structure Rule where
  relationCollection : String
  relationField : String
  collection : String
  field : String
  kind : Option RelationKind

/-- The classifier of a table: the first line about the relation and the field decides. -/
def ofRules (rules : List Rule) : Classifier := fun relation collection field =>
  (rules.find? fun rule =>
    rule.relationCollection = relation.collection ∧ rule.relationField = relation.field ∧
      rule.collection = collection ∧ rule.field = field).bind (·.kind)

end Classifier

end DocumentViews
