import DocumentViews.Json.Value
import DocumentViews.Schema.Classifier

/-! Document shapes: which fields a document has and which of them nest further documents.
The root of a shape and every target below it are of the same kind, a collection with its fields. -/
namespace DocumentViews

/-- How a nested field joins its rows. -/
structure Link where
  kind : RelationKind
  join : Join
  sort : Option String
deriving DecidableEq, Inhabited

mutual
/-- A collection with the fields that its documents show. -/
inductive Shape where
  | mk (collection : String) (fields : List Field)

inductive Field where
  | scalar (name : String)
  /-- Documents of one target, joined by columns. -/
  | relation (name : String) (link : Link) (target : Shape)
  /-- One document of the target that a discriminant column names in each row. -/
  | polymorphic (name : String) (discriminant : String) (targets : List Shape)
end

instance : Inhabited Shape := ⟨.mk "" []⟩

instance : Inhabited Field := ⟨.scalar ""⟩

namespace Field

def name : Field → String
  | .scalar name => name
  | .relation name _ _ => name
  | .polymorphic name _ _ => name

def isNested : Field → Bool
  | .scalar _ => false
  | .relation _ _ _ => true
  | .polymorphic _ _ _ => true

def targets : Field → List Shape
  | .scalar _ => []
  | .relation _ _ target => [target]
  | .polymorphic _ _ targets => targets

end Field

namespace Shape

def collection : Shape → String
  | .mk collection _ => collection

def fields : Shape → List Field
  | .mk _ fields => fields

def hasNested (shape : Shape) : Bool := shape.fields.any Field.isNested

def nestedNames (shape : Shape) : List String :=
  (shape.fields.filter Field.isNested).map Field.name

mutual
/-- Every chain of collections from the shape down to one without targets, depth first. -/
def paths : Shape → List (List String)
  | .mk collection fields =>
    match pathsOfFields fields with
    | [] => [[collection]]
    | below => below.map (collection :: ·)

def pathsOfFields : List Field → List (List String)
  | [] => []
  | .scalar _ :: rest => pathsOfFields rest
  | .relation _ _ target :: rest => paths target ++ pathsOfFields rest
  | .polymorphic _ _ targets :: rest => pathsOfTargets targets ++ pathsOfFields rest

def pathsOfTargets : List Shape → List (List String)
  | [] => []
  | target :: rest => paths target ++ pathsOfTargets rest
end

mutual
/-- The members that a target is written with; the columns of joins are left out. -/
def members (label : String) : Shape → List (String × Json)
  | .mk collection fields => [(label, .string collection), ("fields", .array (fieldsJson fields))]

def fieldsJson : List Field → List Json
  | [] => []
  | .scalar name :: rest =>
    .object [("type", .string "scalar"), ("name", .string name)] :: fieldsJson rest
  | .relation name link target :: rest =>
    .object [("type", .string "relation"), ("name", .string name),
      ("relation", .object (("kind", .string link.kind.label) ::
        ((link.sort.map fun sort => ("sort_field", Json.string sort)).toList ++
          [("target", .object (members "collection" target))])))] :: fieldsJson rest
  | .polymorphic name discriminant targets :: rest =>
    .object [("type", .string "polymorphic"), ("name", .string name),
      ("node", .object [("discriminant", .string discriminant),
        ("targets", .array (targetsJson targets))])]
      :: fieldsJson rest

def targetsJson : List Shape → List Json
  | [] => []
  | target :: rest => .object (members "collection" target) :: targetsJson rest
end

/-- A shape as JSON, with its own collection as the root. -/
def toJson (shape : Shape) : Json := .object (members "root" shape)

end Shape

end DocumentViews
