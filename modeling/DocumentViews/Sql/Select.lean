import DocumentViews.Json.Writer
import DocumentViews.Shape.Basic
import DocumentViews.Sql.Token

/-! The SELECT that produces the documents of a shape.
Every nested field is one further column: a correlated sub-select for joined rows, and a choice on
the discriminant for rows that name their own target. The choice hands targets that nest further
to a routine together with a map of their own selects; the map travels as JSON in a literal, and so
on at every depth. -/
namespace DocumentViews.Sql

/-- A target of a choice: its collection, whether it nests further, and its own select. -/
structure Route where
  collection : String
  nests : Bool
  select : List Token

def aggregate : RelationKind → String
  | .manyToOne => "row_to_json"
  | .oneToMany => "json_agg"
  | .manyToAny => "json_agg"

def nestedName (holder field : String) : String := "nested_" ++ holder ++ "_" ++ field

/-- Which column of the holder equals which column of the target: the key is with the holder for
many-to-one, and with the target else. -/
def joinCondition (holder target : String) (link : Link) : List Token :=
  let sides :=
    if link.kind = .manyToOne then (holder, target) else (target, holder)
  column sides.1 link.join.column ++ [.blank, .mark '=', .blank] ++
    column sides.2 link.join.foreignColumn

def orderBy (target : String) : Option String → List Token
  | none => []
  | some sort => .blank :: (words ["ORDER", "BY"] ++ .blank :: column target sort)

def relationColumn (holder field : String) (link : Link) (target : String) (select : List Token) :
    List Token :=
  let rows := nestedName holder field
  named (parens (
    [.word "SELECT", .blank, .word (aggregate link.kind)] ++ parens [.name rows] ++
    [.blank, .word "FROM", .blank] ++
    named (parens (select ++ [.blank, .word "WHERE", .blank] ++ joinCondition holder target link ++
      orderBy target link.sort)) rows)) field

/-- One branch of a choice: the targets it is for, and the routine call that looks the row up. -/
def branch (discriminant : List Token) (collections : List String) (routine : String)
    (arguments : List (List Token)) : List Token :=
  [.blank, .word "WHEN", .blank] ++ discriminant ++ [.blank, .word "IN", .blank] ++
  parens (commas (collections.map fun name => [.literal name])) ++ [.blank, .word "THEN", .blank] ++
  parens ([.word "SELECT", .blank, .name "resolved", .blank, .word "FROM", .blank] ++
    named (.word routine :: parens (commas arguments)) "resolved")

/-- The selects of targets as one JSON object. -/
def routeMap (routes : List Route) : String :=
  (Json.object (NameMap.ofList (routes.map fun route =>
    (route.collection, Json.string (text route.select)))).entries).compact

def nestedBranch (discriminant item : List Token) : List Route → List Token
  | [] => []
  | routes => branch discriminant (routes.map (·.collection)) "resolve_row_with_nested"
      [discriminant, item, cast [.literal (routeMap routes)] "json"]

def flatBranch (discriminant item : List Token) : List Route → List Token
  | [] => []
  | routes => branch discriminant (routes.map (·.collection)) "resolve_row" [discriminant, item]

/-- The column of rows that name their own target; a name that is no target gives an empty
object. -/
def choiceColumn (holder field discriminant : String) (routes : List Route) : List Token :=
  let chosen := column holder discriminant
  let item := cast (column holder field) "text"
  named ([.word "CASE"] ++ nestedBranch chosen item (routes.filter (·.nests)) ++
    flatBranch chosen item (routes.filter fun route => !route.nests) ++
    [.blank, .word "ELSE", .blank] ++ cast [.literal "\x7b\x7d"] "json" ++
      [.blank, .word "END"]) field

mutual
/-- The select of a shape: all columns of its collection, then one column per nested field. -/
def select : Shape → List Token
  | .mk collection fields =>
    [.word "SELECT", .blank, .name collection, .mark '.', .mark '*'] ++
      nestedColumns collection fields ++ [.blank, .word "FROM", .blank, .name collection]

def nestedColumns (holder : String) : List Field → List Token
  | [] => []
  | .scalar _ :: rest => nestedColumns holder rest
  | .relation name link target :: rest =>
    [.mark ',', .blank] ++ relationColumn holder name link target.collection (select target) ++
      nestedColumns holder rest
  | .polymorphic name discriminant targets :: rest =>
    [.mark ',', .blank] ++ choiceColumn holder name discriminant (routes targets) ++
      nestedColumns holder rest

def routes : List Shape → List Route
  | [] => []
  | target :: rest => ⟨target.collection, target.hasNested, select target⟩ :: routes rest
end

def compile (shape : Shape) : String := text (select shape)

end DocumentViews.Sql
