import DocumentViews.Json.Record
import DocumentViews.Json.Writer
import DocumentViews.Schema.Snapshot

/-! Schemas as JSON texts.
Writing spells every member out. Reading takes records with members left out as well, and ignores
the name that a collection claims for itself: the name it is kept under is its name. -/
namespace DocumentViews

open Json (Syntax Record)

inductive TextFault where
  | notJson
  | wrongShape
deriving DecidableEq

def TextFault.message : TextFault → String
  | .notJson => "not a JSON text"
  | .wrongShape => "JSON of another shape than expected"

def Json.Decoder.readText {α : Type} (decode : Json.Decoder α) (text : String) :
    Except TextFault α :=
  match Json.Syntax.read text with
  | none => .error .notJson
  | some tree =>
    match decode tree with
    | none => .error .wrongShape
    | some value => .ok value

namespace FieldInfo

def ofSyntax : Json.Decoder FieldInfo := fun tree => do
  let record ← Record.read ["alias", "special"] tree
  let virtual ← record.withDefault "alias" false Json.Decode.bool
  let special ← record.withDefault "special" [] (Json.Decode.list Json.Decode.text)
  return ⟨virtual, special⟩

def toJson (info : FieldInfo) : Json :=
  .object [("alias", .bool info.virtual), ("special", .strings info.special)]

end FieldInfo

namespace Collection

def ofSyntax : Json.Decoder Collection := fun tree => do
  let record ← Record.read ["name", "fields"] tree
  let _ ← record.withDefault "name" "" Json.Decode.text
  let fields ← record.withDefault "fields" .empty (Json.Decode.map FieldInfo.ofSyntax)
  return ⟨fields⟩

/-- Writes a collection under its name. -/
def toJson (name : String) (collection : Collection) : Json :=
  .object [("name", .string name),
    ("fields", .object (collection.fields.entries.map fun entry => (entry.1, entry.2.toJson)))]

end Collection

namespace JoinReport

def ofSyntax : Json.Decoder JoinReport := fun tree => do
  let record ← Record.read ["table", "column", "foreign_key_table", "foreign_key_column"] tree
  let table ← record.optional "table" Json.Decode.text
  let column ← record.optional "column" Json.Decode.text
  let foreignTable ← record.optional "foreign_key_table" Json.Decode.text
  let foreignColumn ← record.optional "foreign_key_column" Json.Decode.text
  return ⟨table, column, foreignTable, foreignColumn⟩

def toJson (report : JoinReport) : Json :=
  .object [("table", .optional report.table), ("column", .optional report.column),
    ("foreign_key_table", .optional report.foreignTable),
    ("foreign_key_column", .optional report.foreignColumn)]

end JoinReport

namespace RelationDetails

def ofSyntax : Json.Decoder RelationDetails := fun tree => do
  let record ← Record.read
    ["one_field", "one_collection_field", "one_allowed_collections",
      "sort_field", "junction_field"] tree
  let oneField ← record.optional "one_field" Json.Decode.text
  let oneCollectionField ← record.optional "one_collection_field" Json.Decode.text
  let allowed ← record.optional "one_allowed_collections" (Json.Decode.list Json.Decode.text)
  let sortField ← record.optional "sort_field" Json.Decode.text
  let junctionField ← record.optional "junction_field" Json.Decode.text
  return ⟨oneField, oneCollectionField, allowed, sortField, junctionField⟩

def toJson (details : RelationDetails) : Json :=
  .object [("one_field", .optional details.oneField),
    ("one_collection_field", .optional details.oneCollectionField),
    ("one_allowed_collections", (details.oneAllowedCollections.map Json.strings).getD .null),
    ("sort_field", .optional details.sortField),
      ("junction_field", .optional details.junctionField)]

end RelationDetails

namespace Relation

def ofSyntax : Json.Decoder Relation := fun tree => do
  let record ← Record.read ["collection", "field", "related_collection", "schema", "meta"] tree
  let collection ← record.required "collection" Json.Decode.text
  let field ← record.required "field" Json.Decode.text
  let related ← record.optional "related_collection" Json.Decode.text
  let report ← record.optional "schema" JoinReport.ofSyntax
  let details ← record.optional "meta" RelationDetails.ofSyntax
  return ⟨collection, field, related, report, details⟩

def toJson (relation : Relation) : Json :=
  .object [("collection", .string relation.collection), ("field", .string relation.field),
    ("related_collection", .optional relation.related),
    ("schema", (relation.report.map JoinReport.toJson).getD .null),
    ("meta", (relation.details.map RelationDetails.toJson).getD .null)]

def read (text : String) : Except TextFault Relation := Json.Decoder.readText ofSyntax text

end Relation

namespace Snapshot

def ofSyntax : Json.Decoder Snapshot := fun tree => do
  let record ← Record.read ["collections", "relations"] tree
  let collections ← record.withDefault "collections" .empty (Json.Decode.map Collection.ofSyntax)
  let relations ← record.withDefault "relations" [] (Json.Decode.list Relation.ofSyntax)
  return ⟨collections, relations⟩

def toJson (snapshot : Snapshot) : Json :=
  .object
    [("collections", .object (snapshot.collections.entries.map fun entry =>
     (entry.1, entry.2.toJson entry.1))),
     ("relations", .array (snapshot.relations.map Relation.toJson))]

def read (text : String) : Except TextFault Snapshot := Json.Decoder.readText ofSyntax text

def write (snapshot : Snapshot) : String := snapshot.toJson.compact

end Snapshot

end DocumentViews
