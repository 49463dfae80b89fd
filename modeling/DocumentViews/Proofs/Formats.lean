import DocumentViews.Config
import DocumentViews.Proofs.Json.Record

/-! Schemas and configurations are read back from their texts.
Writing spells out every member, also one that has its default, so reading a written text never
falls back on a default. A collection is written with the name it is kept under, and that name is
not taken from the text again: what comes back is the same map with the same keys. -/
namespace DocumentViews

open Json.Decode

theorem FieldInfo.decodes (info : FieldInfo) : Json.Decoder.Decodes ofSyntax info.toJson info := by
  have virtual := decodes_bool info.virtual
  have special := decodes_texts info.special
  refine Json.Record.decodes (fun _ => rfl) rfl (by decide) ?_ ?_
  · simp [virtual.plain, special.plain]
  · simp [virtual.read, special.read]

theorem Collection.decodes (name : String) (collection : Collection) :
    Json.Decoder.Decodes ofSyntax (collection.toJson name) collection := by
  have named := decodes_text name
  have fields := decodes_map collection.fields fun entry _ => entry.2.decodes
  refine Json.Record.decodes (fun _ => rfl) rfl (by decide) ?_ ?_
  · simp [named.plain, fields.plain]
  · simp [named.read, fields.read]

theorem JoinReport.decodes (report : JoinReport) :
    Json.Decoder.Decodes ofSyntax report.toJson report := by
  have table := decodes_optional report.table
  have column := decodes_optional report.column
  have foreignTable := decodes_optional report.foreignTable
  have foreignColumn := decodes_optional report.foreignColumn
  refine Json.Record.decodes (fun _ => rfl) rfl (by decide) ?_ ?_
  · simp [table.plain, column.plain, foreignTable.plain, foreignColumn.plain]
  · simp [table.read, column.read, foreignTable.read, foreignColumn.read]

theorem RelationDetails.decodes (details : RelationDetails) :
    Json.Decoder.Decodes ofSyntax details.toJson details := by
  have oneField := decodes_optional details.oneField
  have oneCollectionField := decodes_optional details.oneCollectionField
  have allowed := decodes_nullable details.oneAllowedCollections rfl fun names _ =>
    decodes_texts names
  have sortField := decodes_optional details.sortField
  have junctionField := decodes_optional details.junctionField
  refine Json.Record.decodes (fun _ => rfl) rfl (by decide) ?_ ?_
  · simp [oneField.plain, oneCollectionField.plain, allowed.plain,
      sortField.plain, junctionField.plain]
  · simp [oneField.read, oneCollectionField.read, allowed.read, sortField.read, junctionField.read]

theorem Relation.decodes (relation : Relation) :
    Json.Decoder.Decodes ofSyntax relation.toJson relation := by
  have collection := decodes_text relation.collection
  have field := decodes_text relation.field
  have related := decodes_optional relation.related
  have report := decodes_nullable relation.report rfl fun report _ => report.decodes
  have details := decodes_nullable relation.details rfl fun details _ => details.decodes
  refine Json.Record.decodes (fun _ => rfl) rfl (by decide) ?_ ?_
  · simp [collection.plain, field.plain, related.plain, report.plain, details.plain]
  · simp [collection.read, field.read, related.read, report.read, details.read]

theorem Snapshot.decodes (snapshot : Snapshot) :
    Json.Decoder.Decodes ofSyntax snapshot.toJson snapshot := by
  have collections := decodes_map snapshot.collections fun entry _ => entry.2.decodes entry.1
  have relations := decodes_list snapshot.relations fun relation _ => relation.decodes
  refine Json.Record.decodes (fun _ => rfl) rfl (by decide) ?_ ?_
  · simp [collections.plain, relations.plain]
  · simp [collections.read, relations.read]

theorem Connection.decodes (connection : Connection) :
    Json.Decoder.Decodes ofSyntax connection.toJson connection := by
  have text := decodes_optional connection.text
  have host := decodes_optional connection.host
  have port := decodes_nat connection.port.toNat_lt_size
  have user := decodes_optional connection.user
  have database := decodes_optional connection.database
  have password := decodes_optional connection.password
  have ssl := decodes_bool connection.ssl
  refine Json.Record.decodes (fun _ => rfl) rfl (by decide) ?_ ?_
  · simp [text.plain, host.plain, port.plain, user.plain, database.plain, password.plain, ssl.plain]
  · simp [text.read, host.read, port.read, user.read, database.read, password.read, ssl.read]

namespace Policy

theorem names_keys (excluded : NameMap Unit) : names excluded.keys = excluded := by
  have entries : excluded.keys.map (fun name => (name, ())) = excluded.entries := by
    rw [NameMap.keys, List.map_map]
    exact List.map_id _
  rw [names, entries, NameMap.ofList_entries]

theorem decodes (policy : Policy) : Json.Decoder.Decodes ofSyntax policy.toJson policy := by
  have maxDepth := decodes_nat policy.maxDepth.toNat_lt_size
  have excluded := decodes_texts policy.excluded.keys
  have starts := decodes_texts policy.excludedStarts
  have revisitRoot := decodes_bool policy.revisitRoot
  refine Json.Record.decodes (fun _ => rfl) rfl (by decide) ?_ ?_
  · simp [maxDepth.plain, excluded.plain, starts.plain, revisitRoot.plain]
  · simp [maxDepth.read, excluded.read, starts.read, revisitRoot.read, names_keys]

end Policy

theorem Action.lookup_label (action : Action) : labels.lookup action.label = some action := by
  cases action <;> decide

theorem Permission.decodes (permission : Permission) :
    Json.Decoder.Decodes ofSyntax permission.toJson permission := by
  have collection := decodes_text permission.collection
  have action := decodes_word permission.action.lookup_label
  refine Json.Record.decodes (fun _ => rfl) rfl (by decide) ?_ ?_
  · simp [collection.plain, action.plain]
  · simp [collection.read, action.read]

theorem AccessTable.decodes (table : AccessTable) :
    Json.Decoder.Decodes ofSyntax table.toJson table := by
  have admin := decodes_bool table.admin
  have permissions := decodes_list table.permissions fun permission _ => permission.decodes
  refine Json.Record.decodes (fun _ => rfl) rfl (by decide) ?_ ?_
  · simp [admin.plain, permissions.plain]
  · simp [admin.read, permissions.read]

namespace Config

theorem decodes_schemaPath (path : Option String) :
    Json.Decoder.Decodes schemaOfSyntax (.object [("path", .optional path)]) path := by
  have inner := decodes_optional path
  refine Json.Record.decodes (fun _ => rfl) rfl (by decide) ?_ ?_
  · simp [inner.plain]
  · simp [inner.read]

theorem decodes (config : Config) : Json.Decoder.Decodes ofSyntax config.toJson config := by
  have database := decodes_nullable config.database rfl fun connection _ => connection.decodes
  have schemaPath := decodes_schemaPath config.schemaPath
  have policy := config.policy.decodes
  have access := decodes_nullable config.access rfl fun table _ => table.decodes
  refine Json.Record.decodes (fun _ => rfl) rfl (by decide) ?_ ?_
  · simp [database.plain, schemaPath.plain, policy.plain, access.plain]
  · simp [database.read, schemaPath.read, policy.read, access.read]

end Config

/-- A written schema is read as that schema. So whatever text a schema was read from, writing it and
reading it again changes nothing. A written configuration is read as that configuration. -/
theorem written_texts_read_back :
    (∀ snapshot : Snapshot, Snapshot.read snapshot.write = .ok snapshot) ∧
    (∀ text, (do let snapshot ← Snapshot.read text; Snapshot.read snapshot.write) =
      Snapshot.read text) ∧
    ∀ config : Config, Config.read config.toJson.compact = .ok config := by
  have back (snapshot : Snapshot) : Snapshot.read snapshot.write = .ok snapshot :=
    snapshot.decodes.readText
  refine ⟨back, ?_, fun config => config.decodes.readText⟩
  intro text
  cases Snapshot.read text with
  | error fault => rfl
  | ok snapshot => exact back snapshot

end DocumentViews
