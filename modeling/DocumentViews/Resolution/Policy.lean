import DocumentViews.Schema.Format

/-! What resolution may visit, and how often. -/
namespace DocumentViews

structure Policy where
  /-- How often one hop from a collection to another may occur along a path. -/
  maxDepth : UInt64
  /-- Collections left out, as the keys of a map. -/
  excluded : NameMap Unit
  /-- Collections whose names start so are left out as well. -/
  excludedStarts : List String
  /-- Whether a path that leads back to the root goes on from there. -/
  revisitRoot : Bool

namespace Policy

def names (list : List String) : NameMap Unit := .ofList (list.map fun name => (name, ()))

def standard : Policy where
  maxDepth := 2
  excluded := names ["directus_users", "directus_files"]
  excludedStarts := ["directus_"]
  revisitRoot := false

instance : Inhabited Policy := ⟨standard⟩

def excludes (policy : Policy) (collection : String) : Bool :=
  policy.excluded.contains collection ||
    policy.excludedStarts.any fun start => start.toList.isPrefixOf collection.toList

def ofSyntax : Json.Decoder Policy := fun tree => do
  let record ← Json.Record.read ["max_depth", "excluded_collections",
    "excluded_prefixes", "revisit_root"] tree
  let maxDepth ← record.withDefault "max_depth" standard.maxDepth.toNat
    (Json.Decode.natBelow UInt64.size)
  let excluded ← record.withDefault "excluded_collections" standard.excluded.keys
    (Json.Decode.list Json.Decode.text)
  let starts ← record.withDefault "excluded_prefixes" standard.excludedStarts
    (Json.Decode.list Json.Decode.text)
  let revisitRoot ← record.withDefault "revisit_root" standard.revisitRoot Json.Decode.bool
  return ⟨.ofNat maxDepth, names excluded, starts, revisitRoot⟩

def toJson (policy : Policy) : Json :=
  .object [("max_depth", .nat policy.maxDepth.toNat),
    ("excluded_collections", .strings policy.excluded.keys),
    ("excluded_prefixes", .strings policy.excludedStarts),
    ("revisit_root", .bool policy.revisitRoot)]

def read (text : String) : Except TextFault Policy := Json.Decoder.readText ofSyntax text

end Policy

end DocumentViews
