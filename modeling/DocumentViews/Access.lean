import DocumentViews.Schema.Format

/-! Who may do what with which collection.
Without a table everything is allowed; an administrator may do everything; else an action on a
collection must be granted. Decisions come with their reason. -/
namespace DocumentViews

inductive Action where
  | read
  | create
  | update
  | delete
deriving DecidableEq, Inhabited

namespace Action

def label : Action → String
  | .read => "read"
  | .create => "create"
  | .update => "update"
  | .delete => "delete"

def labels : List (String × Action) :=
  [("read", .read), ("create", .create), ("update", .update), ("delete", .delete)]

def ofLabel? (name : String) : Option Action := labels.lookup name

end Action

structure Permission where
  collection : String
  action : Action
deriving DecidableEq, Inhabited

/-- A table of grants, and whether its holder is an administrator. -/
structure AccessTable where
  admin : Bool
  permissions : List Permission
deriving DecidableEq, Inhabited

structure Decision where
  allowed : Bool
  reason : String
deriving DecidableEq

structure AccessDenied where
  reason : String
deriving DecidableEq

def AccessDenied.message (denied : AccessDenied) : String := "Access denied: " ++ denied.reason

/-- The access rules in force; none when access is not controlled. -/
abbrev Access := Option AccessTable

namespace Access

/-- Whether an action on a collection is allowed, and why. -/
def decide (access : Access) (collection : String) (action : Action) : Decision :=
  match access with
  | none => ⟨true, "access control disabled"⟩
  | some table =>
    if table.admin then ⟨true, "admin"⟩
    else if table.permissions.contains ⟨collection, action⟩ then
      ⟨true, action.label ++ " granted on " ++ collection⟩
    else ⟨false, "no " ++ action.label ++ " permission on " ++ collection⟩

/-- Passes, or refuses with the reason of the decision. -/
def authorize (access : Access) (collection : String) (action : Action) :
    Except AccessDenied Unit :=
  let decision := access.decide collection action
  if decision.allowed then .ok () else .error ⟨decision.reason⟩

end Access

namespace Permission

def ofSyntax : Json.Decoder Permission := fun tree => do
  let record ← Json.Record.read ["collection", "action"] tree
  let collection ← record.required "collection" Json.Decode.text
  let action ← record.required "action" (Json.Decode.oneOf Action.labels)
  return ⟨collection, action⟩

def toJson (permission : Permission) : Json :=
  .object [("collection", .string permission.collection),
    ("action", .string permission.action.label)]

end Permission

namespace AccessTable

def ofSyntax : Json.Decoder AccessTable := fun tree => do
  let record ← Json.Record.read ["admin", "permissions"] tree
  let admin ← record.withDefault "admin" false Json.Decode.bool
  let permissions ← record.withDefault "permissions" [] (Json.Decode.list Permission.ofSyntax)
  return ⟨admin, permissions⟩

def toJson (table : AccessTable) : Json :=
  .object [("admin", .bool table.admin),
    ("permissions", .array (table.permissions.map Permission.toJson))]

def read (text : String) : Except TextFault AccessTable := Json.Decoder.readText ofSyntax text

end AccessTable

end DocumentViews
