import DocumentViews.Access
import DocumentViews.Config
import DocumentViews.Text.Clip
import DocumentViews.View.Lifecycle
import DocumentViews.View.Reading

/-! Everything that can go wrong in a run, and what a caller is told of it. -/
namespace DocumentViews

inductive SchemaError where
  | unreadable (path reason : String)
  | invalid (detail : String)
  | notConfigured
deriving DecidableEq

def SchemaError.message : SchemaError → String
  | .unreadable path reason => "Failed to read schema snapshot '" ++ path ++ "': " ++ reason
  | .invalid detail => "Invalid schema snapshot: " ++ detail
  | .notConfigured =>
    "No schema snapshot configured: set schema.path in the config file or PG_JSON_VIEWS_SCHEMA"

inductive ConfigError where
  | missing (path : String)
  | unreadable (path reason : String)
  | invalid (path detail : String)
deriving DecidableEq

def ConfigError.message : ConfigError → String
  | .missing path => "Configuration file not found: " ++ path ++ "\n\n" ++ Config.help
  | .unreadable path reason => "Failed to read " ++ path ++ ": " ++ reason
  | .invalid path detail => "Invalid JSON in " ++ path ++ ": " ++ detail

inductive Failure where
  | missingCollection (missing : MissingCollection)
  | denied (refusal : AccessDenied)
  | database (error : DbError)
  | view (error : ViewError)
  | reading (error : ReadError)
  | schema (error : SchemaError)
  | config (error : ConfigError)
  | other (message : String)
deriving DecidableEq

namespace Failure

def message : Failure → String
  | .missingCollection missing => missing.message
  | .denied refusal => refusal.message
  | .database error => error.message
  | .view error => error.message
  | .reading error => error.message
  | .schema error => error.message
  | .config error => error.message
  | .other message => message

/-- The longest diagnosis that a caller is told. -/
def longestMessage : Nat := 500

/-- The status that a caller is told: not there, not allowed, or failed. -/
def status : Failure → Nat
  | .missingCollection _ => 404
  | .denied _ => 403
  | _ => 500

/-- The label and text that a caller is told. A missing collection is named in full; every other
diagnosis is cut. -/
def report : Failure → String × String
  | .missingCollection missing => ("data", missing.message)
  | .denied refusal => ("error", Text.clip longestMessage refusal.reason)
  | failure => ("error", Text.clip longestMessage failure.message)

def body (failure : Failure) : Json := .object [(failure.report.1, .string failure.report.2)]

end Failure

end DocumentViews
