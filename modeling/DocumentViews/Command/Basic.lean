import DocumentViews.View.Reading

/-! The commands of the program, and the filters that some of them take. -/
namespace DocumentViews

inductive FilterError where
  | noValue (text : String)
  | noField (text : String)
deriving DecidableEq

def FilterError.message : FilterError → String
  | .noValue text => "expected field=value, got '" ++ text ++ "'"
  | .noField text => "empty field name in '" ++ text ++ "'"

namespace Filters

/-- Reads a filter: a field, the first equals sign, and the value. -/
def parse (text : String) : Except FilterError (String × String) :=
  let field := text.toList.takeWhile (· ≠ '=')
  match text.toList.dropWhile (· ≠ '=') with
  | [] => .error (.noValue text)
  | _ :: value =>
    if field.isEmpty then .error (.noField text) else .ok (String.ofList field, String.ofList value)

/-- Filters in the order of their fields; of two on one field the later one stays. -/
def ofPairs (pairs : List (String × String)) : Filters := NameMap.ofList pairs

end Filters

inductive Command where
  | routes
  /-- Create or replace the view of a collection. -/
  | create (collection : String) (materialized : Bool)
  | refresh (collection : String)
  | drop (collection : String)
  /-- Show the select of a collection, and its shape if wanted. -/
  | compile (collection : String) (tree : Bool)
  /-- Read the first documents of a collection. -/
  | all (collection : String)
  | find (collection : String) (filters : List (String × String)) (page : Page)
  | findOne (collection : String) (filters : List (String × String))
deriving DecidableEq

end DocumentViews
