import DocumentViews.Database.Basic
import DocumentViews.NameMap
import DocumentViews.Sql.Name
import DocumentViews.Text.Search

/-! Reading documents from a view.
A read is a text with holes for parameters; only the view's name is part of the text. Names of
document keys, values, limits and offsets are parameters, numbered in the order of their holes. -/
namespace DocumentViews

inductive SortOrder where
  | ascending
  | descending
deriving DecidableEq, Inhabited

namespace SortOrder

def keyword : SortOrder → String
  | .ascending => "ASC"
  | .descending => "DESC"

def label : SortOrder → String
  | .ascending => "asc"
  | .descending => "desc"

def ofLabel? (name : String) : Option SortOrder :=
  if name = "asc" then some .ascending else if name = "desc" then some .descending else none

end SortOrder

/-- Which of the matching documents are wanted, and in which order. -/
structure Page where
  limit : UInt32
  offset : UInt32
  sort : Option String
  order : SortOrder
deriving DecidableEq

namespace Page

def standardLimit : UInt32 := 10

/-- The first documents, in no particular order. -/
def first (limit : UInt32) : Page := ⟨limit, 0, none, .ascending⟩

end Page

/-- Document keys with the text that each must equal. -/
abbrev Filters := NameMap String

/-- A piece of a query: text, or a hole for a parameter. -/
inductive Piece where
  | text (sql : String)
  | hole (param : Param)

structure BoundQuery where
  sql : String
  params : List Param
deriving DecidableEq

namespace Piece

/-- The text of pieces, with holes numbered from a first number on. -/
def number (next : Nat) : List Piece → String
  | [] => ""
  | .text sql :: rest => sql ++ number next rest
  | .hole _ :: rest => "$" ++ String.ofList (Nat.toDigits 10 next) ++ number (next + 1) rest

def params : List Piece → List Param
  | [] => []
  | .text _ :: rest => params rest
  | .hole param :: rest => param :: params rest

def bind (pieces : List Piece) : BoundQuery := ⟨number 1 pieces, params pieces⟩

end Piece

namespace Reading

/-- The segments of a document key; every point separates two. -/
def segments (key : String) : List String := (Text.parts '.' key.toList).map String.ofList

/-- The value of a document at a key, or at a path when the key has points. -/
def accessor (key : String) : List Piece :=
  if key.toList.contains '.' then
    [.text (Sql.quoteName Sql.dataColumn ++ " #>> "), .hole (.texts (segments key))]
  else [.text (Sql.quoteName Sql.dataColumn ++ " ->> "), .hole (.text key)]

def predicate (key value : String) : List Piece :=
  accessor key ++ [.text " = ", .hole (.text value)]

/-- Tests of all filters, the first one after its own keyword. -/
def conditions (keyword : String) : List (String × String) → List Piece
  | [] => []
  | (key, value) :: rest => .text keyword :: (predicate key value ++ conditions " AND " rest)

def ordering (page : Page) : List Piece :=
  match page.sort with
  | none => []
  | some key => .text " ORDER BY " :: (accessor key ++ [.text (" " ++ page.order.keyword)])

def pieces (view : String) (filters : Filters) (page : Page) : List Piece :=
  [.text ("SELECT " ++ Sql.quoteName Sql.dataColumn ++ " FROM " ++ Sql.quoteName view)] ++
    conditions " WHERE " filters.entries ++ ordering page ++
    [.text " LIMIT ", .hole (.number page.limit.toNat), .text " OFFSET ",
      .hole (.number page.offset.toNat)]

def select (view : String) (filters : Filters) (page : Page) : BoundQuery :=
  Piece.bind (pieces view filters page)

end Reading

inductive ReadError where
  | viewNotFound (view : String)
  | invalidName (name : String)
  | database (error : DbError)
deriving DecidableEq

namespace ReadError

def message : ReadError → String
  | .viewNotFound view => "View " ++ view ++ " not found; create it first"
  | .invalidName name => "Invalid collection name '" ++ name ++ "'"
  | .database error => error.message

/-- A database failure during the read of a view. -/
def ofDatabase (view : String) : DbError → ReadError
  | .undefinedRelation _ => .viewNotFound view
  | other => .database other

end ReadError

namespace Reading

variable {σ : Type}

def allLimit : UInt32 := 100

/-- The documents of a collection's view that match every filter. The collection's name must be
plain, else the database is not asked. -/
def list (db : Database σ) (collection : String) (filters : Filters) (page : Page) :
    Task σ ReadError (List Json) :=
  if Sql.isPlain collection then
    let view := Sql.viewName collection
    let query := select view filters page
    (Task.call (db.query query.sql query.params)).widen (ReadError.ofDatabase view)
  else throw (.invalidName collection)

def all (db : Database σ) (collection : String) : Task σ ReadError (List Json) :=
  list db collection .empty (Page.first allLimit)

def findOne (db : Database σ) (collection : String) (filters : Filters) :
    Task σ ReadError (Option Json) := do
  let rows ← list db collection filters (Page.first 1)
  return rows.head?

end Reading

end DocumentViews
