import DocumentViews.Json.Syntax
import DocumentViews.NameMap

/-! JSON values.
A value lists the members of an object in the order in which they are to be written. A document,
which is a value read from outside, has its members in the order of their names, each name once. -/
namespace DocumentViews

inductive Json where
  | null
  | bool (value : Bool)
  | number (value : Number)
  | string (text : String)
  | array (items : List Json)
  | object (members : List (String × Json))
deriving Inhabited

namespace Json

def nat (n : Nat) : Json := .number (.integer n)

def strings (texts : List String) : Json := .array (texts.map .string)

/-- An optional text; null stands for none. -/
def optional : Option String → Json
  | none => .null
  | some text => .string text

/-- The text of a string literal; none when a surrogate in it stands alone. -/
def literal? (inside : List Char) : Option String :=
  (Escape.decode inside).map String.ofList

mutual
/-- The document that a syntax tree denotes: of members with one name the last one stays. None when
a literal is no text or a numeral is too large. -/
def ofSyntax? : Syntax → Option Json
  | .null => some .null
  | .bool b => some (.bool b)
  | .number n => n.number?.map .number
  | .string s => (literal? s).map .string
  | .array items => (itemsOfSyntax? items).map .array
  | .object members =>
    (membersOfSyntax? members).map fun found => .object (NameMap.ofList found).entries

def itemsOfSyntax? : List Syntax → Option (List Json)
  | [] => some []
  | item :: rest =>
    match ofSyntax? item, itemsOfSyntax? rest with
    | some value, some values => some (value :: values)
    | _, _ => none

def membersOfSyntax? : List (List Char × Syntax) → Option (List (String × Json))
  | [] => some []
  | (key, item) :: rest =>
    match literal? key, ofSyntax? item, membersOfSyntax? rest with
    | some name, some value, some values => some ((name, value) :: values)
    | _, _, _ => none
end

def read (text : String) : Option Json :=
  (Syntax.read text).bind ofSyntax?

mutual
/-- The value with the members of every object in the order of their names. -/
def sorted : Json → Json
  | .array items => .array (sortedItems items)
  | .object members => .object (NameMap.ofList (sortedMembers members)).entries
  | other => other

def sortedItems : List Json → List Json
  | [] => []
  | item :: rest => sorted item :: sortedItems rest

def sortedMembers : List (String × Json) → List (String × Json)
  | [] => []
  | (name, value) :: rest => (name, sorted value) :: sortedMembers rest
end

end Json

end DocumentViews
