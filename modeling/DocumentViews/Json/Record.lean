import DocumentViews.Json.Value

/-! Records, maps, lists and enumerations in JSON syntax.
A record is an object, or an array of its members in their declared order. Members nobody
declared are skipped, a declared member may stand once, and a member left out takes its
default. Types are exact: nothing is converted. A map is an object only; of entries with one
name the last one stays. -/
namespace DocumentViews.Json

/-- Reads a value of one type; none when the syntax is of another shape. -/
abbrev Decoder (α : Type) := Syntax → Option α

namespace Decode

variable {α : Type}

def text : Decoder String
  | .string literal => literal? literal
  | _ => none

def bool : Decoder Bool
  | .bool value => some value
  | _ => none

/-- A natural number below a bound, written with digits only. -/
def natBelow (bound : Nat) : Decoder Nat
  | .number numeral => numeral.nat?.bind fun value => if value < bound then some value else none
  | _ => none

def nullable (decode : Decoder α) : Decoder (Option α)
  | .null => some none
  | other => (decode other).map some

def each (decode : Decoder α) : List Syntax → Option (List α)
  | [] => some []
  | item :: rest =>
    match decode item, each decode rest with
    | some value, some values => some (value :: values)
    | _, _ => none

def list (decode : Decoder α) : Decoder (List α)
  | .array items => each decode items
  | _ => none

def eachEntry (decode : Decoder α) : List (List Char × Syntax) → Option (List (String × α))
  | [] => some []
  | (key, item) :: rest =>
    match literal? key, decode item, eachEntry decode rest with
    | some name, some value, some values => some ((name, value) :: values)
    | _, _, _ => none

def map (decode : Decoder α) : Decoder (NameMap α)
  | .object members => (eachEntry decode members).map NameMap.ofList
  | _ => none

/-- A word out of a list; an object with that word as only name and null as its value stands for
the word as well. -/
def oneOf (words : List (String × α)) : Decoder α
  | .string literal => (literal? literal).bind fun name => words.lookup name
  | .object [(key, .null)] => (literal? key).bind fun name => words.lookup name
  | _ => none

end Decode

/-- The declared members that a record has, in no particular order, each at most once. -/
abbrev Record := List (String × Syntax)

namespace Record

variable {α : Type}

/-- The declared members among those of an object; none when one of them is repeated or a name is
no text. -/
def ofMembers (declared : List String) : List (List Char × Syntax) → Option Record
  | [] => some []
  | (key, item) :: rest =>
    match literal? key, ofMembers declared rest with
    | some name, some found =>
      if declared.contains name then
        if (found.lookup name).isSome then none else some ((name, item) :: found)
      else some found
    | _, _ => none

def read (declared : List String) : Syntax → Option Record
  | .object members => ofMembers declared members
  | .array items => if items.length ≤ declared.length then some (declared.zip items) else none
  | _ => none

def required (record : Record) (name : String) (decode : Decoder α) : Option α :=
  (record.lookup name).bind decode

def withDefault (record : Record) (name : String) (default : α) (decode : Decoder α) : Option α :=
  match record.lookup name with
  | none => some default
  | some item => decode item

/-- A member that may be left out or null. -/
def optional (record : Record) (name : String) (decode : Decoder α) : Option (Option α) :=
  record.withDefault name none (Decode.nullable decode)

end Record

end DocumentViews.Json
