import DocumentViews.Json.Value
import DocumentViews.Number.Layout
import DocumentViews.Text.Blank
import DocumentViews.Text.Digit
import DocumentViews.Text.Word

/-! Toon, a text format for JSON values that is short to read.
Objects are indented members, arrays of primitives stand on one line, and arrays of objects with the
same keys are tables: the keys once, then a row of values per object. Strings stand bare where they
cannot be taken for anything else. In lists, arrays within arrays are only written when they hold
primitives. -/
namespace DocumentViews.Toon

structure Line where
  depth : Nat
  text : List Char

/-- Doubles have no exponent, no needless point, and zero has no sign. -/
def layout : Layout where
  positional _ := true
  keepsPoint := false
  signsZero := false

/-- What follows an optional fraction in a text that may be a number. -/
def skipFraction : List Char → Option (List Char)
  | '.' :: rest =>
    if (rest.takeWhile Text.isDecimalDigit).isEmpty then none
    else some (rest.dropWhile Text.isDecimalDigit)
  | rest => some rest

def isExponent : List Char → Bool
  | [] => true
  | 'e' :: '+' :: digits => !digits.isEmpty && digits.all Text.isDecimalDigit
  | 'e' :: '-' :: digits => !digits.isEmpty && digits.all Text.isDecimalDigit
  | 'e' :: digits => !digits.isEmpty && digits.all Text.isDecimalDigit
  | _ => false

def unsignedNumber (text : List Char) : Bool :=
  !(text.takeWhile Text.isDecimalDigit).isEmpty &&
    (match skipFraction (text.dropWhile Text.isDecimalDigit) with
     | none => false
     | some rest => isExponent rest)

/-- Whether a text reads like a number, with digits of any script. -/
def looksNumeric : List Char → Bool
  | '-' :: rest => unsignedNumber rest
  | text => unsignedNumber text

def isSpecial (c : Char) : Bool :=
  [':', '"', '\\', '[', ']', '\x7b', '\x7d', ',', '\n', '\r', '\t'].contains c

def keywords : List String := ["true", "false", "null"]

def itemMark : List Char := ['-', ' ']

def isBare (text : List Char) : Bool :=
  !text.isEmpty && !text.head?.any Text.isBlank && !text.getLast?.any Text.isBlank &&
    !keywords.contains (String.ofList text) && !looksNumeric text &&
    !text.any isSpecial && !itemMark.isPrefixOf text

def escape (c : Char) : List Char :=
  if c = '\\' then ['\\', '\\']
  else if c = '"' then ['\\', '"']
  else if c = '\n' then ['\\', 'n']
  else if c = '\r' then ['\\', 'r']
  else if c = '\t' then ['\\', 't']
  else [c]

def quoted (text : List Char) : List Char := '"' :: (text.flatMap escape ++ ['"'])

def stringText (text : String) : List Char :=
  if isBare text.toList then text.toList else quoted text.toList

/-- Whether a key may stand without quotes: an ASCII letter or underscore, then word characters of
any script and points. -/
def isBareKey : List Char → Bool
  | [] => false
  | first :: rest =>
    (first.isAlpha || first = '_') && rest.all fun c => Text.isWordChar c || c = '.'

def keyText (key : String) : List Char :=
  if isBareKey key.toList then key.toList else quoted key.toList

/-- A number; integers are taken as doubles. -/
def numberText : Number → List Char
  | .integer value => (Binary64.ofInt value).elim [] layout.text
  | .double value => layout.text value

def isPrimitive : Json → Bool
  | .array _ => false
  | .object _ => false
  | _ => true

def primitiveText : Json → List Char
  | .null => "null".toList
  | .bool b => if b then "true".toList else "false".toList
  | .number n => numberText n
  | .string s => stringText s
  | .array _ => []
  | .object _ => []

def primitives? (items : List Json) : Option (List (List Char)) :=
  if items.all isPrimitive then some (items.map primitiveText) else none

def commas (texts : List (List Char)) : List Char := List.intercalate [','] texts

def count (items : List Json) : List Char := '[' :: (Nat.toDigits 10 items.length ++ [']'])

def row (label : List Char) (items : List Json) (texts : List (List Char)) : List Char :=
  label ++ count items ++ ':' :: (if texts.isEmpty then [] else ' ' :: commas texts)

/-- The lines of arrays that all hold primitives only. -/
def rows? (depth : Nat) : List Json → Option (List Line)
  | [] => some []
  | .array items :: rest =>
    match primitives? items, rows? depth rest with
    | some texts, some lines => some (⟨depth, row ['-', ' '] items texts⟩ :: lines)
    | _, _ => none
  | _ :: _ => none

/-- The values of objects that all have the given keys and primitive values. -/
def tableRows? (keys : List String) : List Json → Option (List (List (List Char)))
  | [] => some []
  | .object members :: rest =>
    if members.map (·.1) = keys then
      match primitives? (members.map (·.2)), tableRows? keys rest with
      | some texts, some others => some (texts :: others)
      | _, _ => none
    else none
  | _ :: _ => none

/-- The keys and rows of an array that is a table. -/
def table? : List Json → Option (List String × List (List (List Char)))
  | .object (member :: members) :: rest =>
    let keys := (member :: members).map (·.1)
    (tableRows? keys (.object (member :: members) :: rest)).map fun found => (keys, found)
  | _ => none

def tableLines (depth : Nat) (label : List Char) (items : List Json)
    (found : List String × List (List (List Char))) : List Line :=
  ⟨depth, label ++ count items ++ '\x7b' :: (commas (found.1.map keyText) ++ ['\x7d', ':'])⟩ ::
    found.2.map fun texts => ⟨depth + 1, commas texts⟩

/-- An array that needs no list: primitives, rows of primitives, or a table. -/
def compactArray? (depth : Nat) (label : List Char) (items : List Json) : Option (List Line) :=
  match primitives? items with
  | some texts => some [⟨depth, row label items texts⟩]
  | none =>
    match rows? (depth + 1) items with
    | some lines => some (⟨depth, label ++ count items ++ [':']⟩ :: lines)
    | none => (table? items).map (tableLines depth label items)

def isObject : Json → Bool
  | .object _ => true
  | _ => false

mutual
def memberLines (depth : Nat) : List (String × Json) → List Line
  | [] => []
  | (key, value) :: rest => memberLine depth key value ++ memberLines depth rest

def memberLine (depth : Nat) (key : String) : Json → List Line
  | .object members => ⟨depth, keyText key ++ [':']⟩ :: memberLines (depth + 1) members
  | .array items =>
    match compactArray? depth (keyText key) items with
    | some lines => lines
    | none => ⟨depth, keyText key ++ count items ++ [':']⟩ :: listLines (depth + 1) items
  | value => [⟨depth, keyText key ++ ':' :: ' ' :: primitiveText value⟩]

def listLines (depth : Nat) : List Json → List Line
  | [] => []
  | item :: rest => itemLines depth item ++ listLines depth rest

def itemLines (depth : Nat) : Json → List Line
  | .object [] => [⟨depth, ['-']⟩]
  | .object ((key, value) :: rest) => firstLines depth key value ++ memberLines (depth + 1) rest
  | .array items =>
    match primitives? items with
    | some texts => [⟨depth, row ['-', ' '] items texts⟩]
    | none => []
  | value => [⟨depth, '-' :: ' ' :: primitiveText value⟩]

/-- The first member of an object in a list, on the line of its dash. An array that is
neither primitives, a table nor a list of objects is written below its label once more,
without the label. -/
def firstLines (depth : Nat) (key : String) : Json → List Line
  | .object members =>
      ⟨depth, '-' :: ' ' :: (keyText key ++ [':'])⟩ :: memberLines (depth + 2) members
  | .array items =>
    let label := '-' :: ' ' :: keyText key
    match primitives? items with
    | some texts => [⟨depth, row label items texts⟩]
    | none =>
      match table? items with
      | some found => tableLines depth label items found
      | none =>
        ⟨depth, label ++ count items ++ [':']⟩ ::
          (if items.all isObject then listLines (depth + 1) items
           else
             match compactArray? (depth + 1) [] items with
             | some lines => lines
             | none => ⟨depth + 1, count items ++ [':']⟩ :: listLines (depth + 2) items)
  | value => [⟨depth, '-' :: ' ' :: (keyText key ++ ':' :: ' ' :: primitiveText value)⟩]
end

def lines : Json → List Line
  | .object members => memberLines 0 members
  | .array items =>
    match compactArray? 0 [] items with
    | some lines => lines
    | none => ⟨0, count items ++ [':']⟩ :: listLines 1 items
  | value => [⟨0, primitiveText value⟩]

/-- A value in Toon; the members of objects are put in the order of their names first. -/
def encode (value : Json) : String :=
  String.ofList (List.intercalate ['\n']
    ((lines value.sorted).map fun line => List.replicate (2 * line.depth) ' ' ++ line.text))

end DocumentViews.Toon
