import DocumentViews.Json.Value
import DocumentViews.Number.Layout

/-! JSON values as text, compact or indented.
Both writers keep the order of members. The indented form puts each item on a line of its own, two
blanks deeper than its container, and closes empty containers at once. -/
namespace DocumentViews.Json

/-- Doubles keep a point, and have an exponent below `10 ^ -5` and from `10 ^ 16` on. -/
def layout : Layout where
  positional leading := -5 ≤ leading && leading ≤ 15
  keepsPoint := true
  signsZero := true

def numberText : Number → List Char
  | .integer value =>
      if value < 0 then '-' :: Nat.toDigits 10 value.natAbs else Nat.toDigits 10 value.natAbs
  | .double value => layout.text value

def literal (text : String) : List Char := '"' :: (Escape.encode text.toList ++ ['"'])

def boolText (b : Bool) : List Char := if b then ['t', 'r', 'u', 'e'] else ['f', 'a', 'l', 's', 'e']

def nullText : List Char := ['n', 'u', 'l', 'l']

mutual
def compactChars : Json → List Char
  | .null => nullText
  | .bool b => boolText b
  | .number n => numberText n
  | .string s => literal s
  | .array items => '[' :: (compactItems items ++ [']'])
  | .object members => '\x7b' :: (compactMembers members ++ ['\x7d'])

def compactItems : List Json → List Char
  | [] => []
  | [item] => compactChars item
  | item :: next :: rest => compactChars item ++ ',' :: compactItems (next :: rest)

def compactMembers : List (String × Json) → List Char
  | [] => []
  | [(name, value)] => literal name ++ ':' :: compactChars value
  | (name, value) :: next :: rest =>
    literal name ++ ':' :: (compactChars value ++ ',' :: compactMembers (next :: rest))
end

/-- A value in one line without blanks. -/
def compact (value : Json) : String := String.ofList value.compactChars

def newline (depth : Nat) : List Char := '\n' :: List.replicate (2 * depth) ' '

mutual
def prettyChars (depth : Nat) : Json → List Char
  | .null => nullText
  | .bool b => boolText b
  | .number n => numberText n
  | .string s => literal s
  | .array [] => ['[', ']']
  | .array (item :: rest) =>
    '[' :: (newline (depth + 1) ++ prettyChars (depth + 1) item ++ prettyItems (depth + 1) rest ++
      newline depth ++ [']'])
  | .object [] => ['\x7b', '\x7d']
  | .object ((name, value) :: rest) =>
    '\x7b' :: (newline (depth + 1) ++ literal name ++ ':' :: ' ' :: prettyChars (depth + 1) value ++
      prettyMembers (depth + 1) rest ++ newline depth ++ ['\x7d'])

/-- Further items, each after a comma and on its own line. -/
def prettyItems (depth : Nat) : List Json → List Char
  | [] => []
  | item :: rest => ',' :: (newline depth ++ prettyChars depth item ++ prettyItems depth rest)

def prettyMembers (depth : Nat) : List (String × Json) → List Char
  | [] => []
  | (name, value) :: rest =>
    ',' :: (newline depth ++ literal name ++ ':' :: ' ' :: prettyChars depth value ++
      prettyMembers depth rest)
end

def pretty (value : Json) : String := String.ofList (value.prettyChars 0)

end DocumentViews.Json
