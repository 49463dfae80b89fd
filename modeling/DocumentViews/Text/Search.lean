/-! Finding one text in another. -/
namespace DocumentViews.Text

/-- What follows the first occurrence of a fragment, if it occurs. -/
def after? (fragment : List Char) : List Char → Option (List Char)
  | [] => if fragment.isEmpty then some [] else none
  | c :: rest =>
    if fragment.isPrefixOf (c :: rest) then some ((c :: rest).drop fragment.length)
    else after? fragment rest

/-- Whether a fragment occurs in a text; the empty fragment always does. -/
def occursIn (fragment text : String) : Bool := (after? fragment.toList text.toList).isSome

/-- What follows a given start of a text, if it starts so. -/
def afterStart? (start : String) (text : List Char) : Option (List Char) :=
  if start.toList.isPrefixOf text then some (text.drop start.length) else none

/-- The parts of a text between the occurrences of a mark; a text without the mark is one part. -/
def parts (mark : Char) : List Char → List (List Char)
  | [] => [[]]
  | c :: rest =>
    if c = mark then [] :: parts mark rest
    else
      match parts mark rest with
      | [] => [[c]]
      | first :: others => (c :: first) :: others

end DocumentViews.Text
