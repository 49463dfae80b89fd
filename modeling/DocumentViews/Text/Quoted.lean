/-! Text between two marks, in which every mark of the text is written twice.
Reading stops at the first mark that stands alone, so the reader also tells where the text ends.
Both directions work on characters and know nothing of what the text means. -/
namespace DocumentViews.Text.Quoted

def doubled (mark c : Char) : List Char :=
  if c = mark then [mark, mark] else [c]

def encode (mark : Char) (text : List Char) : List Char :=
  mark :: (text.flatMap (doubled mark) ++ [mark])

/-- Reads to the mark that closes the text; gives the text and all that follows the mark. -/
def scanInside (mark : Char) : List Char → Option (List Char × List Char)
  | [] => none
  | [c] => if c = mark then some ([], []) else none
  | c :: d :: r =>
    if c = mark then
      if d = mark then (scanInside mark r).map fun found => (mark :: found.1, found.2)
      else some ([], d :: r)
    else (scanInside mark (d :: r)).map fun found => (c :: found.1, found.2)

/-- Reads one quoted text from the front; gives the text and what follows it. -/
def scan (mark : Char) : List Char → Option (List Char × List Char)
  | [] => none
  | c :: r => if c = mark then scanInside mark r else none

end DocumentViews.Text.Quoted
