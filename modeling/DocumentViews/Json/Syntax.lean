import DocumentViews.Json.Escape
import DocumentViews.Number.Numeral

/-! JSON texts as syntax trees.
A tree keeps the members of an object in order, with repetitions, and leaves string literals and
numerals as they were written; they are decoded when somebody asks for their meaning, so a part
that nobody asks for only has to be well formed. Reading is two machines in a row, one from
characters to lexemes and one from lexemes to trees, each a step function folded over its input. -/
namespace DocumentViews.Json

/-- A JSON text in structure; literals hold their inside as written. -/
inductive Syntax where
  | null
  | bool (value : Bool)
  | number (numeral : Numeral)
  | string (literal : List Char)
  | array (items : List Syntax)
  | object (members : List (List Char × Syntax))
deriving Inhabited

inductive Lexeme where
  | openBrace
  | closeBrace
  | openBracket
  | closeBracket
  | colon
  | comma
  | null
  | bool (value : Bool)
  | number (numeral : Numeral)
  | string (literal : List Char)
deriving DecidableEq

/-- What the lexer is in the middle of; runs are kept latest character first. -/
inductive Lexer.Mode where
  | between
  | literal (run : List Char)
  | escape (run : List Char)
  | numeral (run : List Char)
  | word (run : List Char)

/-- The lexer's state: its mode and the lexemes found, latest first. -/
structure Lexer where
  mode : Lexer.Mode
  found : List Lexeme

namespace Lexer

def start : Lexer := ⟨.between, []⟩

/-- The white space that may stand between lexemes. -/
def isSpace (c : Char) : Bool := c = ' ' || c = '\n' || c = '\t' || c = '\r'

def inNumeral (c : Char) : Bool := c.isDigit || c = '-' || c = '+' || c = '.' || c = 'e' || c = 'E'

def word? (run : List Char) : Option Lexeme :=
  if run = ['n', 'u', 'l', 'l'] then some .null
  else if run = ['t', 'r', 'u', 'e'] then some (.bool true)
  else if run = ['f', 'a', 'l', 's', 'e'] then some (.bool false)
  else none

/-- Takes a character that stands between lexemes. -/
def opening (found : List Lexeme) (c : Char) : Option Lexer :=
  if isSpace c then some ⟨.between, found⟩
  else if c = '\x7b' then some ⟨.between, .openBrace :: found⟩
  else if c = '\x7d' then some ⟨.between, .closeBrace :: found⟩
  else if c = '[' then some ⟨.between, .openBracket :: found⟩
  else if c = ']' then some ⟨.between, .closeBracket :: found⟩
  else if c = ':' then some ⟨.between, .colon :: found⟩
  else if c = ',' then some ⟨.between, .comma :: found⟩
  else if c = '"' then some ⟨.literal [], found⟩
  else if c.isDigit || c = '-' then some ⟨.numeral [c], found⟩
  else if c.isLower then some ⟨.word [c], found⟩
  else none

/-- Ends the numeral or word that the lexer is in the middle of, if any. -/
def settle (lexer : Lexer) : Option (List Lexeme) :=
  match lexer.mode with
  | .between => some lexer.found
  | .numeral run => (Numeral.read run.reverse).map fun numeral => .number numeral :: lexer.found
  | .word run => (word? run.reverse).map (· :: lexer.found)
  | .literal _ => none
  | .escape _ => none

def step (lexer : Lexer) (c : Char) : Option Lexer :=
  match lexer.mode with
  | .literal run =>
    if c = '"' then
      if Escape.wellFormed run.reverse then some ⟨.between, .string run.reverse :: lexer.found⟩
      else none
    else if c = '\\' then some ⟨.escape run, lexer.found⟩
    else some ⟨.literal (c :: run), lexer.found⟩
  | .escape run => some ⟨.literal (c :: '\\' :: run), lexer.found⟩
  | .numeral run =>
    if inNumeral c then some ⟨.numeral (c :: run), lexer.found⟩
    else lexer.settle.bind (opening · c)
  | .word run =>
    if c.isLower then some ⟨.word (c :: run), lexer.found⟩
    else lexer.settle.bind (opening · c)
  | .between => opening lexer.found c

def run (text : List Char) : Option (List Lexeme) :=
  ((text.foldlM step start).bind settle).map List.reverse

end Lexer

/-- A container that is not closed yet, its parts latest first. -/
inductive Builder.Frame where
  | items (done : List Syntax)
  | member (done : List (List Char × Syntax)) (key : List Char)

inductive Builder.Stage where
  | value
  | valueOrEnd
  | key (done : List (List Char × Syntax))
  | keyOrEnd
  | colon (done : List (List Char × Syntax)) (key : List Char)
  | after (value : Syntax)

/-- The tree builder's state: what may come next, and the open containers, innermost first. -/
structure Builder where
  stage : Builder.Stage
  stack : List Builder.Frame

namespace Builder

def start : Builder := ⟨.value, []⟩

def value (stack : List Frame) : Lexeme → Option Builder
  | .null => some ⟨.after .null, stack⟩
  | .bool b => some ⟨.after (.bool b), stack⟩
  | .number n => some ⟨.after (.number n), stack⟩
  | .string s => some ⟨.after (.string s), stack⟩
  | .openBracket => some ⟨.valueOrEnd, .items [] :: stack⟩
  | .openBrace => some ⟨.keyOrEnd, stack⟩
  | _ => none

def close (done : Syntax) : List Frame → Lexeme → Option Builder
  | .items items :: stack, .comma => some ⟨.value, .items (done :: items) :: stack⟩
  | .items items :: stack, .closeBracket => some ⟨.after (.array (done :: items).reverse), stack⟩
  | .member members key :: stack, .comma => some ⟨.key ((key, done) :: members), stack⟩
  | .member members key :: stack, .closeBrace =>
    some ⟨.after (.object ((key, done) :: members).reverse), stack⟩
  | _, _ => none

def step (builder : Builder) (lexeme : Lexeme) : Option Builder :=
  match builder.stage with
  | .value => value builder.stack lexeme
  | .valueOrEnd =>
    match lexeme, builder.stack with
    | .closeBracket, .items _ :: stack => some ⟨.after (.array []), stack⟩
    | _, _ => value builder.stack lexeme
  | .key done =>
    match lexeme with
    | .string key => some ⟨.colon done key, builder.stack⟩
    | _ => none
  | .keyOrEnd =>
    match lexeme with
    | .string key => some ⟨.colon [] key, builder.stack⟩
    | .closeBrace => some ⟨.after (.object []), builder.stack⟩
    | _ => none
  | .colon done key =>
    match lexeme with
    | .colon => some ⟨.value, .member done key :: builder.stack⟩
    | _ => none
  | .after done => close done builder.stack lexeme

def finish (builder : Builder) : Option Syntax :=
  match builder.stage, builder.stack with
  | .after done, [] => some done
  | _, _ => none

def run (lexemes : List Lexeme) : Option Syntax :=
  (lexemes.foldlM step start).bind finish

end Builder

/-- Reads a whole text as one JSON value; blanks may stand around it and nothing else. -/
def Syntax.read (text : String) : Option Syntax :=
  (Lexer.run text.toList).bind Builder.run

end DocumentViews.Json
