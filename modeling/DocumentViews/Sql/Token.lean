import DocumentViews.Sql.Name

/-! SQL as a row of tokens.
Statements are built from tokens and written out once. Names and literals come in as content, and
only writing puts marks around them, so no content can end its own token. -/
namespace DocumentViews.Sql

/-- A token of SQL text, or the blank between two of them. -/
inductive Token where
  | word (text : String)
  /-- A quoted name, by its content. -/
  | name (content : String)
  | literal (content : String)
  | mark (c : Char)
  | blank
deriving DecidableEq

def Token.chars : Token → List Char
  | .word text => text.toList
  | .name content => Text.Quoted.encode nameMark content.toList
  | .literal content => Text.Quoted.encode literalMark content.toList
  | .mark c => [c]
  | .blank => [' ']

def text (tokens : List Token) : String := String.ofList (tokens.flatMap Token.chars)

def words : List String → List Token
  | [] => []
  | [last] => [.word last]
  | first :: rest => .word first :: .blank :: words rest

def column (table name : String) : List Token := [.name table, .mark '.', .name name]

def parens (inside : List Token) : List Token := .mark '(' :: (inside ++ [.mark ')'])

def cast (value : List Token) (type : String) : List Token :=
  value ++ [.mark ':', .mark ':', .word type]

/-- Rows of tokens with a comma and a blank between them. -/
def commas : List (List Token) → List Token
  | [] => []
  | [last] => last
  | first :: rest => first ++ [.mark ',', .blank] ++ commas rest

def named (value : List Token) (name : String) : List Token :=
  value ++ [.blank, .word "AS", .blank, .name name]

end DocumentViews.Sql
