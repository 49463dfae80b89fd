import DocumentViews.Text.Quoted

/-! Names and literals in SQL.
A quoted name is one token whatever it contains, and so is a literal; backslashes have no meaning
in either. A plain name needs no quotes. -/
namespace DocumentViews.Sql

def nameMark : Char := '"'

def literalMark : Char := '\''

def quoteName (name : String) : String := String.ofList (Text.Quoted.encode nameMark name.toList)

def quoteLiteral (text : String) : String :=
  String.ofList (Text.Quoted.encode literalMark text.toList)

/-- Whether a character may start a plain name. Only ASCII letters count. -/
def startsPlain (c : Char) : Bool := c.isAlpha || c = '_'

def continuesPlain (c : Char) : Bool := c.isAlphanum || c = '_'

/-- Whether a name is plain: a letter or underscore, then letters, digits and underscores. -/
def isPlain (name : String) : Bool :=
  match name.toList with
  | [] => false
  | first :: rest => startsPlain first && rest.all continuesPlain

def viewName (collection : String) : String := collection ++ "_view"

/-- The only column of every view. -/
def dataColumn : String := "data"

end DocumentViews.Sql
