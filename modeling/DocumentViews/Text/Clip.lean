/-! Cutting a message to a number of characters. -/
namespace DocumentViews.Text

/-- The first characters of a text, at most the given number; a shorter text stays as it is. -/
def clip (limit : Nat) (text : String) : String :=
  String.ofList (text.toList.take limit)

end DocumentViews.Text
