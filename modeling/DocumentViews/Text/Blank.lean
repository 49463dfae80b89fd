/-! The characters that count as white space: the Unicode property of that name. -/
namespace DocumentViews.Text

/-- The ranges of white space, as first and last code points in rising order. -/
def blankRanges : List (Nat × Nat) :=
  [(0x9, 0xd), (0x20, 0x20), (0x85, 0x85), (0xa0, 0xa0), (0x1680, 0x1680), (0x2000, 0x200a),
   (0x2028, 0x2029), (0x202f, 0x202f), (0x205f, 0x205f), (0x3000, 0x3000)]

def isBlank (c : Char) : Bool :=
  blankRanges.any fun range => range.1 ≤ c.toNat && c.toNat ≤ range.2

example : blankRanges.Pairwise (fun a b => a.2 < b.1) := by decide

example : [' ', '\t', '\n', '\r'].all isBlank = true := by decide

end DocumentViews.Text
