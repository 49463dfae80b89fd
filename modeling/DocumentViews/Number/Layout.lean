import DocumentViews.Number.Shortest

/-! How a double is laid out as text, given its shortest digits.
A layout is a handful of decisions; the formats that print doubles each state theirs. -/
namespace DocumentViews

/-- The decisions of a text format about doubles. -/
structure Layout where
  /-- Whether a first digit at this power of ten is written without an exponent. -/
  positional : Int → Bool
  /-- Whether an integral double ends in a point and a zero. -/
  keepsPoint : Bool
  /-- Whether a negative zero has its sign. -/
  signsZero : Bool

namespace Layout

def plain (layout : Layout) (d : Decimal) : List Char :=
  let digits := d.text
  if 0 ≤ d.exponent then
    digits ++ List.replicate d.exponent.toNat '0' ++ (if layout.keepsPoint then ['.', '0'] else [])
  else
    let places := (-d.exponent).toNat
    if places < digits.length then
      digits.take (digits.length - places) ++ '.' :: digits.drop (digits.length - places)
    else '0' :: '.' :: (List.replicate (places - digits.length) '0' ++ digits)

/-- A decimal with one digit before the point and a signed exponent. -/
def scientific (d : Decimal) : List Char :=
  let tail := d.text.drop 1
  d.text.take 1 ++ (if tail.isEmpty then [] else '.' :: tail) ++
    'e' :: (if d.leading < 0 then '-' else '+') :: Nat.toDigits 10 d.leading.natAbs

def text (layout : Layout) (d : Binary64) : List Char :=
  if d.isZero then
    (if d.negative && layout.signsZero then ['-'] else []) ++ layout.plain ⟨0, 0⟩
  else
    (if d.negative then ['-'] else []) ++
      (if layout.positional d.shortest.leading then layout.plain d.shortest
        else scientific d.shortest)

end Layout

end DocumentViews
