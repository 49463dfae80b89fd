import DocumentViews.Number.Binary64

/-! Decimal numerals as they stand in a JSON text, and the numbers they denote.
A numeral without fraction and exponent that fits in 64 bits, signed or not, denotes that integer.
Every other numeral denotes a double, found from as many of its first digits as fit in 64 bits. -/
namespace DocumentViews

/-- A numeral, its digits kept as written. -/
structure Numeral where
  negative : Bool
  whole : List Char
  /-- The digits after the point; none when there is no point. -/
  fraction : List Char
  exponent : Option (Bool × List Char)
deriving DecidableEq, Inhabited

inductive Number where
  | integer (value : Int)
  | double (value : Binary64)
deriving DecidableEq

namespace Numeral

def digitValue (c : Char) : Nat := c.toNat - '0'.toNat

def value (digits : List Char) : Nat :=
  digits.foldl (fun sum c => sum * 10 + digitValue c) 0

def readExponent : List Char → Option (Option (Bool × List Char))
  | [] => some none
  | mark :: rest =>
    if mark = 'e' ∨ mark = 'E' then
      let signed :=
        match rest with
        | '-' :: digits => (true, digits)
        | '+' :: digits => (false, digits)
        | digits => (false, digits)
      if signed.2 ≠ [] ∧ signed.2.all Char.isDigit then some (some signed) else none
    else none

def readFraction : List Char → Option (List Char × Option (Bool × List Char))
  | '.' :: rest =>
    let digits := rest.takeWhile Char.isDigit
    if digits = [] then none else (readExponent (rest.dropWhile Char.isDigit)).map fun e =>
      (digits, e)
  | rest => (readExponent rest).map fun e => ([], e)

/-- The parts after the sign: no leading zero before another digit. -/
def readUnsigned (negative : Bool) (text : List Char) : Option Numeral :=
  let whole := text.takeWhile Char.isDigit
  if whole = [] ∨ (whole.head? = some '0' ∧ whole ≠ ['0']) then none
  else (readFraction (text.dropWhile Char.isDigit)).map fun tail =>
    ⟨negative, whole, tail.1, tail.2⟩

def read : List Char → Option Numeral
  | '-' :: rest => readUnsigned true rest
  | text => readUnsigned false text

/-- The natural number that a bare row of digits denotes; a sign, fraction or exponent
denotes none. -/
def nat? (n : Numeral) : Option Nat :=
  if n.negative = false ∧ n.fraction = [] ∧ n.exponent = none then some (value n.whole) else none

/-- Takes in digits while the significand stays below `2 ^ 64`; gives the digits left over. -/
def absorb (significand : Nat) : List Char → Nat × List Char
  | [] => (significand, [])
  | c :: rest =>
    let next := significand * 10 + digitValue c
    if next < UInt64.size then absorb next rest else (significand, c :: rest)

/-- The double that a numeral denotes; none when it is too large. -/
def double? (n : Numeral) : Option Binary64 :=
  let whole := absorb 0 n.whole
  let part := absorb whole.1 n.fraction
  let written : Int :=
    match n.exponent with
    | none => 0
    | some (true, digits) => -(value digits : Int)
    | some (false, digits) => value digits
  let places : Int := (whole.2.length : Int) - (n.fraction.length - part.2.length : Nat)
  Binary64.ofDecimal n.negative part.1 (places + written)

def number? (n : Numeral) : Option Number :=
  let size := value n.whole
  if n.fraction = [] ∧ n.exponent = none ∧ n.negative = false ∧ size < UInt64.size then
    some (.integer size)
  else if n.fraction = [] ∧ n.exponent = none ∧ n.negative ∧ 0 < size ∧ 2 * size ≤ UInt64.size then
    some (.integer (-size))
  else n.double?.map .double

end Numeral

end DocumentViews
