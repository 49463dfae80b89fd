/-! The inside of JSON string literals.
Writing escapes the quote, the backslash and the control characters, and nothing else. Reading
takes every escape of the format; a surrogate escape must have its partner, for a text has no half
characters. Whether a literal is well formed can be told without decoding it. -/
namespace DocumentViews.Json.Escape

def hexValue (c : Char) : Option Nat :=
  if '0' ≤ c ∧ c ≤ '9' then some (c.toNat - '0'.toNat)
  else if 'a' ≤ c ∧ c ≤ 'f' then some (c.toNat - 'a'.toNat + 10)
  else if 'A' ≤ c ∧ c ≤ 'F' then some (c.toNat - 'A'.toNat + 10)
  else none

def hexDigit (value : Nat) : Char :=
  if value < 10 then Char.ofNat ('0'.toNat + value) else Char.ofNat ('a'.toNat + (value - 10))

def unit? (a b c d : Char) : Option Nat := do
  let a ← hexValue a
  let b ← hexValue b
  let c ← hexValue c
  let d ← hexValue d
  return ((a * 16 + b) * 16 + c) * 16 + d

def char (c : Char) : List Char :=
  if c = '"' then ['\\', '"']
  else if c = '\\' then ['\\', '\\']
  else if c = '\x08' then ['\\', 'b']
  else if c = '\x0c' then ['\\', 'f']
  else if c = '\n' then ['\\', 'n']
  else if c = '\r' then ['\\', 'r']
  else if c = '\t' then ['\\', 't']
  else if c.toNat < 0x20 then ['\\', 'u', '0', '0', hexDigit (c.toNat / 16),
    hexDigit (c.toNat % 16)]
  else [c]

def encode (text : List Char) : List Char := text.flatMap char

/-- The character that a one-letter escape stands for. -/
def letter (c : Char) : Option Char :=
  if c = '"' ∨ c = '\\' ∨ c = '/' then some c
  else if c = 'b' then some '\x08'
  else if c = 'f' then some '\x0c'
  else if c = 'n' then some '\n'
  else if c = 'r' then some '\r'
  else if c = 't' then some '\t'
  else none

/-- Whether a code unit opens a surrogate pair. -/
def isHigh (code : Nat) : Bool := 0xd800 ≤ code && code < 0xdc00

/-- Whether a code unit closes a surrogate pair. -/
def isLow (code : Nat) : Bool := 0xdc00 ≤ code && code < 0xe000

def pair (high low : Nat) : Char := Char.ofNat (0x10000 + (high - 0xd800) * 0x400 + (low - 0xdc00))

/-- The text of a well-formed literal; none when a surrogate stands alone. -/
def decode : List Char → Option (List Char)
  | [] => some []
  | '\\' :: 'u' :: a :: b :: c :: d :: rest =>
    match unit? a b c d with
    | none => none
    | some code =>
      if isHigh code then
        match rest with
        | '\\' :: 'u' :: e :: f :: g :: h :: after =>
          match unit? e f g h with
          | none => none
          | some low => if isLow low then (decode after).map (pair code low :: ·) else none
        | _ => none
      else if isLow code then none
      else (decode rest).map (Char.ofNat code :: ·)
  | '\\' :: c :: rest =>
    match letter c with
    | none => none
    | some stands => (decode rest).map (stands :: ·)
  | c :: rest => (decode rest).map (c :: ·)

/-- Whether the inside of a literal keeps to the format: known escapes and no control characters. -/
def wellFormed : List Char → Bool
  | [] => true
  | '\\' :: 'u' :: a :: b :: c :: d :: rest => (unit? a b c d).isSome && wellFormed rest
  | '\\' :: c :: rest => (letter c).isSome && wellFormed rest
  | c :: rest => c ≠ '\\' && 0x20 ≤ c.toNat && wellFormed rest

end DocumentViews.Json.Escape
