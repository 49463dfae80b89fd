import DocumentViews.Json.Writer
import DocumentViews.Proofs.Json.Escape
import DocumentViews.Proofs.NameMap
import Mathlib.Data.List.Basic
import Mathlib.Data.List.TakeWhile

/-! Compact JSON texts are read back.
The lexemes and the syntax tree of a value are defined beside its text; the lexer finds the lexemes
in the text, and the tree builder finds the tree in the lexemes. Values with doubles are left out,
for they are written by a layout of their own. -/
namespace DocumentViews.Json

mutual
/-- Whether a value holds no doubles. -/
def exact : Json → Bool
  | .number (.double _) => false
  | .array items => exactItems items
  | .object members => exactMembers members
  | _ => true

def exactItems : List Json → Bool
  | [] => true
  | item :: rest => exact item && exactItems rest

def exactMembers : List (String × Json) → Bool
  | [] => true
  | (_, value) :: rest => exact value && exactMembers rest
end

def numeral (number : Number) : Numeral := (Numeral.read (numberText number)).getD default

mutual
/-- The lexemes of the compact text of a value. -/
def lexemes : Json → List Lexeme
  | .null => [.null]
  | .bool b => [.bool b]
  | .number n => [.number (numeral n)]
  | .string s => [.string (Escape.encode s.toList)]
  | .array items => .openBracket :: (itemLexemes items ++ [.closeBracket])
  | .object members => .openBrace :: (memberLexemes members ++ [.closeBrace])

def itemLexemes : List Json → List Lexeme
  | [] => []
  | [item] => lexemes item
  | item :: next :: rest => lexemes item ++ .comma :: itemLexemes (next :: rest)

def memberLexemes : List (String × Json) → List Lexeme
  | [] => []
  | [(name, value)] => .string (Escape.encode name.toList) :: .colon :: lexemes value
  | (name, value) :: next :: rest =>
    .string (Escape.encode name.toList) :: .colon ::
      (lexemes value ++ .comma :: memberLexemes (next :: rest))
end

mutual
/-- The syntax tree of the compact text of a value. -/
def tree : Json → Syntax
  | .null => .null
  | .bool b => .bool b
  | .number n => .number (numeral n)
  | .string s => .string (Escape.encode s.toList)
  | .array items => .array (itemTrees items)
  | .object members => .object (memberTrees members)

def itemTrees : List Json → List Syntax
  | [] => []
  | item :: rest => tree item :: itemTrees rest

def memberTrees : List (String × Json) → List (List Char × Syntax)
  | [] => []
  | (name, value) :: rest => (Escape.encode name.toList, tree value) :: memberTrees rest
end

theorem toDigits_leading {n : Nat} (leading : (Nat.toDigits 10 n).head? = some '0') :
    Nat.toDigits 10 n = ['0'] := by
  induction n using Nat.strongRecOn with
  | ind n ih =>
    by_cases small : n < 10
    · rw [Nat.toDigits_of_lt_base small] at leading ⊢
      exact congrArg (fun c => [c]) (Option.some.inj leading)
    · -- the leading digit is that of a tenth of the number, which is not zero
      have split := Nat.toDigits_of_base_le (by decide : 1 < 10) (Nat.le_of_not_lt small)
      have tenth : (Nat.toDigits 10 (n / 10)).head? = some '0' := by
        rw [split, List.head?_append_of_ne_nil _ Nat.toDigits_ne_nil] at leading
        exact leading
      have zero := ih (n / 10) (by omega) tenth
      have back := Nat.ofDigitChars_ten_toDigits (n := n / 10)
      rw [zero] at back
      have : n / 10 = 0 := back.symm
      omega

theorem all_digits (n : Nat) : ∀ c ∈ Nat.toDigits 10 n, c.isDigit = true :=
  fun _ member => Nat.isDigit_of_mem_toDigits (by decide) (by decide) member

theorem readUnsigned_digits (negative : Bool) (n : Nat) :
    Numeral.readUnsigned negative (Nat.toDigits 10 n) =
      some ⟨negative, Nat.toDigits 10 n, [], none⟩ := by
  have taken : (Nat.toDigits 10 n).takeWhile Char.isDigit = Nat.toDigits 10 n :=
    List.takeWhile_eq_self_iff.mpr (all_digits n)
  have left : (Nat.toDigits 10 n).dropWhile Char.isDigit = [] :=
    List.dropWhile_eq_nil_iff.mpr (all_digits n)
  have wellFormed : ¬ (Nat.toDigits 10 n = [] ∨
      ((Nat.toDigits 10 n).head? = some '0' ∧ Nat.toDigits 10 n ≠ ['0'])) := by
    rintro (empty | ⟨leading, more⟩)
    · exact Nat.toDigits_ne_nil empty
    · exact more (toDigits_leading leading)
  simp only [Numeral.readUnsigned, taken, left, if_neg wellFormed]
  rfl

theorem read_integer (value : Int) :
    Numeral.read (numberText (.integer value)) = some ⟨value < 0,
      Nat.toDigits 10 value.natAbs, [], none⟩ := by
  by_cases below : value < 0
  · simp only [numberText, if_pos below, Numeral.read, readUnsigned_digits, decide_eq_true below]
  · have unsigned : ∀ rest, Nat.toDigits 10 value.natAbs ≠ '-' :: rest := by
      intro rest same
      have digit := all_digits value.natAbs '-' (same ▸ List.mem_cons_self)
      revert digit
      decide
    simp only [numberText, if_neg below, decide_eq_false below]
    rw [Numeral.read.eq_def]
    split
    · rename_i rest same
      exact absurd same (unsigned rest)
    · exact readUnsigned_digits false value.natAbs

namespace Lexer

/-- The lexemes that the lexer has found when a text ends, latest first. -/
def finish (lexer : Lexer) (text : List Char) : Option (List Lexeme) :=
  (text.foldlM step lexer).bind settle

@[simp]
theorem finish_nil (lexer : Lexer) : lexer.finish [] = lexer.settle := rfl

@[simp]
theorem finish_cons (lexer : Lexer) (c : Char) (rest : List Char) :
    lexer.finish (c :: rest) = (lexer.step c).bind (·.finish rest) := by
  simp [finish, List.foldlM_cons, Option.bind_assoc]

/-- A text that cannot continue the word or numeral before it. -/
def Delimited (text : List Char) : Prop := ∀ c ∈ text.head?, c = ',' ∨ c = ']' ∨ c = '\x7d'

theorem finish_escaped_char (run : List Char) (found : List Lexeme) (c : Char) (after : List Char) :
    finish ⟨.literal run, found⟩ (Escape.char c ++ after) =
      finish ⟨.literal ((Escape.char c).reverse ++ run), found⟩ after := by
  rcases Escape.char_cases c with ⟨x, _, _, written⟩ | ⟨small, written⟩ |
    ⟨_, quote, backslash, written⟩
  · simp [written, step]
  · have high := Escape.hexDigit_plain (c.toNat / 16) (by omega)
    have low := Escape.hexDigit_plain (c.toNat % 16) (by omega)
    simp [written, step, high, low]
  · simp [written, step, quote, backslash]

theorem finish_escaped (text run : List Char) (found : List Lexeme) (after : List Char) :
    finish ⟨.literal run, found⟩ (Escape.encode text ++ after) =
      finish ⟨.literal ((Escape.encode text).reverse ++ run), found⟩ after := by
  induction text generalizing run with
  | nil => rfl
  | cons c rest ih =>
    have unfolded : Escape.encode (c :: rest) = Escape.char c ++ Escape.encode rest := rfl
    rw [unfolded, List.append_assoc, finish_escaped_char, ih,
      List.reverse_append, List.append_assoc]

theorem finish_literal (text : String) (found : List Lexeme) (after : List Char) :
    finish ⟨.between, found⟩ (Json.literal text ++ after) =
      finish ⟨.between, .string (Escape.encode text.toList) :: found⟩ after := by
  have body := finish_escaped text.toList [] found ('"' :: after)
  have opened : step ⟨.between, found⟩ '"' = some ⟨.literal [], found⟩ := by
    simp [step, opening, isSpace]
  simp only [Json.literal, List.cons_append, List.append_assoc, List.nil_append,
    finish_cons, opened, Option.bind_some] at body ⊢
  rw [body]
  simp [step, Escape.wellFormed_encode]

/-- Before a delimiter a finished run counts as its lexeme. -/
theorem finish_run (mode : Mode) {found : List Lexeme} {lexeme : Lexeme} {after : List Char}
    (delimited : Delimited after) (settles : settle ⟨mode, found⟩ = some (lexeme :: found))
    (stops : ∀ c, c = ',' ∨ c = ']' ∨ c = '\x7d' →
      step ⟨mode, found⟩ c = (settle ⟨mode, found⟩).bind (opening · c)) :
    finish ⟨mode, found⟩ after = finish ⟨.between, lexeme :: found⟩ after := by
  cases after with
  | nil => exact settles
  | cons c rest =>
    rw [finish_cons, finish_cons, stops c (delimited c rfl), settles]
    rfl

theorem stops_word (run : List Char) (found : List Lexeme) (c : Char)
    (delimiter : c = ',' ∨ c = ']' ∨ c = '\x7d') :
    step ⟨.word run, found⟩ c = (settle ⟨.word run, found⟩).bind (opening · c) := by
  rcases delimiter with rfl | rfl | rfl <;> rfl

theorem stops_numeral (run : List Char) (found : List Lexeme) (c : Char)
    (delimiter : c = ',' ∨ c = ']' ∨ c = '\x7d') :
    step ⟨.numeral run, found⟩ c = (settle ⟨.numeral run, found⟩).bind (opening · c) := by
  rcases delimiter with rfl | rfl | rfl <;> rfl

theorem finish_null (found : List Lexeme) {after : List Char} (delimited : Delimited after) :
    finish ⟨.between, found⟩ (nullText ++ after) = finish ⟨.between, .null :: found⟩ after :=
  finish_run (.word ['l', 'l', 'u', 'n']) delimited rfl (stops_word _ _)

theorem finish_bool (b : Bool) (found : List Lexeme) {after : List Char}
    (delimited : Delimited after) :
    finish ⟨.between, found⟩ (boolText b ++ after) = finish ⟨.between, .bool b :: found⟩ after := by
  cases b with
  | true => exact finish_run (.word ['e', 'u', 'r', 't']) delimited rfl (stops_word _ _)
  | false => exact finish_run (.word ['e', 's', 'l', 'a', 'f']) delimited rfl (stops_word _ _)

theorem opening_digit {c : Char} (digit : c.isDigit = true) (found : List Lexeme) :
    opening found c = some ⟨.numeral [c], found⟩ := by
  have other : ∀ d : Char, d.isDigit = false → c ≠ d := fun d no same => by simp [same, no] at digit
  simp [opening, isSpace, digit, other ' ' rfl, other '\n' rfl, other '\t' rfl, other '\r' rfl,
    other '\x7b' rfl, other '\x7d' rfl, other '[' rfl, other ']' rfl, other ':' rfl, other ',' rfl,
    other '"' rfl]

theorem finish_digits (digits run : List Char) (found : List Lexeme) (after : List Char)
    (all : ∀ c ∈ digits, c.isDigit = true) :
    finish ⟨.numeral run, found⟩ (digits ++ after) =
      finish ⟨.numeral (digits.reverse ++ run), found⟩ after := by
  induction digits generalizing run with
  | nil => rfl
  | cons c rest ih =>
    have digit : c.isDigit = true := all c List.mem_cons_self
    have taken : step ⟨.numeral run, found⟩ c = some ⟨.numeral (c :: run), found⟩ := by
      simp [step, inNumeral, digit]
    rw [List.cons_append, finish_cons, taken, Option.bind_some, ih _ fun d member =>
      all d (List.mem_cons_of_mem _ member), List.reverse_cons, List.append_assoc]
    rfl

theorem finish_integer (value : Int) (found : List Lexeme) {after : List Char}
    (delimited : Delimited after) :
    finish ⟨.between, found⟩ (numberText (.integer value) ++ after) =
      finish ⟨.between, .number (numeral (.integer value)) :: found⟩ after := by
  have written := read_integer value
  have numeralRead : Numeral.read (numberText (.integer value)) =
      some (numeral (.integer value)) := by
    simp [numeral, written]
  -- all characters but the first, which opens the numeral, are digits
  obtain ⟨c, digits, text, opens, all⟩ : ∃ c digits, numberText (.integer value) = c :: digits ∧
      opening found c = some ⟨.numeral [c], found⟩ ∧ ∀ d ∈ digits, d.isDigit = true := by
    have all := all_digits value.natAbs
    by_cases below : value < 0
    · exact ⟨'-', _, by simp [numberText, below], by simp [opening, isSpace], all⟩
    · cases digits : Nat.toDigits 10 value.natAbs with
      | nil => exact absurd digits Nat.toDigits_ne_nil
      | cons c rest =>
        rw [digits] at all
        exact ⟨c, rest, by simp [numberText, below, digits],
          opening_digit (all c List.mem_cons_self) found,
          fun d member => all d (List.mem_cons_of_mem _ member)⟩
  have settles : settle ⟨.numeral (digits.reverse ++ [c]), found⟩ =
      some (.number (numeral (.integer value)) :: found) := by
    simp [settle, ← text, numeralRead]
  rw [text, List.cons_append, finish_cons]
  show (opening found c).bind _ = _
  rw [opens, Option.bind_some, finish_digits digits [c] found after all]
  exact finish_run _ delimited settles (stops_numeral _ _)

theorem delimited_comma (rest : List Char) : Delimited (',' :: rest) :=
  fun _ head => Or.inl (Option.some.inj head).symm

theorem delimited_bracket (rest : List Char) : Delimited (']' :: rest) :=
  fun _ head => Or.inr (Or.inl (Option.some.inj head).symm)

theorem delimited_brace (rest : List Char) : Delimited ('\x7d' :: rest) :=
  fun _ head => Or.inr (Or.inr (Option.some.inj head).symm)

theorem finish_comma (found : List Lexeme) (after : List Char) :
    finish ⟨.between, found⟩ (',' :: after) = finish ⟨.between, .comma :: found⟩ after := by
  rw [finish_cons]
  rfl

theorem finish_colon (found : List Lexeme) (after : List Char) :
    finish ⟨.between, found⟩ (':' :: after) = finish ⟨.between, .colon :: found⟩ after := by
  rw [finish_cons]
  rfl

mutual
theorem finish_compact :
    (value : Json) → value.exact = true → (found : List Lexeme) → {after : List Char} →
    Delimited after → finish ⟨.between, found⟩ (value.compactChars ++ after) =
      finish ⟨.between, value.lexemes.reverse ++ found⟩ after
  | .null, _, found, _, delimited => by
    simpa [compactChars, lexemes] using finish_null found delimited
  | .bool b, _, found, _, delimited => by
    simpa [compactChars, lexemes] using finish_bool b found delimited
  | .number (.integer value), _, found, _, delimited => by
    simpa [compactChars, lexemes] using finish_integer value found delimited
  | .number (.double _), exact, _, _, _ => by simp [Json.exact] at exact
  | .string s, _, found, after, _ => by
    simpa [compactChars, lexemes] using finish_literal s found after
  | .array items, exact, found, after, _ => by
    have opens : step ⟨.between, found⟩ '[' = some ⟨.between, .openBracket :: found⟩ := rfl
    have closes : ∀ found, step ⟨.between, found⟩ ']' = some ⟨.between, .closeBracket :: found⟩ :=
      fun _ => rfl
    have body :=
      finish_items items (by simpa [Json.exact] using exact) (.openBracket :: found) after
    simp [compactChars, lexemes, opens, body, closes]
  | .object members, exact, found, after, _ => by
    have opens : step ⟨.between, found⟩ '\x7b' = some ⟨.between, .openBrace :: found⟩ := rfl
    have closes : ∀ found, step ⟨.between, found⟩ '\x7d' = some ⟨.between, .closeBrace :: found⟩ :=
      fun _ => rfl
    have body :=
      finish_members members (by simpa [Json.exact] using exact) (.openBrace :: found) after
    simp [compactChars, lexemes, opens, body, closes]

theorem finish_items : (items : List Json) → exactItems items = true → (found : List Lexeme) →
    (after : List Char) → finish ⟨.between, found⟩ (compactItems items ++ ']' :: after) =
      finish ⟨.between, (itemLexemes items).reverse ++ found⟩ (']' :: after)
  | [], _, found, after => by simp [compactItems, itemLexemes]
  | [item], exact, found, after => by
    have single :=
      finish_compact item (by simpa [exactItems] using exact) found (delimited_bracket after)
    simpa only [compactItems, itemLexemes] using single
  | item :: next :: rest, exact, found, after => by
    rw [exactItems, Bool.and_eq_true] at exact
    have first :=
      finish_compact item exact.1 found
        (delimited_comma (compactItems (next :: rest) ++ ']' :: after))
    have others :=
      finish_items (next :: rest) exact.2 (.comma :: (item.lexemes.reverse ++ found)) after
    simp only [compactItems, itemLexemes, List.append_assoc, List.cons_append, first]
    rw [finish_comma, others]
    simp

theorem finish_members : (members : List (String × Json)) → exactMembers members = true →
    (found : List Lexeme) → (after : List Char) →
    finish ⟨.between, found⟩ (compactMembers members ++ '\x7d' :: after) =
      finish ⟨.between, (memberLexemes members).reverse ++ found⟩ ('\x7d' :: after)
  | [], _, found, after => by simp [compactMembers, memberLexemes]
  | [(name, value)], exact, found, after => by
    have single := finish_compact value (by simpa [exactMembers] using exact)
      (.colon :: .string (Escape.encode name.toList) :: found) (delimited_brace after)
    simp only [compactMembers, memberLexemes, List.append_assoc, List.cons_append, finish_literal]
    rw [finish_colon, single]
    simp
  | (name, value) :: next :: rest, exact, found, after => by
    rw [exactMembers, Bool.and_eq_true] at exact
    have first :=
      finish_compact value exact.1 (.colon :: .string (Escape.encode name.toList) :: found)
        (delimited_comma (compactMembers (next :: rest) ++ '\x7d' :: after))
    have others := finish_members (next :: rest) exact.2
      (.comma :: (value.lexemes.reverse ++ .colon :: .string (Escape.encode name.toList) :: found))
        after
    simp only [compactMembers, memberLexemes, List.append_assoc, List.cons_append, finish_literal]
    rw [finish_colon, first, finish_comma, others]
    simp
end

theorem run_compact (value : Json) (exact : value.exact = true) :
    run value.compactChars = some value.lexemes := by
  have ended : Delimited [] := fun _ head => by cases head
  have whole := finish_compact value exact [] ended
  rw [List.append_nil] at whole
  show (finish start value.compactChars).map List.reverse = _
  rw [start, whole]
  simp [settle]

end Lexer

namespace Builder

theorem lexemes_open (value : Json) :
    ∃ first rest, value.lexemes = first :: rest ∧ first ≠ .closeBracket := by
  cases value <;> exact ⟨_, _, rfl, by simp⟩

/-- Where a value or the end of an array may stand, a value is taken as anywhere else. -/
theorem foldlM_valueOrEnd (value : Json) (stack : List Frame) (after : List Lexeme) :
    (value.lexemes ++ after).foldlM step ⟨.valueOrEnd, stack⟩ = (value.lexemes ++ after).foldlM step
      ⟨.value, stack⟩ := by
  obtain ⟨first, rest, same, different⟩ := lexemes_open value
  have taken : step ⟨.valueOrEnd, stack⟩ first = step ⟨.value, stack⟩ first := by
    cases first <;> first | rfl | exact absurd rfl different
  simp only [same, List.cons_append, List.foldlM_cons, taken]

mutual
theorem foldlM_lexemes : (value : Json) → (stack : List Frame) → (after : List Lexeme) →
    (value.lexemes ++ after).foldlM step ⟨.value, stack⟩ =
      after.foldlM step ⟨.after value.tree, stack⟩
  | .null, _, _ => rfl
  | .bool _, _, _ => rfl
  | .number _, _, _ => rfl
  | .string _, _, _ => rfl
  | .array items, stack, after => by
    have opens : step ⟨.value, stack⟩ .openBracket = some ⟨.valueOrEnd, .items [] :: stack⟩ := rfl
    have body := foldlM_items items [] stack after
    rw [lexemes, List.cons_append, List.append_assoc, List.foldlM_cons, opens]
    cases items with
    | nil => rfl
    | cons item rest =>
      obtain ⟨more, split⟩ : ∃ more, itemLexemes (item :: rest) = item.lexemes ++ more := by
        cases rest with
        | nil => exact ⟨[], by simp [itemLexemes]⟩
        | cons next others => exact ⟨_, by rw [itemLexemes]⟩
      have filled := body (List.cons_ne_nil item rest)
      simp only [split, List.append_assoc] at filled ⊢
      exact (foldlM_valueOrEnd item (.items [] :: stack) _).trans filled
  | .object members, stack, after => by
    have opens : step ⟨.value, stack⟩ .openBrace = some ⟨.keyOrEnd, stack⟩ := rfl
    have body := foldlM_members members [] stack after
    rw [lexemes, List.cons_append, List.append_assoc, List.foldlM_cons, opens]
    cases members with
    | nil => rfl
    | cons member rest =>
      obtain ⟨name, value⟩ := member
      have filled := body (List.cons_ne_nil _ rest)
      -- a first name is taken in the same way whether or not the object could have ended instead
      cases rest with
      | nil => exact filled
      | cons next others => exact filled

theorem foldlM_items : (items : List Json) → (done : List Syntax) → (stack : List Frame) →
    (after : List Lexeme) → items ≠ [] →
    (itemLexemes items ++ ([Lexeme.closeBracket] ++ after)).foldlM step
      ⟨.value, .items done :: stack⟩ =
      after.foldlM step ⟨.after (.array (done.reverse ++ itemTrees items)), stack⟩
  | [], _, _, _, filled => absurd rfl filled
  | [item], done, stack, after, _ => by
    have single := foldlM_lexemes item (.items done :: stack) ([Lexeme.closeBracket] ++ after)
    rw [itemLexemes, single]
    simp [step, close, itemTrees]
  | item :: next :: rest, done, stack, after, _ => by
    have first := foldlM_lexemes item (.items done :: stack)
      (.comma :: (itemLexemes (next :: rest) ++ ([Lexeme.closeBracket] ++ after)))
    have others :=
      foldlM_items (next :: rest) (item.tree :: done) stack after (List.cons_ne_nil _ _)
    rw [itemLexemes, List.append_assoc, List.cons_append, first]
    simpa [step, close, itemTrees] using others

theorem foldlM_members : (members : List (String × Json)) → (done : List (List Char × Syntax)) →
    (stack : List Frame) → (after : List Lexeme) → members ≠ [] →
    (memberLexemes members ++ ([Lexeme.closeBrace] ++ after)).foldlM step ⟨.key done, stack⟩ =
      after.foldlM step ⟨.after (.object (done.reverse ++ memberTrees members)), stack⟩
  | [], _, _, _, filled => absurd rfl filled
  | [(name, value)], done, stack, after, _ => by
    have single :=
      foldlM_lexemes value (.member done (Escape.encode name.toList) :: stack)
        ([Lexeme.closeBrace] ++ after)
    rw [memberLexemes]
    simp only [List.cons_append, List.foldlM_cons, step,
      Option.bind_eq_bind, Option.bind_some] at single ⊢
    rw [single]
    simp [close, memberTrees]
  | (name, value) :: next :: rest, done, stack, after, _ => by
    have first := foldlM_lexemes value (.member done (Escape.encode name.toList) :: stack)
      (.comma :: (memberLexemes (next :: rest) ++ ([Lexeme.closeBrace] ++ after)))
    have others :=
      foldlM_members (next :: rest) ((Escape.encode name.toList, value.tree) :: done) stack after
        (List.cons_ne_nil _ _)
    rw [memberLexemes]
    simp only [List.cons_append, List.append_assoc, List.foldlM_cons, step,
      Option.bind_eq_bind, Option.bind_some] at first ⊢
    rw [first]
    simpa [close, memberTrees] using others
end

theorem run_lexemes (value : Json) : run value.lexemes = some value.tree := by
  have whole := foldlM_lexemes value [] []
  rw [List.append_nil] at whole
  show (value.lexemes.foldlM step start).bind finish = _
  rw [start, whole]
  rfl

end Builder

/-- A compact text without doubles is read as the tree of its value. -/
theorem read_compact (value : Json) (exact : value.exact = true) :
    Syntax.read value.compact = some value.tree := by
  rw [Syntax.read, compact, String.toList_ofList, Lexer.run_compact value exact, Option.bind_some,
    Builder.run_lexemes]

theorem literal?_encode (text : String) : literal? (Escape.encode text.toList) = some text := by
  rw [literal?, Escape.decode_encode, Option.map_some, String.ofList_toList]

def textMembers (texts : List (String × String)) : List (String × Json) :=
  texts.map fun entry => (entry.1, .string entry.2)

theorem exact_texts (texts : List (String × String)) : exactMembers (textMembers texts) = true := by
  induction texts with
  | nil => rfl
  | cons entry rest ih => exact ih

theorem membersOfSyntax?_texts (texts : List (String × String)) :
    membersOfSyntax? (memberTrees (textMembers texts)) = some (textMembers texts) := by
  induction texts with
  | nil => rfl
  | cons entry rest ih =>
    have unfolded : memberTrees (textMembers (entry :: rest)) =
        (Escape.encode entry.1.toList, .string (Escape.encode entry.2.toList)) ::
          memberTrees (textMembers rest) := rfl
    rw [unfolded, membersOfSyntax?, literal?_encode, ofSyntax?, literal?_encode, ih]
    rfl

/-- The compact text of a map from names to texts is read as that map. -/
theorem read_texts (map : NameMap String) :
    read (compact (.object (textMembers map.entries))) =
      some (.object (textMembers map.entries)) := by
  have syntaxTree := read_compact (.object (textMembers map.entries)) (exact_texts map.entries)
  have rebuilt : (NameMap.ofList (textMembers map.entries)).entries = textMembers map.entries := by
    have moved := NameMap.entries_ofList_map Json.string map.entries
    rw [NameMap.ofList_entries] at moved
    exact moved
  rw [read, syntaxTree, Option.bind_some, tree, ofSyntax?, membersOfSyntax?_texts,
    Option.map_some, rebuilt]

end DocumentViews.Json
