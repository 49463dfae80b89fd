import DocumentViews.Proofs.Text.Quoted
import DocumentViews.Sql.Token
import Mathlib.Data.List.Chain
import Mathlib.Data.List.TakeWhile

/-! SQL text as a database reads it.
The reader knows quoted names, literals, words, punctuation and white space. It refuses what could
start anything else: numbers, a hyphen or a slash, which could open a comment, and a word that
touches a quote, since some words change the meaning of the quotes after them. Tokens of which no
two solid ones touch are read back from their text exactly as they are. -/
namespace DocumentViews.Sql

def startsWord (c : Char) : Bool := startsPlain c || 0x80 ≤ c.toNat

def continuesWord (c : Char) : Bool := continuesPlain c || c = '$' || 0x80 ≤ c.toNat

def isPunctuation (c : Char) : Bool :=
  ['(', ')', '[', ']', ',', ';', '.', ':', '+', '*', '%', '^', '<', '>', '='].contains c

def isSpace (c : Char) : Bool := [' ', '\t', '\n', '\r', '\x0c', '\x0b'].contains c

def opensQuote (text : List Char) : Bool :=
  text.head? = some nameMark || text.head? = some literalMark

/-- Reads one token, or one blank, from the front of a text. -/
def Token.read : List Char → Option (Token × List Char)
  | [] => none
  | c :: rest =>
    if isSpace c then some (.blank, rest)
    else if isPunctuation c then some (.mark c, rest)
    else if c = nameMark then
      (Text.Quoted.scanInside nameMark rest).map fun found =>
        (.name (String.ofList found.1), found.2)
    else if c = literalMark then
      (Text.Quoted.scanInside literalMark rest).map fun found =>
        (.literal (String.ofList found.1), found.2)
    else if startsWord c && !opensQuote (rest.dropWhile continuesWord) then
      some (.word (String.ofList (c :: rest.takeWhile continuesWord)), rest.dropWhile continuesWord)
    else none

theorem Token.length_read {text : List Char} {found : Token × List Char}
    (h : Token.read text = some found) :
    found.2.length < text.length := by
  cases text with
  | nil => cases h
  | cons c rest =>
    simp only [Token.read] at h
    split at h
    · cases Option.some.inj h
      simp
    split at h
    · cases Option.some.inj h
      simp
    split at h
    · obtain ⟨inner, read, rfl⟩ := Option.map_eq_some_iff.mp h
      exact Nat.lt_succ_of_lt (Text.Quoted.length_scanInside read)
    split at h
    · obtain ⟨inner, read, rfl⟩ := Option.map_eq_some_iff.mp h
      exact Nat.lt_succ_of_lt (Text.Quoted.length_scanInside read)
    split at h
    · cases Option.some.inj h
      exact Nat.lt_succ_of_le (List.dropWhile_sublist _).length_le
    · cases h

/-- The tokens of a text with the blanks between them; none when a quote stays open or a character
belongs to no token. -/
def Token.readAll (text : List Char) : Option (List Token) :=
  if text = [] then some []
  else
    match _found : Token.read text with
    | none => none
    | some (token, rest) => (Token.readAll rest).map (token :: ·)
termination_by text.length
decreasing_by exact Token.length_read ‹_›

def significant (tokens : List Token) : List Token := tokens.filter (· ≠ .blank)

def lex (sql : String) : Option (List Token) := (Token.readAll sql.toList).map significant

/-- Whether a token ends where it is written, whatever stands next to it. -/
def Token.loose : Token → Bool
  | .word _ => false
  | .name _ => false
  | .literal _ => false
  | .mark _ => true
  | .blank => true

def Token.legible : Token → Bool
  | .word text => text.toList.head?.any startsWord && text.toList.all continuesWord
  | .mark c => isPunctuation c
  | _ => true

def Token.Apart (left right : Token) : Prop := left.loose = true ∨ right.loose = true

structure Legible (tokens : List Token) : Prop where
  each : ∀ token ∈ tokens, token.legible = true
  apart : tokens.IsChain Token.Apart

/-- A text that cannot continue the token before it. -/
def Released (text : List Char) : Prop :=
  ∀ c ∈ text.head?, isSpace c = true ∨ isPunctuation c = true

theorem not_continuesWord {c : Char} (h : isSpace c = true ∨ isPunctuation c = true) :
    continuesWord c = false ∧ c ≠ nameMark ∧ c ≠ literalMark := by
  simp only [isSpace, isPunctuation, List.contains_eq_mem, decide_eq_true_eq, List.mem_cons,
    List.not_mem_nil, or_false] at h
  rcases h with (rfl | rfl | rfl | rfl | rfl | rfl) |
    (rfl | rfl | rfl | rfl | rfl | rfl | rfl | rfl | rfl | rfl | rfl | rfl | rfl | rfl | rfl) <;>
      decide

theorem not_isSpace_of_punctuation {c : Char} (h : isPunctuation c = true) : isSpace c = false := by
  simp only [isPunctuation, List.contains_eq_mem, decide_eq_true_eq, List.mem_cons,
    List.not_mem_nil, or_false] at h
  rcases h with rfl | rfl | rfl | rfl | rfl | rfl | rfl | rfl | rfl | rfl | rfl | rfl | rfl | rfl |
    rfl <;> decide

theorem Released.head_ne {text : List Char} (released : Released text) :
    text.head? ≠ some nameMark ∧ text.head? ≠ some literalMark :=
  ⟨fun head => (not_continuesWord (released _ head)).2.1 rfl,
    fun head => (not_continuesWord (released _ head)).2.2 rfl⟩

theorem Released.word_ends {text : List Char} (released : Released text) :
    text.takeWhile continuesWord = [] ∧ text.dropWhile continuesWord = text := by
  cases text with
  | nil => exact ⟨rfl, rfl⟩
  | cons c rest =>
    have stops := (not_continuesWord (released c rfl)).1
    simp [stops]

theorem continuesWord_of_starts {c : Char} (h : startsWord c = true) : continuesWord c = true := by
  simp only [startsWord, startsPlain, Bool.or_eq_true, decide_eq_true_eq] at h
  rcases h with (letter | rfl) | large
  · simp [continuesWord, continuesPlain, Char.isAlphanum, letter]
  · decide
  · simp [continuesWord, large]

theorem Token.read_word {text : String} (legible : (Token.word text).legible = true)
    {after : List Char} (released : Released after) :
    Token.read (text.toList ++ after) = some (.word text, after) := by
  cases written : text.toList with
  | nil => simp [Token.legible, written] at legible
  | cons c rest =>
    simp only [Token.legible, written, List.head?_cons, Option.any_some,
      List.all_cons, Bool.and_eq_true] at legible
    obtain ⟨starts, _, continues⟩ := legible
    have word := continuesWord_of_starts starts
    have notSpace : isSpace c = false := by
      by_contra space
      rw [(not_continuesWord (.inl (by simpa using space))).1] at word
      cases word
    have notMark : isPunctuation c = false := by
      by_contra punctuation
      rw [(not_continuesWord (.inr (by simpa using punctuation))).1] at word
      cases word
    have notName : c ≠ nameMark := fun same => by rw [same] at starts; revert starts; decide
    have notLiteral : c ≠ literalMark := fun same => by rw [same] at starts; revert starts; decide
    have all : ∀ d ∈ rest, continuesWord d = true := List.all_eq_true.mp continues
    have taken : (rest ++ after).takeWhile continuesWord = rest := by
      rw [List.takeWhile_append_of_pos all, released.word_ends.1, List.append_nil]
    have left : (rest ++ after).dropWhile continuesWord = after := by
      rw [List.dropWhile_append_of_pos all, released.word_ends.2]
    have free : opensQuote after = false := by simp [opensQuote, released.head_ne]
    have rebuilt : String.ofList (c :: rest) = text := by rw [← written, String.ofList_toList]
    simp only [List.cons_append, Token.read, notSpace, notMark, if_neg notName, if_neg notLiteral,
      starts, taken, left, free, rebuilt, Bool.false_eq_true, if_false, Bool.not_false,
      Bool.and_self, if_true]

theorem Token.read_chars {token : Token} (legible : token.legible = true) {after : List Char}
    (free : token.loose = true ∨ Released after) :
    Token.read (token.chars ++ after) = some (token, after) := by
  cases token with
  | blank => rfl
  | mark c =>
    have punctuation : isPunctuation c = true := legible
    simp [Token.read, Token.chars, punctuation, not_isSpace_of_punctuation punctuation]
  | word text => exact Token.read_word legible (free.resolve_left (by simp [Token.loose]))
  | name content =>
    have released : Released after := free.resolve_left (by simp [Token.loose])
    have inside := Text.Quoted.scanInside_encoded nameMark content.toList released.head_ne.1
    have space : isSpace nameMark = false := by decide
    have punctuation : isPunctuation nameMark = false := by decide
    simp [Token.read, Token.chars, Text.Quoted.encode, space, punctuation, inside]
  | literal content =>
    have released : Released after := free.resolve_left (by simp [Token.loose])
    have inside := Text.Quoted.scanInside_encoded literalMark content.toList released.head_ne.2
    have space : isSpace literalMark = false := by decide
    have punctuation : isPunctuation literalMark = false := by decide
    have other : literalMark ≠ nameMark := by decide
    simp [Token.read, Token.chars, Text.Quoted.encode, space, punctuation, other, inside]

theorem Token.chars_ne_nil {token : Token} (legible : token.legible = true) : token.chars ≠ [] := by
  cases token with
  | word text =>
    intro empty
    have none : text.toList = [] := empty
    simp [Token.legible, none] at legible
  | name content => simp [Token.chars, Text.Quoted.encode]
  | literal content => simp [Token.chars, Text.Quoted.encode]
  | mark c => simp [Token.chars]
  | blank => simp [Token.chars]

theorem released_of_loose {token : Token} (legible : token.legible = true)
    (loose : token.loose = true) (after : List Char) : Released (token.chars ++ after) := by
  cases token with
  | blank => exact fun c head => .inl (by rw [← Option.some.inj head]; decide)
  | mark d => exact fun c head => .inr (by rw [← Option.some.inj head]; exact legible)
  | word _ => cases loose
  | name _ => cases loose
  | literal _ => cases loose

theorem Token.readAll_chars {tokens : List Token} (legible : Legible tokens) :
    Token.readAll (tokens.flatMap Token.chars) = some tokens := by
  obtain ⟨each, apart⟩ := legible
  induction tokens with
  | nil => rw [List.flatMap_nil, Token.readAll, if_pos rfl]
  | cons token rest ih =>
    have here : token.legible = true := each token List.mem_cons_self
    have below : ∀ other ∈ rest, other.legible = true :=
      fun other member => each other (List.mem_cons_of_mem _ member)
    obtain ⟨next, chain⟩ := List.isChain_cons.mp apart
    -- a solid token is followed by a loose one or by nothing
    have free : token.loose = true ∨ Released (rest.flatMap Token.chars) := by
      cases rest with
      | nil => exact .inr fun c head => by cases head
      | cons other others =>
        have legible := below other List.mem_cons_self
        exact (next other rfl).imp_right fun loose =>
          released_of_loose legible loose (others.flatMap Token.chars)
    have filled : ¬ (token :: rest).flatMap Token.chars = [] := by
      simp [Token.chars_ne_nil here]
    rw [Token.readAll, if_neg filled, List.flatMap_cons]
    split
    · rename_i failed
      rw [Token.read_chars here free] at failed
      cases failed
    · rename_i found after read
      rw [Token.read_chars here free] at read
      cases read
      rw [ih below chain]
      rfl

/-- Legible tokens are what the reader finds in their text. -/
theorem lex_text {tokens : List Token} (legible : Legible tokens) :
    lex (text tokens) = some (significant tokens) := by
  rw [lex, text, String.toList_ofList, Token.readAll_chars legible]
  rfl

end DocumentViews.Sql
