import DocumentViews.Proofs.Json.Record
import DocumentViews.Proofs.Sql.Lexer
import DocumentViews.View.Reading

/-! The text of a read as a database reads it.
A read has words, quoted names, numbered placeholders, the equals sign and the two operators
that ask a document for a value. The reader knows no other symbol, for a hyphen or a slash could
open a comment, and refuses a placeholder that touches a word. A form is what the text says and
no more: which operators stand where, and which numbers. The text of every read is its form,
written with single blanks. -/
namespace DocumentViews.Reading

/-- How a document is asked for a value: by a key, or along a path of keys. -/
inductive Operator where
  | key
  | path
deriving DecidableEq

inductive Lexeme where
  | word (text : String)
  | name (content : String)
  | access (operator : Operator)
  | equals
  | placeholder (number : Nat)
deriving DecidableEq

def Operator.symbol : Operator → List Char
  | .key => ['-', '>', '>']
  | .path => ['#', '>', '>']

def isSymbol (c : Char) : Bool :=
  ['-', '#', '>', '<', '=', '+', '*', '/', '~', '!', '@', '%', '^', '&', '|', '?'].contains c

def symbol? (run : List Char) : Option Lexeme :=
  if run = Operator.key.symbol then some (.access .key)
  else if run = Operator.path.symbol then some (.access .path)
  else if run = ['='] then some .equals
  else none

/-- The lexeme of a token, if it may stand in a read. -/
def ofToken? : Sql.Token → Option Lexeme
  | .word text => some (.word text)
  | .name content => some (.name content)
  | _ => none

namespace Lexeme

def read : List Char → Option (Lexeme × List Char)
  | [] => none
  | c :: rest =>
    if c = '$' then
      if (rest.takeWhile Char.isDigit).isEmpty ||
        (rest.dropWhile Char.isDigit).head?.any Sql.continuesWord then none
      else some (.placeholder (Numeral.value (rest.takeWhile Char.isDigit)),
        rest.dropWhile Char.isDigit)
    else if isSymbol c then
      (symbol? (c :: rest.takeWhile isSymbol)).map fun lexeme => (lexeme, rest.dropWhile isSymbol)
    else
      (Sql.Token.read (c :: rest)).bind fun found => (ofToken? found.1).map fun lexeme =>
        (lexeme, found.2)

theorem length_read {text : List Char} {found : Lexeme × List Char} (h : read text = some found) :
    found.2.length < text.length := by
  cases text with
  | nil => cases h
  | cons c rest =>
    have dropped (p : Char → Bool) : (rest.dropWhile p).length < (c :: rest).length :=
      Nat.lt_succ_of_le (List.dropWhile_sublist p).length_le
    simp only [read] at h
    split at h
    · split at h
      · cases h
      · cases Option.some.inj h
        exact dropped _
    · split at h
      · obtain ⟨lexeme, _, rfl⟩ := Option.map_eq_some_iff.mp h
        exact dropped _
      · obtain ⟨token, taken, known⟩ := Option.bind_eq_some_iff.mp h
        obtain ⟨lexeme, _, rfl⟩ := Option.map_eq_some_iff.mp known
        exact Sql.Token.length_read taken

end Lexeme

/-- The lexemes of a text; none where a name stays open or a character belongs to no lexeme. -/
def lexemes : List Char → Option (List Lexeme)
  | [] => some []
  | c :: rest =>
    if Sql.isSpace c then lexemes rest
    else
      match _found : Lexeme.read (c :: rest) with
      | none => none
      | some (lexeme, after) => (lexemes after).map (lexeme :: ·)
termination_by text => text.length
decreasing_by
  · simp
  · exact Lexeme.length_read ‹_›

namespace Lexeme

def chars : Lexeme → List Char
  | .word text => text.toList
  | .name content => Text.Quoted.encode Sql.nameMark content.toList
  | .access operator => operator.symbol
  | .equals => ['=']
  | .placeholder number => '$' :: Nat.toDigits 10 number

def legible : Lexeme → Bool
  | .word text => (Sql.Token.word text).legible
  | _ => true

def Ends (after : List Char) : Prop := after = [] ∨ ∃ rest, after = ' ' :: rest

theorem Ends.released {after : List Char} (ends : Ends after) : Sql.Released after := by
  rintro c head
  rcases ends with rfl | ⟨rest, rfl⟩
  · cases head
  · cases head
    exact .inl rfl

/-- A run of characters of one kind ends where a blank is of another. -/
theorem Ends.run {after : List Char} (ends : Ends after) {p : Char → Bool} (blank : p ' ' = false)
    {run : List Char} (each : ∀ c ∈ run, p c = true) :
    (run ++ after).takeWhile p = run ∧ (run ++ after).dropWhile p = after := by
  rw [List.takeWhile_append_of_pos each, List.dropWhile_append_of_pos each]
  rcases ends with rfl | ⟨rest, rfl⟩
  · simp
  · simp [blank]

theorem read_placeholder (number : Nat) {after : List Char} (ends : Ends after) :
    read ('$' :: (Nat.toDigits 10 number ++ after)) = some (.placeholder number, after) := by
  obtain ⟨taken, left⟩ := ends.run rfl (Json.all_digits number)
  have free : after.head?.any Sql.continuesWord = false := by
    rcases ends with rfl | ⟨rest, rfl⟩
    · rfl
    · exact (Sql.not_continuesWord (.inl rfl)).1
  simp [read, taken, left, free, Json.value_toDigits, Nat.toDigits_ne_nil]

theorem read_symbol {c : Char} (run : List Char) {lexeme : Lexeme} (first : isSymbol c = true)
    (dollar : c ≠ '$') (each : run.all isSymbol = true) (known : symbol? (c :: run) = some lexeme)
    {after : List Char} (ends : Ends after) :
    read (c :: (run ++ after)) = some (lexeme, after) := by
  obtain ⟨taken, left⟩ := ends.run (by decide) (List.all_eq_true.mp each)
  simp [read, first, dollar, taken, left, known]

theorem not_isSymbol_of_startsWord {c : Char} (starts : Sql.startsWord c = true) :
    isSymbol c = false ∧ c ≠ '$' := by
  constructor
  · by_contra symbol
    simp only [isSymbol, Bool.not_eq_false, List.contains_eq_mem, decide_eq_true_eq, List.mem_cons,
      List.not_mem_nil, or_false] at symbol
    rcases symbol with rfl | rfl | rfl | rfl | rfl | rfl | rfl | rfl | rfl | rfl | rfl | rfl | rfl |
      rfl | rfl | rfl <;> revert starts <;> decide
  · rintro rfl
    revert starts
    decide

theorem read_token {c : Char} {rest after : List Char} {token : Sql.Token} {lexeme : Lexeme}
    (symbol : isSymbol c = false) (dollar : c ≠ '$')
    (taken : Sql.Token.read (c :: rest) = some (token, after))
    (known : ofToken? token = some lexeme) : read (c :: rest) = some (lexeme, after) := by
  simp [read, symbol, dollar, taken, known]

theorem read_space {c : Char} (space : Sql.isSpace c = true) (rest : List Char) :
    read (c :: rest) = none := by
  simp only [Sql.isSpace, List.contains_eq_mem, decide_eq_true_eq, List.mem_cons,
    List.not_mem_nil, or_false] at space
  rcases space with rfl | rfl | rfl | rfl | rfl | rfl <;> rfl

/-- A lexeme before a blank is read as it was written. -/
theorem read_chars {lexeme : Lexeme} (legible : lexeme.legible = true) {after : List Char}
    (ends : Ends after) :
    read (lexeme.chars ++ after) = some (lexeme, after) := by
  cases lexeme with
  | placeholder number => exact read_placeholder number ends
  | equals => exact read_symbol [] rfl (by decide) rfl rfl ends
  | access operator =>
    cases operator with
    | key => exact read_symbol ['>', '>'] rfl (by decide) rfl rfl ends
    | path => exact read_symbol ['>', '>'] rfl (by decide) rfl rfl ends
  | name content =>
    have taken := @Sql.Token.read_chars (.name content) rfl after (.inr ends.released)
    exact read_token (by decide) (by decide) taken rfl
  | word text =>
    have taken := Sql.Token.read_word legible ends.released
    have starts : text.toList.head?.any Sql.startsWord = true := by
      simp only [Lexeme.legible, Sql.Token.legible, Bool.and_eq_true] at legible
      exact legible.1
    show read (text.toList ++ after) = _
    cases written : text.toList with
    | nil => simp [written] at starts
    | cons c rest =>
      rw [written] at taken starts
      obtain ⟨symbol, dollar⟩ := not_isSymbol_of_startsWord (c := c) (by simpa using starts)
      exact read_token symbol dollar taken rfl

end Lexeme

def spaced (row : List Lexeme) : List Char := row.flatMap fun lexeme => ' ' :: lexeme.chars

def spelled : List Lexeme → List Char
  | [] => []
  | first :: rest => first.chars ++ spaced rest

theorem spaced_append (left right : List Lexeme) :
    spaced (left ++ right) = spaced left ++ spaced right :=
  List.flatMap_append

theorem ends_spaced (row : List Lexeme) : Lexeme.Ends (spaced row) := by
  cases row with
  | nil => exact .inl rfl
  | cons lexeme rest => exact .inr ⟨lexeme.chars ++ spaced rest, rfl⟩

theorem lexemes_blank (rest : List Char) : lexemes (' ' :: rest) = lexemes rest := by
  rw [lexemes]
  exact if_pos rfl

theorem lexemes_of_read {text after : List Char} {lexeme : Lexeme}
    (read : Lexeme.read text = some (lexeme, after)) :
    lexemes text = (lexemes after).map (lexeme :: ·) := by
  cases text with
  | nil => cases read
  | cons c rest =>
    have solid : ¬ Sql.isSpace c = true := fun space => by
      cases (Lexeme.read_space space rest).symm.trans read
    rw [lexemes, if_neg solid]
    split
    · rename_i failed
      cases failed.symm.trans read
    · rename_i found
      cases found.symm.trans read
      rfl

theorem lexemes_spaced {row : List Lexeme} (legible : row.all Lexeme.legible = true) :
    lexemes (spaced row) = some row := by
  induction row with
  | nil => rw [spaced, List.flatMap_nil, lexemes]
  | cons lexeme rest ih =>
    rw [List.all_cons, Bool.and_eq_true] at legible
    have read := Lexeme.read_chars legible.1 (ends_spaced rest)
    show lexemes (' ' :: (lexeme.chars ++ spaced rest)) = _
    rw [lexemes_blank, lexemes_of_read read, ih legible.2]
    rfl

theorem lexemes_spelled {row : List Lexeme} (legible : row.all Lexeme.legible = true) :
    lexemes (spelled row) = some row := by
  rw [← lexemes_spaced legible]
  cases row with
  | nil => rfl
  | cons first rest => exact (lexemes_blank _).symm

/-- A value of the documents, by the operator and by the number of its key. -/
structure Access where
  operator : Operator
  number : Nat
deriving DecidableEq

/-- What the text of a read says: the view, the tests with the numbers of their values, the order,
and the numbers of the limit and the offset. -/
structure Form where
  view : String
  tests : List (Access × Nat)
  order : Option (Access × SortOrder)
  limit : Nat
  offset : Nat
deriving DecidableEq

namespace Form

def readTests (keyword : String) : List Lexeme → List (Access × Nat) × List Lexeme
  | .word word :: .name column :: .access operator :: .placeholder number :: .equals ::
    .placeholder value :: rest =>
    if word = keyword ∧ column = Sql.dataColumn then
      let later := readTests "AND" rest
      ((⟨operator, number⟩, value) :: later.1, later.2)
    else
      ([], .word word :: .name column :: .access operator :: .placeholder number :: .equals ::
        .placeholder value :: rest)
  | other => ([], other)

def readOrder : List Lexeme → Option (Option (Access × SortOrder) × List Lexeme)
  | .word first :: .word second :: .name column :: .access operator :: .placeholder number ::
    .word direction :: rest =>
    if first = "ORDER" ∧ second = "BY" ∧ column = Sql.dataColumn then
      if direction = "ASC" then some (some (⟨operator, number⟩, .ascending), rest)
      else if direction = "DESC" then some (some (⟨operator, number⟩, .descending), rest)
      else none
    else none
  | other => some (none, other)

def readPaging : List Lexeme → Option (Nat × Nat)
  | [.word first, .placeholder limit, .word second, .placeholder offset] =>
    if first = "LIMIT" ∧ second = "OFFSET" then some (limit, offset) else none
  | _ => none

def ofLexemes : List Lexeme → Option Form
  | .word first :: .name column :: .word second :: .name view :: rest =>
    if first = "SELECT" ∧ column = Sql.dataColumn ∧ second = "FROM" then
      let tests := readTests "WHERE" rest
      (readOrder tests.2).bind fun order =>
        (readPaging order.2).map fun paging => ⟨view, tests.1, order.1, paging.1, paging.2⟩
    else none
  | _ => none

def read (sql : String) : Option Form := (lexemes sql.toList).bind ofLexemes

def accessLexemes (access : Access) : List Lexeme :=
  [.name Sql.dataColumn, .access access.operator, .placeholder access.number]

def testLexemes (keyword : String) : List (Access × Nat) → List Lexeme
  | [] => []
  | (access, value) :: rest =>
    .word keyword :: (accessLexemes access ++ .equals :: .placeholder value ::
      testLexemes "AND" rest)

def orderLexemes : Option (Access × SortOrder) → List Lexeme
  | none => []
  | some (access, order) =>
    .word "ORDER" :: .word "BY" :: (accessLexemes access ++ [.word order.keyword])

def pagingLexemes (limit offset : Nat) : List Lexeme :=
  [.word "LIMIT", .placeholder limit, .word "OFFSET", .placeholder offset]

def toLexemes (form : Form) : List Lexeme :=
  [.word "SELECT", .name Sql.dataColumn, .word "FROM", .name form.view] ++
    testLexemes "WHERE" form.tests ++ orderLexemes form.order ++
    pagingLexemes form.limit form.offset

theorem readTests_lexemes (keyword : String) (tests : List (Access × Nat))
    (order : Option (Access × SortOrder)) (limit offset : Nat) :
    readTests keyword (testLexemes keyword tests ++
      (orderLexemes order ++ pagingLexemes limit offset)) =
      (tests, orderLexemes order ++ pagingLexemes limit offset) := by
  induction tests generalizing keyword with
  | nil =>
    cases order with
    | none => rfl
    | some order => rfl
  | cons test rest ih =>
    simp [testLexemes, accessLexemes, readTests, ih]

theorem readOrder_lexemes (order : Option (Access × SortOrder)) (limit offset : Nat) :
    readOrder (orderLexemes order ++ pagingLexemes limit offset) = some (order,
      pagingLexemes limit offset) := by
  cases order with
  | none => rfl
  | some order =>
    obtain ⟨access, direction⟩ := order
    cases direction with
    | ascending => rfl
    | descending => rfl

theorem ofLexemes_toLexemes (form : Form) : ofLexemes form.toLexemes = some form := by
  have tests := readTests_lexemes "WHERE" form.tests form.order form.limit form.offset
  have order := readOrder_lexemes form.order form.limit form.offset
  have paging : readPaging (pagingLexemes form.limit form.offset) =
      some (form.limit, form.offset) := rfl
  simp [toLexemes, ofLexemes, tests, order, paging]

theorem legible_testLexemes {keyword : String} (word : (Lexeme.word keyword).legible = true)
    (tests : List (Access × Nat)) : (testLexemes keyword tests).all Lexeme.legible = true := by
  induction tests generalizing keyword with
  | nil => rfl
  | cons test rest ih =>
    have later := @ih "AND" (by decide)
    simp only [testLexemes, accessLexemes, List.cons_append, List.nil_append,
      List.all_cons, word, later]
    rfl

theorem legible_toLexemes (form : Form) : form.toLexemes.all Lexeme.legible = true := by
  have order : (orderLexemes form.order).all Lexeme.legible = true := by
    cases form.order with
    | none => rfl
    | some order =>
      obtain ⟨access, direction⟩ := order
      cases direction with
      | ascending => rfl
      | descending => rfl
  have tests := @legible_testLexemes "WHERE" (by decide) form.tests
  simp only [toLexemes, List.all_append, tests, order]
  rfl

/-- A text that is a form with single blanks is read as that form. -/
theorem read_spelled {sql : String} {form : Form} (text : sql.toList = spelled form.toLexemes) :
    lexemes sql.toList = some form.toLexemes ∧ read sql = some form := by
  have found : lexemes sql.toList = some form.toLexemes := by
    rw [text, lexemes_spelled (legible_toLexemes form)]
  refine ⟨found, ?_⟩
  rw [read, found, Option.bind_some, ofLexemes_toLexemes]

end Form

def operatorOf (key : String) : Operator := if key.toList.contains '.' then .path else .key

/-- The tests of keys, numbered from a first number on, each with its value right after it. -/
def testsFrom (next : Nat) : List String → List (Access × Nat)
  | [] => []
  | key :: rest => (⟨operatorOf key, next⟩, next + 1) :: testsFrom (next + 2) rest

def formOf (view : String) (filters : Filters) (page : Page) : Form :=
  let next := 1 + 2 * filters.keys.length
  let last := match page.sort with
    | none => next
    | some _ => next + 1
  ⟨view, testsFrom 1 filters.keys, page.sort.map fun key =>
    (⟨operatorOf key, next⟩, page.order), last, last + 1⟩

theorem number_accessor (next : Nat) (key : String) (rest : List Piece) :
    ' ' :: (Piece.number next (accessor key ++ rest)).toList =
      spaced (Form.accessLexemes ⟨operatorOf key, next⟩) ++
        (Piece.number (next + 1) rest).toList := by
  unfold accessor operatorOf
  split
  · simp [Piece.number, Form.accessLexemes, spaced, Lexeme.chars, Operator.symbol, Sql.quoteName]
  · simp [Piece.number, Form.accessLexemes, spaced, Lexeme.chars, Operator.symbol, Sql.quoteName]

theorem number_conditions (next : Nat) (keyword : String) (entries : List (String × String))
    (rest : List Piece) :
    (Piece.number next (conditions (" " ++ keyword ++ " ") entries ++ rest)).toList =
      spaced (Form.testLexemes keyword (testsFrom next (entries.map (·.1)))) ++
        (Piece.number (next + 2 * entries.length) rest).toList := by
  -- the word before a test depends on its place, the numbers on how many parameters came before
  induction entries generalizing next keyword with
  | nil => rfl
  | cons entry others ih =>
    obtain ⟨key, value⟩ := entry
    let following : List Piece :=
      .text " = " :: .hole (.text value) :: (conditions " AND " others ++ rest)
    have opening :
        (Piece.number next (conditions (" " ++ keyword ++ " ") ((key, value) :: others) ++
        rest)).toList = spaced [.word keyword] ++ ' ' ::
        (Piece.number next (accessor key ++ following)).toList := by
      simp [conditions, predicate, Piece.number, spaced, Lexeme.chars, following]
    have closing : (Piece.number (next + 1) following).toList = spaced [.equals,
        .placeholder (next + 1)] ++
        (Piece.number (next + 2) (conditions " AND " others ++ rest)).toList := by
      simp [Piece.number, spaced, Lexeme.chars, following]
    have later := ih (next + 2) "AND"
    have count : next + 2 * (others.length + 1) = next + 2 + 2 * others.length := by omega
    rw [opening, number_accessor, closing]
    rw [show " AND " = " " ++ "AND" ++ " " from rfl, later]
    simp only [List.map_cons, List.length_cons, testsFrom, Form.testLexemes, count]
    simp only [spaced, List.flatMap_cons, List.flatMap_append, List.flatMap_nil,
      List.append_assoc, List.append_nil]

theorem number_paging (next : Nat) (page : Page) :
    (Piece.number next [.text " LIMIT ", .hole (.number page.limit.toNat), .text " OFFSET ",
      .hole (.number page.offset.toNat)]).toList = spaced (Form.pagingLexemes next (next + 1)) := by
  simp [Piece.number, Form.pagingLexemes, spaced, Lexeme.chars]

theorem number_ordering (next : Nat) (key : String) (order : SortOrder) (rest : List Piece) :
    (Piece.number next (.text " ORDER BY " ::
      (accessor key ++ .text (" " ++ order.keyword) :: rest))).toList =
      spaced (Form.orderLexemes (some (⟨operatorOf key, next⟩, order))) ++
        (Piece.number (next + 1) rest).toList := by
  have opening (following : List Piece) :
      (Piece.number next (.text " ORDER BY " :: following)).toList =
      spaced [.word "ORDER", .word "BY"] ++ ' ' :: (Piece.number next following).toList := by
    simp [Piece.number, spaced, Lexeme.chars]
  have closing : (Piece.number (next + 1) (.text (" " ++ order.keyword) :: rest)).toList =
      spaced [.word order.keyword] ++ (Piece.number (next + 1) rest).toList := by
    simp [Piece.number, spaced, Lexeme.chars]
  rw [opening, number_accessor, closing]
  simp only [Form.orderLexemes, spaced, List.flatMap_cons, List.flatMap_append, List.flatMap_nil,
    List.append_assoc, List.append_nil]

/-- The text of a read is its form and nothing else. -/
theorem select_spelled (view : String) (filters : Filters) (page : Page) :
    (select view filters page).sql.toList = spelled (formOf view filters page).toLexemes := by
  let paging : List Piece := [.text " LIMIT ", .hole (.number page.limit.toNat), .text " OFFSET ",
    .hole (.number page.offset.toNat)]
  have opening : (select view filters page).sql.toList =
      "SELECT".toList ++ (spaced [.name Sql.dataColumn, .word "FROM", .name view] ++
        (Piece.number 1 (conditions (" " ++ "WHERE" ++ " ") filters.entries ++
          (ordering page ++ paging))).toList) := by
    simp [select, Piece.bind, pieces, Piece.number, spaced, Lexeme.chars, Sql.quoteName, paging]
  have ordered : (Piece.number (1 + 2 * filters.entries.length) (ordering page ++ paging)).toList =
      spaced (Form.orderLexemes (formOf view filters page).order ++
        Form.pagingLexemes (formOf view filters page).limit (formOf view filters page).offset) := by
    cases sorted : page.sort with
    | none =>
      simp only [formOf, ordering, sorted, Option.map_none, Form.orderLexemes,
        List.nil_append, NameMap.length_keys]
      exact number_paging _ page
    | some key =>
      have parts : ordering page ++ paging =
          .text " ORDER BY " :: (accessor key ++ .text (" " ++ page.order.keyword) :: paging) := by
        simp [ordering, sorted]
      rw [parts, number_ordering, number_paging]
      simp only [formOf, sorted, Option.map_some, NameMap.length_keys, spaced_append]
  rw [opening, number_conditions, ordered, ← spaced_append, ← spaced_append]
  simp only [Form.toLexemes, List.cons_append, List.nil_append, List.append_assoc]
  rfl

end DocumentViews.Reading
