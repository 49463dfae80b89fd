import DocumentViews.Command.Basic
import DocumentViews.Proofs.View.ReadText
import Mathlib.Data.List.Forall2

/-! What a read binds, and what its text shows.
The placeholders of a read are numbered in the order in which they stand, and each is bound to
what stands for it in the request, so the request can be read back from the text and the
parameters. The text alone shows only how many fields are tested, which of them are paths, and the
direction of an order. -/
namespace DocumentViews

namespace Text

theorem parts_ne_nil (mark : Char) (text : List Char) : parts mark text ≠ [] := by
  fun_cases parts mark text <;> simp_all

/-- The parts hold no mark, there is one more of them than there are marks, and the marks
join them to the text. -/
theorem parts_joined (mark : Char) (text : List Char) :
    [mark].intercalate (parts mark text) = text ∧
    (parts mark text).length = text.count mark + 1 ∧ ∀ part ∈ parts mark text, mark ∉ part := by
  induction text with
  | nil => simp [parts]
  | cons c rest ih =>
    obtain ⟨first, others, split⟩ := List.exists_cons_of_ne_nil (parts_ne_nil mark rest)
    rw [split] at ih
    obtain ⟨joined, length, free⟩ := ih
    rw [parts, split]
    by_cases same : c = mark
    · rw [if_pos same]
      refine ⟨?_, ?_, ?_⟩
      · rw [List.intercalate_cons_cons, joined, same]
        rfl
      · simpa [same] using length
      · simpa using free
    · rw [if_neg same]
      refine ⟨?_, ?_, ?_⟩
      · rw [← joined]
        cases others with
        | nil => simp
        | cons next others => simp [List.intercalate_cons_cons]
      · simpa [same] using length
      · simpa [Ne.symm same] using free

end Text

namespace Reading

/-- The parameter of a number; the first one is number one. -/
def bound (params : List Param) : Nat → Option Param
  | 0 => none
  | number + 1 => params[number]?

def textAt? (params : List Param) (number : Nat) : Option String :=
  match bound params number with
  | some (.text value) => some value
  | _ => none

def numberAt? (params : List Param) (number : Nat) : Option Nat :=
  match bound params number with
  | some (.number value) => some value
  | _ => none

def Access.field? (params : List Param) (access : Access) : Option String :=
  match access.operator, bound params access.number with
  | .key, some (.text key) => some key
  | .path, some (.texts segments) => some (".".intercalate segments)
  | _, _ => none

/-- An access is to a field by the field itself, which then has no points, or by a path of two
segments or more, which points join to the field. -/
def Access.Names (params : List Param) (access : Access) (field : String) : Prop :=
  match access.operator with
  | .key => bound params access.number = some (.text field) ∧ '.' ∉ field.toList
  | .path => ∃ segments, bound params access.number = some (.texts segments) ∧ 2 ≤ segments.length ∧
      (∀ segment ∈ segments, '.' ∉ segment.toList) ∧ ".".intercalate segments = field

/-- A request as it can be told from a query: the filters in force, the order if there is
one, and the page. -/
structure Request where
  view : String
  filters : List (String × String)
  sort : Option (String × SortOrder)
  limit : Nat
  offset : Nat
deriving DecidableEq

def filterAt? (params : List Param) (test : Access × Nat) : Option (String × String) := do
  let field ← test.1.field? params
  let value ← textAt? params test.2
  return (field, value)

def sortAt? (params : List Param) :
    Option (Access × SortOrder) → Option (Option (String × SortOrder))
  | none => some none
  | some (access, order) => (access.field? params).map fun field => some (field, order)

def Form.request? (form : Form) (params : List Param) : Option Request := do
  let filters ← form.tests.mapM (filterAt? params)
  let sort ← sortAt? params form.order
  let limit ← numberAt? params form.limit
  let offset ← numberAt? params form.offset
  return ⟨form.view, filters, sort, limit, offset⟩

end Reading

def BoundQuery.request? (query : BoundQuery) : Option Reading.Request :=
  (Reading.Form.read query.sql).bind fun form => form.request? query.params

namespace Reading

/-- Every place of a form is bound to what stands for it in the request. -/
structure Form.Binds (form : Form) (params : List Param) (filters : List (String × String))
    (page : Page) : Prop where
  tests : List.Forall₂
    (fun test filter =>
      test.1.Names params filter.1 ∧ bound params test.2 = some (.text filter.2))
    form.tests filters
  order : Option.Rel (fun order field => order.1.Names params field ∧ order.2 = page.order)
    form.order page.sort
  limit : bound params form.limit = some (.number page.limit.toNat)
  offset : bound params form.offset = some (.number page.offset.toNat)

theorem Access.Names.field? {params : List Param} {access : Access} {field : String}
    (names : access.Names params field) : access.field? params = some field := by
  unfold Access.Names at names
  unfold Access.field?
  split at names
  · rename_i key
    rw [key, names.1]
  · rename_i path
    obtain ⟨segments, given, _, _, joined⟩ := names
    rw [path, given, ← joined]

theorem mapM_of_forall₂ {α β : Type} {f : α → Option β} {items : List α} {results : List β}
    (each : List.Forall₂ (fun item result => f item = some result) items results) :
    items.mapM f = some results := by
  induction each with
  | nil => rfl
  | cons here _ ih => simp [here, ih]

theorem Form.Binds.request? {form : Form} {params : List Param} {filters : List (String × String)}
    {page : Page} (binds : form.Binds params filters page) : form.request? params =
      some ⟨form.view, filters, page.sort.map fun field => (field, page.order),
        page.limit.toNat, page.offset.toNat⟩ := by
  have tests : form.tests.mapM (filterAt? params) = some filters := by
    apply mapM_of_forall₂
    refine binds.tests.imp fun test filter given => ?_
    simp [filterAt?, given.1.field?, textAt?, given.2]
  have order : sortAt? params form.order =
      some (page.sort.map fun field => (field, page.order)) := by
    have related := binds.order
    generalize form.order = found at related
    generalize page.sort = wanted at related
    cases related with
    | none => rfl
    | some given => simp [sortAt?, given.1.field?, given.2]
  simp [Form.request?, tests, order, numberAt?, binds.limit, binds.offset]

def keyParam (key : String) : Param :=
  if key.toList.contains '.' then .texts (segments key) else .text key

def testParams (entries : List (String × String)) : List Param :=
  entries.flatMap fun entry => [keyParam entry.1, .text entry.2]

theorem length_testParams (entries : List (String × String)) :
    (testParams entries).length = 2 * entries.length := by
  induction entries with
  | nil => rfl
  | cons entry others ih =>
    simp only [testParams, List.flatMap_cons, List.length_append,
      List.length_cons, List.length_nil] at ih ⊢
    omega

theorem params_accessor (key : String) (rest : List Piece) :
    Piece.params (accessor key ++ rest) = keyParam key :: Piece.params rest := by
  unfold accessor keyParam
  split
  · rfl
  · rfl

theorem params_conditions (keyword : String) (entries : List (String × String))
    (rest : List Piece) :
    Piece.params (conditions keyword entries ++ rest) =
      testParams entries ++ Piece.params rest := by
  induction entries generalizing keyword with
  | nil => rfl
  | cons entry others ih =>
    simp [conditions, predicate, Piece.params, params_accessor, ih, testParams]

theorem params_select (view : String) (filters : Filters) (page : Page) :
    (select view filters page).params = testParams filters.entries ++
      page.sort.toList.map keyParam ++ [.number page.limit.toNat, .number page.offset.toNat] := by
  have ordered (rest : List Piece) :
      Piece.params (ordering page ++ rest) = page.sort.toList.map keyParam ++
        Piece.params rest := by
    unfold ordering
    cases page.sort with
    | none => rfl
    | some key => simp [Piece.params, params_accessor]
  simp [select, Piece.bind, pieces, Piece.params, params_conditions, ordered]

theorem bound_at {params : List Param} {number : Nat} (before : List Param) (param : Param)
    (after : List Param) (parts : params = before ++ param :: after)
    (place : number = before.length + 1) : bound params number = some param := by
  subst parts place
  simp [bound]

theorem names_key {params : List Param} {number : Nat} {key : String}
    (given : bound params number = some (keyParam key)) :
    Access.Names params ⟨operatorOf key, number⟩ key := by
  unfold keyParam at given
  unfold Access.Names operatorOf
  by_cases dotted : key.toList.contains '.'
  · simp only [if_pos dotted] at given ⊢
    obtain ⟨joined, length, free⟩ := Text.parts_joined '.' key.toList
    have points : 0 < key.toList.count '.' := List.count_pos_iff.mpr (by simpa using dotted)
    refine ⟨segments key, given, ?_, ?_, ?_⟩
    · simp only [segments, List.length_map]
      omega
    · simpa [segments] using free
    · rw [← String.toList_inj, String.toList_intercalate]
      simpa [segments, Function.comp_def] using joined
  · simp only [if_neg dotted] at given ⊢
    exact ⟨given, by simpa using dotted⟩

theorem tests_bound (entries : List (String × String)) (before after : List Param) :
    List.Forall₂ (fun test filter => test.1.Names (before ++ testParams entries ++ after) filter.1 ∧
        bound (before ++ testParams entries ++ after) test.2 = some (.text filter.2))
      (testsFrom (before.length + 1) (entries.map (·.1))) entries := by
  -- the parameters of the tests behind are the first ones of those before
  induction entries generalizing before with
  | nil => exact .nil
  | cons entry others ih =>
    obtain ⟨key, value⟩ := entry
    have later := ih (before ++ [keyParam key, .text value])
    have moved : before ++ testParams ((key, value) :: others) ++ after =
        before ++ [keyParam key, .text value] ++ testParams others ++ after := by
      simp [testParams]
    have length : (before ++ [keyParam key, .text value]).length + 1 = before.length + 1 + 2 := by
      simp
    rw [moved]
    rw [length] at later
    refine .cons ⟨names_key ?_, ?_⟩ later
    · exact bound_at before (keyParam key) (.text value :: (testParams others ++ after))
        (by simp) rfl
    · exact bound_at (before ++ [keyParam key]) (.text value) (testParams others ++ after)
        (by simp) (by simp)

theorem formOf_binds (view : String) (filters : Filters) (page : Page) :
    (formOf view filters page).Binds (select view filters page).params filters.entries page := by
  have params := params_select view filters page
  have count : 1 + 2 * filters.keys.length = (testParams filters.entries).length + 1 := by
    rw [length_testParams, NameMap.length_keys]
    omega
  have tests := tests_bound filters.entries []
  cases sorted : page.sort with
  | none =>
    have written : (select view filters page).params =
        testParams filters.entries ++ [.number page.limit.toNat, .number page.offset.toNat] := by
      simp [params, sorted]
    simp only [formOf, sorted, count, written]
    constructor
    · exact tests _
    · simp [sorted]
    · exact bound_at _ _ _ rfl rfl
    · exact bound_at (testParams filters.entries ++ [.number page.limit.toNat]) _ []
        (by simp) (by simp)
  | some key =>
    have written : (select view filters page).params =
        testParams filters.entries ++ [keyParam key, .number page.limit.toNat,
          .number page.offset.toNat] := by
      simp [params, sorted]
    simp only [formOf, sorted, count, written]
    constructor
    · exact tests _
    · rw [sorted]
      exact .some ⟨names_key (bound_at _ _ _ rfl rfl), rfl⟩
    · exact bound_at (testParams filters.entries ++ [keyParam key]) _ [.number page.offset.toNat]
        (by simp) (by simp)
    · exact bound_at (testParams filters.entries ++ [keyParam key, .number page.limit.toNat]) _ []
        (by simp) (by simp)

def Lexeme.number? : Lexeme → Option Nat
  | .placeholder number => some number
  | _ => none

theorem numbers_tests (next : Nat) (keyword : String) (keys : List String) :
    (Form.testLexemes keyword (testsFrom next keys)).filterMap Lexeme.number? =
      List.range' next (2 * keys.length) := by
  induction keys generalizing next keyword with
  | nil => rfl
  | cons key others ih =>
    have count : 2 * (others.length + 1) = 2 * others.length + 1 + 1 := by omega
    simp [testsFrom, Form.testLexemes, Form.accessLexemes, List.filterMap_cons, Lexeme.number?,
      ih, count, List.range'_succ]

/-- From left to right the placeholders count the parameters. -/
theorem numbers_formOf (view : String) (filters : Filters) (page : Page) :
    (formOf view filters page).toLexemes.filterMap Lexeme.number? =
      List.range' 1 (select view filters page).params.length := by
  have count : (select view filters page).params.length = 2 * filters.keys.length +
      (page.sort.toList.length + 2) := by
    simp [params_select, length_testParams, NameMap.length_keys]
  have tests := numbers_tests 1 "WHERE" filters.keys
  have later :
      (Form.orderLexemes (formOf view filters page).order ++
        Form.pagingLexemes (formOf view filters page).limit
          (formOf view filters page).offset).filterMap Lexeme.number? =
        List.range' (1 + 2 * filters.keys.length) (page.sort.toList.length + 2) := by
    unfold formOf
    cases page.sort with
    | none => rfl
    | some key => rfl
  rw [count, ← List.range'_append, Nat.one_mul, ← tests, ← later]
  simp [Form.toLexemes, List.filterMap_cons, Lexeme.number?, formOf]

/-- Of the values given for a field this one came last. -/
def LastGiven (pairs : List (String × String)) (field value : String) : Prop :=
  ∃ before after, pairs = before ++ (field, value) :: after ∧ ∀ pair ∈ after, pair.1 ≠ field

theorem get?_ofPairs_iff (pairs : List (String × String)) (field value : String) :
    (Filters.ofPairs pairs).get? field = some value ↔ LastGiven pairs field value := by
  rw [Filters.ofPairs, NameMap.get?_ofList, Option.map_eq_some_iff]
  constructor
  · rintro ⟨⟨name, given⟩, found, rfl⟩
    obtain ⟨same, after, before, split, others⟩ := List.find?_eq_some_iff_append.mp found
    cases of_decide_eq_true same
    refine ⟨before.reverse, after.reverse, ?_, ?_⟩
    · simpa using congrArg List.reverse split
    · simpa using others
  · rintro ⟨before, after, rfl, others⟩
    refine ⟨(field, value), ?_, rfl⟩
    rw [List.find?_eq_some_iff_append]
    refine ⟨by simp, after.reverse, before.reverse, by simp, ?_⟩
    simpa using others

/-- Only the order among the pairs of one field matters. -/
theorem ofPairs_reordered {pairs other : List (String × String)}
    (same : ∀ field, other.filter (·.1 = field) = pairs.filter (·.1 = field)) :
    Filters.ofPairs other = Filters.ofPairs pairs := by
  apply NameMap.ext_get?
  intro field
  have last (pairs : List (String × String)) : (Filters.ofPairs pairs).get? field =
      ((pairs.filter (·.1 = field)).getLast?).map (·.2) := by
    rw [Filters.ofPairs, NameMap.get?_ofList, ← List.head?_filter,
      List.filter_reverse, List.head?_reverse]
  rw [last, last, same]

/-- In the text of a read the placeholders count the parameters from left to right. There is one
test for each field, in the order of the fields, and it is bound to the field and to its last value;
then the order, if one is wanted, then the limit and the offset. So the request can be read back,
and pairs may be reordered as long as those of one field keep their order. -/
theorem requests_read_back (view : String) (pairs : List (String × String)) (page : Page) :
    let query := select view (Filters.ofPairs pairs) page
    ∃ (row : List Lexeme) (form : Form) (filters : List (String × String)),
      lexemes query.sql.toList = some row ∧
      row.filterMap Lexeme.number? = List.range' 1 query.params.length ∧
      Form.read query.sql = some form ∧
      form.view = view ∧
      filters.Pairwise (fun first second => first.1 < second.1) ∧
      (∀ field value, (field, value) ∈ filters ↔ LastGiven pairs field value) ∧
      form.Binds query.params filters page ∧
      query.request? =
        some ⟨view, filters, page.sort.map fun field => (field, page.order),
          page.limit.toNat, page.offset.toNat⟩ ∧
      ∀ other : List (String × String),
        (∀ field, other.filter (·.1 = field) = pairs.filter (·.1 = field)) →
        select view (Filters.ofPairs other) page = query := by
  intro query
  have text := select_spelled view (Filters.ofPairs pairs) page
  obtain ⟨lexed, read⟩ := Form.read_spelled text
  have binds := formOf_binds view (Filters.ofPairs pairs) page
  refine ⟨_, _, (Filters.ofPairs pairs).entries, lexed, numbers_formOf view _ page, read, rfl,
    (Filters.ofPairs pairs).rising, ?_, binds, ?_, ?_⟩
  · intro field value
    rw [NameMap.mem_entries_iff, get?_ofPairs_iff]
  · rw [BoundQuery.request?, read, Option.bind_some, binds.request?]
    rfl
  · intro other same
    rw [ofPairs_reordered same]

/-- Fields and values that look like placeholders, repeated fields and a path of empty segments. -/
theorem requests_read_back_hostile :
    let pairs := [("$1", "old"), ("a..b.", "' OR $9"), ("$1", "new")]
    let other := [("a..b.", "' OR $9"), ("$1", "old"), ("$1", "new")]
    let page : Page := ⟨5, 20, some ".", .descending⟩
    let query := select "v\"$7" (Filters.ofPairs pairs) page
    (∀ field, other.filter (·.1 = field) = pairs.filter (·.1 = field)) ∧
      select "v\"$7" (Filters.ofPairs other) page = query ∧
      ∃ form filters, Form.read query.sql = some form ∧ form.Binds query.params filters page ∧
        ("$1", "new") ∈ filters ∧
        query.request? = some ⟨"v\"$7", filters, some (".", .descending), 5, 20⟩ := by
  intro pairs other page query
  have same : ∀ field, other.filter (·.1 = field) = pairs.filter (·.1 = field) := by
    intro field
    by_cases first : "$1" = field
    · subst first
      rfl
    · by_cases second : "a..b." = field
      · subst second
        rfl
      · simp [pairs, other, first, second]
  obtain ⟨_, form, filters, _, _, read, _, _, given, binds, request, reordered⟩ :=
    requests_read_back "v\"$7" pairs page
  have last : LastGiven pairs "$1" "new" :=
    ⟨[("$1", "old"), ("a..b.", "' OR $9")], [], rfl, by simp⟩
  exact ⟨same, reordered other same, form, filters, read, binds, (given _ _).mpr last, request⟩

theorem operatorOf_eq_iff (key other : String) :
    operatorOf key = operatorOf other ↔ key.toList.contains '.' = other.toList.contains '.' := by
  unfold operatorOf
  cases key.toList.contains '.' <;> cases other.toList.contains '.' <;> simp

theorem testsFrom_eq_iff (next : Nat) (keys others : List String) :
    testsFrom next keys = testsFrom next others ↔
    keys.map (·.toList.contains '.') = others.map (·.toList.contains '.') := by
  induction keys generalizing next others with
  | nil => cases others <;> simp [testsFrom]
  | cons key keys ih =>
    cases others with
    | nil => simp [testsFrom]
    | cons other others => simp [testsFrom, ih, operatorOf_eq_iff]

theorem formOf_eq_iff (view : String) (first second : Filters) (one other : Page) :
    formOf view first one = formOf view second other ↔
      first.keys.map (·.toList.contains '.') = second.keys.map (·.toList.contains '.') ∧
      one.sort.map (·.toList.contains '.') = other.sort.map (·.toList.contains '.') ∧
      (one.sort.isSome → one.order = other.order) := by
  rw [← testsFrom_eq_iff 1]
  constructor
  · intro same
    have tests := congrArg Form.tests same
    have order := congrArg Form.order same
    refine ⟨tests, ?_⟩
    simp only [formOf] at order
    cases sorted : one.sort with
    | none =>
      cases wanted : other.sort with
      | none => simp
      | some field => simp [sorted, wanted] at order
    | some key =>
      cases wanted : other.sort with
      | none => simp [sorted, wanted] at order
      | some field =>
        simp only [sorted, wanted, Option.map_some, Option.some.injEq,
          Prod.mk.injEq, Access.mk.injEq] at order
        obtain ⟨⟨operator, _⟩, direction⟩ := order
        rw [Option.map_some, Option.map_some, (operatorOf_eq_iff key field).mp operator]
        exact ⟨rfl, fun _ => direction⟩
  · rintro ⟨tests, sorts, orders⟩
    have count : first.keys.length = second.keys.length := by
      have lengths := congrArg List.length ((testsFrom_eq_iff 1 _ _).mp tests)
      simpa using lengths
    simp only [formOf, tests, count]
    cases sorted : one.sort with
    | none =>
      cases wanted : other.sort with
      | none => rfl
      | some field => simp [sorted, wanted] at sorts
    | some key =>
      cases wanted : other.sort with
      | none => simp [sorted, wanted] at sorts
      | some field =>
        rw [sorted, wanted, Option.map_some, Option.map_some,
          Option.some.injEq, ← operatorOf_eq_iff] at sorts
        simp [sorts, orders (by simp [sorted])]

/-- Two reads of a view have one text exactly if they test equally many fields, their fields
agree one by one on being paths, and they agree on the presence, the path and the direction of
an order. Nothing else of the fields, and nothing of the values, the limit and the offset, can
be told from the text. -/
theorem read_text_hides_data (view : String) (first second : Filters) (one other : Page) :
    (select view first one).sql = (select view second other).sql ↔
      first.keys.map (·.toList.contains '.') = second.keys.map (·.toList.contains '.') ∧
      one.sort.map (·.toList.contains '.') = other.sort.map (·.toList.contains '.') ∧
      (one.sort.isSome → one.order = other.order) := by
  rw [← formOf_eq_iff view]
  have text := select_spelled view first one
  have text' := select_spelled view second other
  constructor
  · intro same
    have read := (Form.read_spelled text).2
    rw [same, (Form.read_spelled text').2] at read
    exact (Option.some.inj read).symm
  · intro same
    rw [← String.toList_inj, text, text', same]

theorem read_text_hides_data_hostile :
    let plain : Filters := .ofList [("title", "Hello"), ("author.name", "Ann")]
    let hostile : Filters :=
      .ofList [("'; DROP TABLE articles; -- $1", ""), ("\" = $2 --.", "x' OR '1'='1")]
    let one : Page := ⟨10, 0, some "title", .descending⟩
    let other : Page := ⟨1000, 7, some "\"data\" ASC; --", .descending⟩
    (plain.keys.map (·.toList.contains '.') = hostile.keys.map (·.toList.contains '.') ∧
      one.sort.map (·.toList.contains '.') = other.sort.map (·.toList.contains '.') ∧
      (one.sort.isSome → one.order = other.order)) ∧
    (select "articles_view" plain one).sql = (select "articles_view" hostile other).sql := by
  intro plain hostile one other
  have fields : plain.keys.map (·.toList.contains '.') =
      hostile.keys.map (·.toList.contains '.') := by
    with_unfolding_all rfl
  have sorts : one.sort.map (·.toList.contains '.') = other.sort.map (·.toList.contains '.') := rfl
  have orders : one.sort.isSome → one.order = other.order := fun _ => rfl
  have same :=
    (read_text_hides_data "articles_view" plain hostile one other).mpr ⟨fields, sorts, orders⟩
  exact ⟨⟨fields, sorts, orders⟩, same⟩

end Reading

end DocumentViews
