import DocumentViews.Command.Arguments
import DocumentViews.Proofs.Json.Record

/-! Options with attached values.
An option is written with its long name, and its value follows an equals sign in the same word, so
it is never taken for anything else, whatever the value looks like. A row of such words is taken one
by one, and each puts its value into a place of its own. -/
namespace DocumentViews

theorem parted_at_equals {front : List Char} (plain : '=' ∉ front) (rest : List Char) :
    (front ++ '=' :: rest).takeWhile (· ≠ '=') = front ∧
      (front ++ '=' :: rest).dropWhile (· ≠ '=') = '=' :: rest := by
  have passes : ∀ c ∈ front, decide (c ≠ '=') = true := by
    intro c member
    exact decide_eq_true fun same => plain (same ▸ member)
  constructor
  · rw [List.takeWhile_append_of_pos passes, List.takeWhile_cons_of_neg (by simp), List.append_nil]
  · rw [List.dropWhile_append_of_pos passes, List.dropWhile_cons_of_neg (by simp)]

theorem Filters.parse_written {field : String} (filled : field ≠ "") (plain : '=' ∉ field.toList)
    (value : String) :
    Filters.parse (field ++ "=" ++ value) = .ok (field, value) := by
  have chars : (field ++ "=" ++ value).toList = field.toList ++ '=' :: value.toList := by simp
  obtain ⟨front, back⟩ := parted_at_equals plain value.toList
  simp only [parse, chars, front, back]
  simp [filled]

theorem Format.ofLabel?_label (format : Format) : Format.ofLabel? format.label = some format := by
  cases format <;> decide

theorem SortOrder.ofLabel?_label (order : SortOrder) :
    SortOrder.ofLabel? order.label = some order := by
  cases order <;> decide

namespace Arguments

theorem digits?_toDigits (n : Nat) : digits? (Nat.toDigits 10 n) = some n := by
  have filled : (Nat.toDigits 10 n).isEmpty = false :=
    List.isEmpty_eq_false_iff.mpr Nat.toDigits_ne_nil
  have digits : (Nat.toDigits 10 n).all Char.isDigit = true :=
    List.all_eq_true.mpr (Json.all_digits n)
  rw [digits?, filled, digits]
  exact congrArg some (Json.value_toDigits n)

theorem integer?_toDigits (n : Nat) : integer? (Nat.toDigits 10 n) = some (n : Int) := by
  have unsigned : ∀ sign rest, sign.isDigit = false → Nat.toDigits 10 n ≠ sign :: rest := by
    intro sign rest other same
    have digit := Json.all_digits n sign (same ▸ List.mem_cons_self)
    rw [other] at digit
    cases digit
  unfold integer?
  split
  · rename_i rest plus
    exact absurd plus (unsigned '+' rest (by decide))
  · rename_i rest minus
    exact absurd minus (unsigned '-' rest (by decide))
  · rw [digits?_toDigits]
    rfl

theorem bounded_decimal {low high : Nat} (number : UInt32) (above : low ≤ number.toNat)
    (below : number.toNat ≤ high) :
    bounded low high (Report.decimal number.toNat) = .ok number := by
  simp [bounded, Report.decimal, integer?_toDigits, above, below]

theorem Switch.long_plain (switch : Switch) :
    switch.long.toList ≠ [] ∧ '=' ∉ switch.long.toList := by
  cases switch <;> decide

inductive Setting where
  | format (chosen : Format)
  | config (path : String)
  | materialized
  | tree
  | filter (field value : String)
  | limit (count : UInt32)
  | offset (count : UInt32)
  | sort (key : String)
  | order (direction : SortOrder)
deriving DecidableEq

namespace Setting

def switch : Setting → Switch
  | .format _ => .format
  | .config _ => .config
  | .materialized => .materialized
  | .tree => .tree
  | .filter _ _ => .filter
  | .limit _ => .limit
  | .offset _ => .offset
  | .sort _ => .sort
  | .order _ => .order

def value? : Setting → Option String
  | .format chosen => some chosen.label
  | .config path => some path
  | .materialized => none
  | .tree => none
  | .filter field value => some (field ++ "=" ++ value)
  | .limit count => some (Report.decimal count.toNat)
  | .offset count => some (Report.decimal count.toNat)
  | .sort key => some key
  | .order direction => some direction.label

def word (setting : Setting) : String :=
  "--" ++ setting.switch.long ++ (setting.value?.map ("=" ++ ·)).getD ""

theorem toList_word (setting : Setting) : setting.word.toList = '-' :: '-' ::
    (setting.switch.long.toList ++
      (setting.value?.map fun found => '=' :: found.toList).getD []) := by
  unfold word
  cases setting.value? <;> simp

def IsValid : Setting → Prop
  | .config path => path ≠ ""
  | .filter field _ => field ≠ "" ∧ '=' ∉ field.toList
  | .limit count => 1 ≤ count.toNat ∧ count.toNat ≤ 1000
  | _ => True

def filter? : Setting → Option (String × String)
  | .filter field value => some (field, value)
  | _ => none

/-- Only filters may be given more than once. -/
def Compatible (one other : Setting) : Prop := one.switch = other.switch → one.switch = .filter

end Setting

namespace Given

def put (given : Given) : Setting → Given
  | .format chosen => { given with format := some chosen }
  | .config path => { given with config := some path }
  | .materialized => { given with materialized := true }
  | .tree => { given with tree := true }
  | .filter field value => { given with filters := given.filters ++ [(field, value)] }
  | .limit count => { given with limit := some count }
  | .offset count => { given with offset := some count }
  | .sort key => { given with sort := some key }
  | .order direction => { given with order := some direction }

def Lacks (given : Given) : Setting → Prop
  | .format _ => given.format = none
  | .config _ => given.config = none
  | .materialized => given.materialized = false
  | .tree => given.tree = false
  | .filter _ _ => True
  | .limit _ => given.limit = none
  | .offset _ => given.offset = none
  | .sort _ => given.sort = none
  | .order _ => given.order = none

def Holds (given : Given) : Setting → Prop
  | .format chosen => given.format = some chosen
  | .config path => given.config = some path
  | .materialized => given.materialized = true
  | .tree => given.tree = true
  | .filter field value => (field, value) ∈ given.filters
  | .limit count => given.limit = some count
  | .offset count => given.offset = some count
  | .sort key => given.sort = some key
  | .order direction => given.order = some direction

variable {given : Given} {setting other : Setting}

theorem accept_eq_put {value : String} (valued : setting.value? = some value)
    (valid : setting.IsValid) (lacks : given.Lacks setting) :
    given.accept setting.switch value = .ok (given.put setting) := by
  unfold Lacks at lacks
  cases setting <;> cases valued
  case format chosen =>
    simp [accept, Setting.switch, put, fill, lacks, Format.ofLabel?_label, Except.map]
  case config =>
    have filled : value ≠ "" := valid
    simp [accept, Setting.switch, put, fill, lacks, filled, Except.map]
  case filter field value =>
    simp [accept, Setting.switch, put, Filters.parse_written valid.1 valid.2]
  case limit count =>
    simp [accept, Setting.switch, put, fill, lacks,
      bounded_decimal count valid.1 valid.2, Except.map]
  case offset count =>
    have below : count.toNat ≤ 4294967295 := Nat.le_of_lt_succ count.toNat_lt
    simp [accept, Setting.switch, put, fill, lacks,
      bounded_decimal count (Nat.zero_le _) below, Except.map]
  case sort => simp [accept, Setting.switch, put, fill, lacks, Except.map]
  case order direction =>
    simp [accept, Setting.switch, put, fill, lacks, SortOrder.ofLabel?_label, Except.map]

theorem raise_eq_put (flag : setting.value? = none) (lacks : given.Lacks setting) :
    given.raise setting.switch = .ok (given.put setting) := by
  cases setting <;> cases flag
  all_goals exact if_neg (Bool.eq_false_iff.mp lacks)

theorem Lacks.put (h : given.Lacks other) (apart : setting.Compatible other) :
    (given.put setting).Lacks other := by
  cases setting <;> cases other <;> first | exact h | exact absurd (apart rfl) nofun

/-- A place that was free holds what is put into it, and nothing else changes. -/
theorem holds_put (lacks : given.Lacks setting) :
    (given.put setting).Holds other ↔ given.Holds other ∨ setting = other := by
  unfold Lacks at lacks
  cases setting with
  | filter field value =>
    rw [eq_comm (b := other)]
    cases other <;> simp [Given.put, Holds]
  | _ => cases other <;> simp_all [Given.put, Holds]

def ofSettings (row : List Setting) : Given := row.foldl put {}

theorem collection_put (given : Given) (setting : Setting) :
    (given.put setting).collection = given.collection := by
  cases setting <;> rfl

theorem collection_foldl (given : Given) (row : List Setting) :
    (row.foldl put given).collection = given.collection := by
  induction row generalizing given with
  | nil => rfl
  | cons setting rest ih => rw [List.foldl_cons, ih, collection_put]

theorem lacks_empty (setting : Setting) : ({} : Given).Lacks setting := by
  cases setting <;> trivial

/-- Whether every setting of a row finds its place free, once those in front of it are put
into theirs. -/
structure Admits (given : Given) (row : List Setting) : Prop where
  apart : row.Pairwise Setting.Compatible
  lacks : ∀ setting ∈ row, given.Lacks setting

theorem admits_empty {row : List Setting} (apart : row.Pairwise Setting.Compatible) :
    ({} : Given).Admits row :=
  ⟨apart, fun setting _ => lacks_empty setting⟩

theorem Admits.head {row : List Setting} (h : given.Admits (setting :: row)) :
    given.Lacks setting :=
  h.lacks setting List.mem_cons_self

theorem Admits.tail {row : List Setting} (h : given.Admits (setting :: row)) :
    (given.put setting).Admits row := by
  obtain ⟨first, later⟩ := List.pairwise_cons.mp h.apart
  refine ⟨later, fun next member => ?_⟩
  exact (h.lacks next (List.mem_cons_of_mem _ member)).put (first next member)

theorem holds_foldl {row : List Setting} (admits : given.Admits row) :
    (row.foldl put given).Holds other ↔ given.Holds other ∨ other ∈ row := by
  induction row generalizing given with
  | nil => simp
  | cons setting rest ih =>
    -- Later settings find their places free still, so what is put now stays.
    rw [List.foldl_cons, ih admits.tail, holds_put admits.head, List.mem_cons,
      eq_comm (b := other), or_assoc]

theorem filters_foldl (given : Given) (row : List Setting) :
    (row.foldl put given).filters = given.filters ++ row.filterMap Setting.filter? := by
  induction row generalizing given with
  | nil => simp
  | cons setting rest ih =>
    rw [List.foldl_cons, ih]
    cases setting <;> simp [put, Setting.filter?, List.filterMap_cons]

end Given

namespace Taken

variable {level : Level} {given : Given} {setting : Setting}

theorem find_long {switch : Switch} (allowed : allows level switch = true) :
    (Switch.every.find? fun other => allows level other && other.long = switch.long) =
      some switch := by
  revert allowed
  cases level with
  | none => cases switch <;> decide
  | some verb => cases verb <;> cases switch <;> decide

/-- A word that starts like a long option is one, and its value is all behind the first
equals sign. -/
theorem take_long {name : List Char} (plain : '=' ∉ name) (filled : name ≠ [])
    {value : Option String} {text : String}
    (written : text.toList = '-' :: '-' ::
      (name ++ (value.map fun found => '=' :: found.toList).getD []))
    {taken : Taken} (going : taken.trailing = false) :
    taken.take level text = taken.long level (String.ofList name) value := by
  obtain ⟨letter, rest, rfl⟩ := List.exists_cons_of_ne_nil filled
  unfold take
  rw [going, written]
  cases value with
  | none =>
    have passes : ∀ c ∈ letter :: rest, decide (c ≠ '=') = true :=
      fun c member => decide_eq_true fun same => plain (same ▸ member)
    have front : (letter :: rest).takeWhile (· ≠ '=') = letter :: rest :=
      List.takeWhile_eq_self_iff.mpr passes
    have back : (letter :: rest).dropWhile (· ≠ '=') = [] := List.dropWhile_eq_nil_iff.mpr passes
    simp only [Option.map_none, Option.getD_none, List.append_nil, front, back]
    rfl
  | some found =>
    obtain ⟨front, back⟩ := parted_at_equals plain found.toList
    rw [List.cons_append] at front back
    simp only [Option.map_some, Option.getD_some, List.cons_append, front,
      back, String.ofList_toList]
    rfl

theorem raise_given {switch : Switch} {after : Given} (raised : given.raise switch = .ok after) :
    Taken.raise { given := given } switch = .ok { given := after } := by
  show (given.raise switch >>= fun found => pure ({ given := found } : Taken)) = _
  rw [raised]
  rfl

theorem accept_given {switch : Switch} {value : String} {after : Given}
    (accepted : given.accept switch value = .ok after) :
    Taken.accept { given := given } switch value = .ok { given := after } := by
  show (given.accept switch value >>= fun found => pure ({ given := found } : Taken)) = _
  rw [accepted]
  rfl

theorem take_word (allowed : allows level setting.switch = true) (valid : setting.IsValid)
    (lacks : given.Lacks setting) :
    take level { given := given } setting.word = .ok { given := given.put setting } := by
  obtain ⟨filled, plain⟩ := setting.switch.long_plain
  rw [take_long plain filled setting.toList_word rfl, String.ofList_toList, long, find_long allowed]
  cases valued : setting.value? with
  | none =>
    have flag : setting.switch.takesValue = false := by cases setting <;> first | rfl | cases valued
    simp only [flag]
    exact raise_given (Given.raise_eq_put valued lacks)
  | some value =>
    have takes : setting.switch.takesValue = true := by cases setting <;> first | rfl | cases valued
    simp only [takes]
    exact accept_given (Given.accept_eq_put valued valid lacks)

theorem take_row {row : List Setting}
    (fit : ∀ setting ∈ row, allows level setting.switch = true ∧ setting.IsValid)
    (admits : given.Admits row) :
    (row.map Setting.word).foldlM (take level) { given := given } =
      .ok { given := row.foldl Given.put given } := by
  induction row generalizing given with
  | nil => rfl
  | cons setting rest ih =>
    obtain ⟨⟨allowed, valid⟩, others⟩ := List.forall_mem_cons.mp fit
    rw [List.map_cons, List.foldlM_cons, take_word allowed valid admits.head]
    exact ih others admits.tail

end Taken

end Arguments

end DocumentViews
