import DocumentViews.Command.Basic
import DocumentViews.Command.Report

/-! Command lines.
Words are taken from left to right. Options may stand before and after the command's name; a value
is attached to its option or is the next word. A value in a word of its own is judged when the next
known word is taken up, and an unknown word is reported before it. -/
namespace DocumentViews

inductive UsageError where
  | nothingGiven
  | missingCommand
  | invalidCommand
  | help
  | version
  | unknownArgument
  | invalidValue
  | valueValidation
  | tooManyValues
  | conflict
  | missingCollection
deriving DecidableEq

/-- A command with the settings that go with every command. -/
structure Invocation where
  format : Format
  config : Option String
  command : Command
deriving DecidableEq

namespace Arguments

inductive Switch where
  | help
  | version
  | format
  | config
  | materialized
  | tree
  | filter
  | limit
  | offset
  | sort
  | order
deriving DecidableEq

namespace Switch

def every : List Switch :=
  [.help, .version, .format, .config, .materialized, .tree, .filter, .limit, .offset, .sort, .order]

def long : Switch → String
  | .help => "help"
  | .version => "version"
  | .format => "format"
  | .config => "config"
  | .materialized => "materialized"
  | .tree => "tree"
  | .filter => "where"
  | .limit => "limit"
  | .offset => "offset"
  | .sort => "sort"
  | .order => "order"

def short : Switch → Option Char
  | .help => some 'h'
  | .version => some 'V'
  | .format => some 'f'
  | .config => some 'c'
  | .materialized => some 'm'
  | .filter => some 'w'
  | .limit => some 'l'
  | .sort => some 's'
  | .tree => none
  | .offset => none
  | .order => none

def takesValue : Switch → Bool
  | .help => false
  | .version => false
  | .materialized => false
  | .tree => false
  | _ => true

end Switch

inductive Verb where
  | routes
  | create
  | refresh
  | drop
  | compile
  | all
  | find
  | findOne
deriving DecidableEq

namespace Verb

def label : Verb → String
  | .routes => "routes"
  | .create => "create"
  | .refresh => "refresh"
  | .drop => "drop"
  | .compile => "compile"
  | .all => "all"
  | .find => "find"
  | .findOne => "find-one"

def every : List Verb := [.routes, .create, .refresh, .drop, .compile, .all, .find, .findOne]

def ofLabel? (name : String) : Option Verb := every.find? fun verb => verb.label = name

/-- The options of a command beside those of every command. -/
def own : Verb → List Switch
  | .create => [.materialized]
  | .compile => [.tree]
  | .find => [.filter, .limit, .offset, .sort, .order]
  | .findOne => [.filter]
  | _ => []

end Verb

/-- Where words are taken: before the command's name, or after it. -/
abbrev Level := Option Verb

def allows (level : Level) (switch : Switch) : Bool :=
  match level with
  | none => [Switch.help, .version, .format, .config].contains switch
  | some verb => [Switch.help, .format, .config].contains switch || verb.own.contains switch

def takesCollection : Level → Bool
  | none => false
  | some .routes => false
  | some _ => true

/-- What has been given at a level. -/
structure Given where
  collection : Option String := none
  format : Option Format := none
  config : Option String := none
  materialized : Bool := false
  tree : Bool := false
  filters : List (String × String) := []
  limit : Option UInt32 := none
  offset : Option UInt32 := none
  sort : Option String := none
  order : Option SortOrder := none

/-- The digits of a number, if there are any and nothing else. -/
def digits? (text : List Char) : Option Nat :=
  if text.isEmpty || !text.all Char.isDigit then none
  else some (text.foldl (fun sum c => sum * 10 + (c.toNat - '0'.toNat)) 0)

/-- A number with an optional sign. -/
def integer? : List Char → Option Int
  | '+' :: rest => (digits? rest).map Int.ofNat
  | '-' :: rest => (digits? rest).map fun n => -(n : Int)
  | text => (digits? text).map Int.ofNat

def bounded (low high : Nat) (value : String) : Except UsageError UInt32 :=
  match integer? value.toList with
  | some (.ofNat n) => if low ≤ n ∧ n ≤ high then .ok (.ofNat n) else .error .valueValidation
  | _ => .error .valueValidation

/-- Fills an empty place; a full one is a conflict. -/
def fill {α : Type} (place : Option α) (value : Except UsageError α) :
    Except UsageError (Option α) :=
  match place with
  | some _ => .error .conflict
  | none => value.map some

namespace Given

def raise (given : Given) : Switch → Except UsageError Given
  | .help => .error .help
  | .version => .error .version
  | .materialized =>
    if given.materialized then .error .conflict else .ok { given with materialized := true }
  | .tree => if given.tree then .error .conflict else .ok { given with tree := true }
  | _ => .error .invalidValue

def accept (given : Given) (switch : Switch) (value : String) : Except UsageError Given :=
  match switch with
  | .format => do
    let format ← fill given.format ((Format.ofLabel? value).elim (.error .invalidValue) .ok)
    return { given with format := format }
  | .config => do
    let config ← fill given.config (if value.isEmpty then .error .invalidValue else .ok value)
    return { given with config := config }
  | .filter =>
    match Filters.parse value with
    | .error _ => .error .valueValidation
    | .ok pair => .ok { given with filters := given.filters ++ [pair] }
  | .limit => do
    let limit ← fill given.limit (bounded 1 1000 value)
    return { given with limit := limit }
  | .offset => do
    let offset ← fill given.offset (bounded 0 4294967295 value)
    return { given with offset := offset }
  | .sort => do
    let sort ← fill given.sort (.ok value)
    return { given with sort := sort }
  | .order => do
    let order ← fill given.order ((SortOrder.ofLabel? value).elim (.error .invalidValue) .ok)
    return { given with order := order }
  | _ => .error .tooManyValues

end Given

/-- An option whose value is a word of its own, and that word once it is there. -/
structure Pending where
  switch : Switch
  value : Option String

structure Taken where
  given : Given := {}
  pending : Option Pending := none
  /-- Whether a double dash has ended the options. -/
  trailing : Bool := false

namespace Taken

def awaits (taken : Taken) : Bool := taken.pending.any fun pending => pending.value.isNone

/-- Judges the option that is pending, if any. -/
def settle (taken : Taken) : Except UsageError Taken :=
  match taken.pending with
  | none => .ok taken
  | some ⟨_, none⟩ => .error .invalidValue
  | some ⟨switch, some value⟩ => do
    let given ← taken.given.accept switch value
    return { taken with given := given, pending := none }

def raise (taken : Taken) (switch : Switch) : Except UsageError Taken := do
  let taken ← taken.settle
  let given ← taken.given.raise switch
  return { taken with given := given }

def accept (taken : Taken) (switch : Switch) (value : String) : Except UsageError Taken := do
  let taken ← taken.settle
  let given ← taken.given.accept switch value
  return { taken with given := given }

def expect (taken : Taken) (switch : Switch) : Except UsageError Taken := do
  let taken ← taken.settle
  return { taken with pending := some ⟨switch, none⟩ }

def long (taken : Taken) (level : Level) (name : String) (value : Option String) :
    Except UsageError Taken :=
  match Switch.every.find? fun switch => allows level switch && switch.long = name with
  | none => .error .unknownArgument
  | some switch =>
    match switch.takesValue, value with
    | true, some value => taken.accept switch value
    | true, none => taken.expect switch
    | false, some _ => .error .tooManyValues
    | false, none => taken.raise switch

/-- Takes options by their one-letter names; the rest of the word is the value of the first one that
takes a value. -/
def shorts (level : Level) : Taken → List Char → Except UsageError Taken
  | taken, [] => .ok taken
  | taken, letter :: rest =>
    match Switch.every.find? fun switch => allows level switch && switch.short = some letter with
    | none => .error .unknownArgument
    | some switch =>
      if switch.takesValue then
        match rest with
        | [] => taken.expect switch
        | '=' :: value => taken.accept switch (String.ofList value)
        | value => taken.accept switch (String.ofList value)
      else
        match taken.raise switch with
        | .error error => .error error
        | .ok taken => shorts level taken rest

def word (taken : Taken) (level : Level) (text : String) : Except UsageError Taken :=
  if takesCollection level && taken.given.collection.isNone then do
    let taken ← taken.settle
    return { taken with given := { taken.given with collection := some text } }
  else
    match level with
    | some _ => .error .unknownArgument
    | none =>
      if taken.trailing && (text = "help" || (Verb.ofLabel? text).isSome) then
        .error .unknownArgument
      else .error .invalidCommand

def take (level : Level) (taken : Taken) (text : String) : Except UsageError Taken :=
  if taken.trailing then taken.word level text
  else
    match text.toList with
    | ['-', '-'] => .ok { taken with trailing := true }
    | '-' :: '-' :: body =>
      let name := String.ofList (body.takeWhile (· ≠ '='))
      match body.dropWhile (· ≠ '=') with
      | [] => taken.long level name none
      | _ :: value => taken.long level name (some (String.ofList value))
    | '-' :: letter :: rest => shorts level taken (letter :: rest)
    | _ =>
      match taken.pending with
      | some ⟨switch, none⟩ => .ok { taken with pending := some ⟨switch, some text⟩ }
      | _ => taken.word level text

end Taken

def command (verb : Verb) (given : Given) : Except UsageError Command :=
  match verb, given.collection with
  | .routes, _ => .ok .routes
  | _, none => .error .missingCollection
  | .create, some collection => .ok (.create collection given.materialized)
  | .refresh, some collection => .ok (.refresh collection)
  | .drop, some collection => .ok (.drop collection)
  | .compile, some collection => .ok (.compile collection given.tree)
  | .all, some collection => .ok (.all collection)
  | .find, some collection => .ok (.find collection given.filters
      ⟨given.limit.getD Page.standardLimit, given.offset.getD 0, given.sort,
        given.order.getD .ascending⟩)
  | .findOne, some collection => .ok (.findOne collection given.filters)

def afterVerb (verb : Verb) (words : List String) : Except UsageError (Given × Command) := do
  let taken ← words.foldlM (Taken.take (some verb)) {}
  let taken ← taken.settle
  let command ← command verb taken.given
  return (taken.given, command)

/-- What follows the word for help: the names of commands, one below the other. No command has
commands below it. -/
def helpOn : List String → UsageError
  | [] => .help
  | name :: rest =>
    if (name = "help" || (Verb.ofLabel? name).isSome) && rest.isEmpty then .help
    else .invalidCommand

/-- Options of the command win over those before its name. -/
def invocation (before after : Given) (command : Command) : Invocation :=
  ⟨(after.format.or before.format).getD .table, after.config.or before.config, command⟩

def ended (taken : Taken) : UsageError :=
  match taken.settle with
  | .error error => error
  | .ok taken =>
    if taken.given.format.isSome || taken.given.config.isSome then .missingCommand
    else .nothingGiven

/-- The words up to the command's name, then the rest. -/
def beforeVerb (taken : Taken) : List String → Except UsageError Invocation
  | [] => .error (ended taken)
  | text :: rest =>
    if !taken.trailing && !taken.awaits && text = "help" then .error (helpOn rest)
    else
      match if taken.trailing || taken.awaits then none else Verb.ofLabel? text with
      | some verb => do
        let (after, command) ← afterVerb verb rest
        let taken ← taken.settle
        return invocation taken.given after command
      | none =>
        match taken.take none text with
        | .error error => .error error
        | .ok taken => beforeVerb taken rest

/-- Reads a command line, given without the program's name. -/
def parse (words : List String) : Except UsageError Invocation := beforeVerb {} words

end Arguments

end DocumentViews
