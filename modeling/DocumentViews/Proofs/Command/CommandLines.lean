import DocumentViews.Proofs.Command.Options
import Mathlib.Data.List.Perm.Subperm

/-! Command lines are read back as what they were written from.
A command is written as its name, its settings in any order and its collection behind a double dash;
settings that hold for every command may stand in front of the name, and those that hold anyway may
be left out. Filters keep their order. Reading gives the format, the configuration and the command
back, whatever texts they are made of. -/
namespace DocumentViews

open Arguments (Given Setting Verb Taken)

namespace Command

def verb : Command → Verb
  | .routes => .routes
  | .create _ _ => .create
  | .refresh _ => .refresh
  | .drop _ => .drop
  | .compile _ _ => .compile
  | .all _ => .all
  | .find _ _ _ => .find
  | .findOne _ _ => .findOne

def collection? : Command → Option String
  | .routes => none
  | .create collection _ => some collection
  | .refresh collection => some collection
  | .drop collection => some collection
  | .compile collection _ => some collection
  | .all collection => some collection
  | .find collection _ _ => some collection
  | .findOne collection _ => some collection

def filters : Command → List (String × String)
  | .find _ filters _ => filters
  | .findOne _ filters => filters
  | _ => []

def choices : Command → List Setting
  | .create _ materialized => if materialized then [.materialized] else []
  | .compile _ tree => if tree then [.tree] else []
  | .find _ _ page =>
    [.limit page.limit, .offset page.offset, .order page.order] ++ page.sort.toList.map .sort
  | _ => []

end Command

namespace Invocation

def choices (invocation : Invocation) : List Setting :=
  invocation.command.choices ++ .format invocation.format :: invocation.config.toList.map .config

def settings (invocation : Invocation) : List Setting :=
  invocation.command.filters.map (fun filter => .filter filter.1 filter.2) ++ invocation.choices

end Invocation

namespace Arguments

namespace Setting

/-- Whether a setting holds also when it is not given. -/
def isStandard : Setting → Bool
  | .format chosen => chosen = .table
  | .limit count => count = Page.standardLimit
  | .offset count => count = 0
  | .order direction => direction = .ascending
  | _ => false

/-- Whether a setting may stand in front of the command's name. -/
def isGlobal : Setting → Bool
  | .format _ => true
  | .config _ => true
  | _ => false

theorem allows_of_isGlobal {setting : Setting} (wide : setting.isGlobal = true) (level : Level) :
    allows level setting.switch = true := by
  cases setting <;> cases wide <;> cases level <;> rfl

theorem Compatible.symm {one other : Setting} (h : one.Compatible other) : other.Compatible one :=
  fun same => same.trans (h same.symm)

end Setting

/-- A row of settings tells an invocation. -/
structure Tells (row : List Setting) (invocation : Invocation) : Prop where
  /-- Its settings stand in any order, none more often than it has them, and no others. -/
  drawn : row.Subperm invocation.settings
  /-- Only what holds anyway is left out. -/
  whole : ∀ setting ∈ invocation.settings, setting ∈ row ∨ setting.isStandard = true
  /-- All filters are there, and in their order. -/
  filters : row.filterMap Setting.filter? = invocation.command.filters

def commandLine (before : List Setting) (command : Command) (after : List Setting) : List String :=
  before.map Setting.word ++ command.verb.label :: (after.map Setting.word ++
    (command.collection?.map fun collection => ["--", collection]).getD [])

theorem nodup_choices (invocation : Invocation) :
    (invocation.choices.map Setting.switch).Nodup := by
  obtain ⟨format, config, command⟩ := invocation
  have ends : ((Setting.format format :: config.toList.map .config).map Setting.switch).Nodup := by
    cases config <;> simp [Setting.switch]
  cases command with
  | create collection materialized =>
    cases materialized <;> cases config <;>
      simp [Invocation.choices, Command.choices, Setting.switch]
  | compile collection tree =>
    cases tree <;> cases config <;> simp [Invocation.choices, Command.choices, Setting.switch]
  | find collection filters page =>
    cases sorted : page.sort <;> cases config <;>
      simp [Invocation.choices, Command.choices, Setting.switch, sorted]
  | _ => exact ends

theorem settings_compatible (invocation : Invocation) :
    invocation.settings.Pairwise Setting.Compatible := by
  refine List.pairwise_append.mpr ⟨?_, ?_, ?_⟩
  · rw [List.pairwise_map]
    exact List.pairwise_of_forall fun _ _ _ => rfl
  · exact (List.pairwise_map.mp (nodup_choices invocation)).imp fun differ same =>
      absurd same differ
  · intro filter listed other _ _
    obtain ⟨_, _, rfl⟩ := List.mem_map.mp listed
    rfl

theorem switch_mem_own {command : Command} {setting : Setting}
    (member : setting ∈ command.choices) :
    setting.switch ∈ command.verb.own := by
  cases command with
  | create collection materialized =>
    cases materialized with
    | false => cases member
    | true =>
      cases List.mem_singleton.mp member
      exact List.mem_singleton_self _
  | compile collection tree =>
    cases tree with
    | false => cases member
    | true =>
      cases List.mem_singleton.mp member
      exact List.mem_singleton_self _
  | find collection filters page =>
    simp only [Command.choices, List.mem_append, List.mem_cons, List.not_mem_nil,
      or_false, List.mem_map] at member
    rcases member with (rfl | rfl | rfl) | ⟨key, _, rfl⟩
    all_goals simp [Command.verb, Verb.own, Setting.switch]
  | _ => cases member

theorem isGlobal_of_mem_choices {command : Command} {setting : Setting}
    (member : setting ∈ command.choices) :
    setting.isGlobal = false := by
  have apart : ∀ verb : Verb, Switch.format ∉ verb.own ∧ Switch.config ∉ verb.own := by
    intro verb
    cases verb <;> decide
  have own := switch_mem_own member
  cases setting with
  | format chosen => exact absurd own (apart _).1
  | config path => exact absurd own (apart _).2
  | _ => rfl

theorem allows_of_mem_settings {invocation : Invocation} {setting : Setting}
    (member : setting ∈ invocation.settings) :
    allows (some invocation.command.verb) setting.switch = true := by
  obtain ⟨format, config, command⟩ := invocation
  simp only [Invocation.settings, Invocation.choices, List.mem_append,
    List.mem_cons, List.mem_map] at member
  rcases member with ⟨_, listed, rfl⟩ | own | rfl | ⟨path, _, rfl⟩
  · cases command with
    | find collection filters page => rfl
    | findOne collection filters => rfl
    | _ => cases listed
  · simp [allows, switch_mem_own own]
  · exact Setting.allows_of_isGlobal rfl _
  · exact Setting.allows_of_isGlobal rfl _

namespace Tells

variable {row : List Setting} {invocation : Invocation} {setting : Setting}

theorem mem_settings (h : Tells row invocation) (member : setting ∈ row) :
    setting ∈ invocation.settings :=
  h.drawn.subset member

theorem mem_iff (h : Tells row invocation) (needed : setting.isStandard = false) :
    setting ∈ row ↔ setting ∈ invocation.settings := by
  refine ⟨h.mem_settings, fun member => (h.whole setting member).resolve_right ?_⟩
  rw [needed]
  nofun

theorem compatible (h : Tells row invocation) : row.Pairwise Setting.Compatible := by
  obtain ⟨others, same, part⟩ := h.drawn
  exact (same.pairwise_iff Setting.Compatible.symm).mp
    ((settings_compatible invocation).sublist part)

/-- A place with a standard value holds the wanted one, given or not. -/
theorem getD_eq {α : Type} (h : Tells row invocation) (setting : α → Setting) {place : Option α}
    {wanted standard : α} (held : ∀ value, place = some value ↔ setting value ∈ row)
    (only : ∀ value, setting value ∈ invocation.settings ↔ value = wanted)
    (left : (setting wanted).isStandard = true → wanted = standard) :
    place.getD standard = wanted := by
  cases place with
  | none =>
    rcases h.whole (setting wanted) ((only wanted).mpr rfl) with member | holds
    · cases (held wanted).mpr member
    · exact (left holds).symm
  | some value => exact (only value).mp (h.mem_settings ((held value).mp rfl))

end Tells

namespace Given

theorem holds_ofSettings {row : List Setting} (apart : row.Pairwise Setting.Compatible)
    {setting : Setting} :
    (ofSettings row).Holds setting ↔ setting ∈ row := by
  have nothing : ¬ ({} : Given).Holds setting := by cases setting <;> nofun
  rw [ofSettings, holds_foldl (admits_empty apart)]
  exact or_iff_right nothing

theorem filters_ofSettings (row : List Setting) :
    (ofSettings row).filters = row.filterMap Setting.filter? :=
  filters_foldl {} row

theorem collection_ofSettings (row : List Setting) : (ofSettings row).collection = none :=
  collection_foldl {} row

end Given

section

variable {before after : List Setting} {invocation : Invocation}

theorem filterMap_global (wide : ∀ setting ∈ before, setting.isGlobal = true) :
    before.filterMap Setting.filter? = [] := by
  rw [List.filterMap_eq_nil_iff]
  intro setting member
  have global := wide setting member
  cases setting <;> first | rfl | cases global

theorem Tells.compatible_before (h : Tells (before ++ after) invocation) :
    before.Pairwise Setting.Compatible :=
  (List.pairwise_append.mp h.compatible).1

theorem Tells.compatible_after (h : Tells (before ++ after) invocation) :
    after.Pairwise Setting.Compatible :=
  (List.pairwise_append.mp h.compatible).2.1

/-- Only the words behind the command's name say what is not for every command. -/
theorem Tells.holds_after (h : Tells (before ++ after) invocation)
    (wide : ∀ setting ∈ before, setting.isGlobal = true) {setting : Setting}
    (narrow : setting.isGlobal = false) :
    (Given.ofSettings after).Holds setting ↔ setting ∈ before ++ after := by
  rw [Given.holds_ofSettings h.compatible_after, List.mem_append]
  refine (or_iff_right fun member => ?_).symm
  rw [wide setting member] at narrow
  cases narrow

theorem Tells.or_held {α : Type} (h : Tells (before ++ after) invocation) (setting : α → Setting)
    {front back : Option α}
    (heldFront : ∀ value, front = some value ↔ (Given.ofSettings before).Holds (setting value))
    (heldBack : ∀ value, back = some value ↔ (Given.ofSettings after).Holds (setting value))
    (single : ∀ one other, setting one ∈ invocation.settings →
      setting other ∈ invocation.settings → one = other)
    (value : α) : back.or front = some value ↔ setting value ∈ before ++ after := by
  simp only [Given.holds_ofSettings h.compatible_before] at heldFront
  simp only [Given.holds_ofSettings h.compatible_after] at heldBack
  rw [Option.or_eq_some_iff, List.mem_append, heldFront, heldBack]
  constructor
  · rintro (given | ⟨_, given⟩)
    · exact .inr given
    · exact .inl given
  · rintro (given | given)
    -- What stands behind the command's name wins, but a setting is never on both sides of it.
    · cases found : back with
      | none => exact .inr ⟨rfl, given⟩
      | some other =>
        have there := (heldBack other).mp found
        have same := single other value (h.mem_settings (List.mem_append_right _ there))
          (h.mem_settings (List.mem_append_left _ given))
        exact .inl (same ▸ there)
    · exact .inl given

end

/-! What each place holds after a command line is read. -/

section

variable {before after : List Setting} {invocation : Invocation}

theorem format_mem_settings {chosen : Format} :
    .format chosen ∈ invocation.settings ↔ chosen = invocation.format := by
  have outside : .format chosen ∉ invocation.command.choices :=
    fun member => nomatch isGlobal_of_mem_choices member
  simp [Invocation.settings, Invocation.choices, outside]

theorem config_mem_settings {path : String} :
    .config path ∈ invocation.settings ↔ invocation.config = some path := by
  have outside : .config path ∉ invocation.command.choices :=
    fun member => nomatch isGlobal_of_mem_choices member
  simp [Invocation.settings, Invocation.choices, outside]

theorem mem_settings_of_narrow {setting : Setting} (narrow : setting.isGlobal = false)
    (single : setting.filter? = none) :
    setting ∈ invocation.settings ↔ setting ∈ invocation.command.choices := by
  cases setting <;> cases narrow <;> cases single <;> simp [Invocation.settings, Invocation.choices]

theorem Tells.invocation_eq (h : Tells (before ++ after) invocation) (held : Option String) :
    Arguments.invocation (Given.ofSettings before)
      { Given.ofSettings after with collection := held } invocation.command = invocation := by
  have format : ((Given.ofSettings after).format.or (Given.ofSettings before).format).getD .table =
      invocation.format := by
    apply h.getD_eq .format
    · exact h.or_held .format (fun _ => .rfl) (fun _ => .rfl) fun _ _ one other =>
        (format_mem_settings.mp one).trans (format_mem_settings.mp other).symm
    · exact fun _ => format_mem_settings
    · exact of_decide_eq_true
  have config : (Given.ofSettings after).config.or (Given.ofSettings before).config =
      invocation.config := by
    ext path
    rw [h.or_held .config (fun _ => .rfl) (fun _ => .rfl), h.mem_iff rfl, config_mem_settings]
    intro _ _ one other
    exact Option.some.inj ((config_mem_settings.mp one).symm.trans (config_mem_settings.mp other))
  obtain ⟨_, _, _⟩ := invocation
  exact congrArg₂ (Invocation.mk · · _) format config

theorem Tells.filters_after (h : Tells (before ++ after) invocation)
    (wide : ∀ setting ∈ before, setting.isGlobal = true) :
    (Given.ofSettings after).filters = invocation.command.filters := by
  rw [Given.filters_ofSettings, ← h.filters, List.filterMap_append,
    filterMap_global wide, List.nil_append]

theorem Tells.holds_iff_mem_choices (h : Tells (before ++ after) invocation)
    (wide : ∀ setting ∈ before, setting.isGlobal = true) (setting : Setting)
    (narrow : setting.isGlobal = false) (single : setting.filter? = none)
    (needed : setting.isStandard = false) :
    (Given.ofSettings after).Holds setting ↔ setting ∈ invocation.command.choices := by
  rw [h.holds_after wide narrow, h.mem_iff needed, mem_settings_of_narrow narrow single]

theorem Tells.getD_after {α : Type} (h : Tells (before ++ after) invocation)
    (wide : ∀ setting ∈ before, setting.isGlobal = true) (setting : α → Setting) {place : Option α}
    {wanted standard : α}
    (held : ∀ value, place = some value ↔ (Given.ofSettings after).Holds (setting value))
    (narrow : ∀ value, (setting value).isGlobal = false)
    (single : ∀ value, (setting value).filter? = none)
    (only : ∀ value, setting value ∈ invocation.command.choices ↔ value = wanted)
    (left : (setting wanted).isStandard = true → wanted = standard) :
    place.getD standard = wanted := by
  apply h.getD_eq setting _ _ left
  · exact fun value => (held value).trans (h.holds_after wide (narrow value))
  · exact fun value => (mem_settings_of_narrow (narrow value) (single value)).trans (only value)

theorem Tells.page_eq {format : Format} {config : Option String} {collection : String}
    {filters : List (String × String)} {page : Page}
    (h : Tells (before ++ after) ⟨format, config, .find collection filters page⟩)
    (wide : ∀ setting ∈ before, setting.isGlobal = true) :
    (⟨(Given.ofSettings after).limit.getD Page.standardLimit,
      (Given.ofSettings after).offset.getD 0, (Given.ofSettings after).sort,
      (Given.ofSettings after).order.getD .ascending⟩ : Page) = page := by
  have limit : (Given.ofSettings after).limit.getD Page.standardLimit = page.limit :=
    h.getD_after wide .limit (fun _ => .rfl) (fun _ => rfl) (fun _ => rfl)
      (by simp [Command.choices]) of_decide_eq_true
  have offset : (Given.ofSettings after).offset.getD 0 = page.offset :=
    h.getD_after wide .offset (fun _ => .rfl) (fun _ => rfl) (fun _ => rfl)
      (by simp [Command.choices]) of_decide_eq_true
  have order : (Given.ofSettings after).order.getD .ascending = page.order :=
    h.getD_after wide .order (fun _ => .rfl) (fun _ => rfl) (fun _ => rfl)
      (by simp [Command.choices]) of_decide_eq_true
  have sort : (Given.ofSettings after).sort = page.sort := by
    ext key
    have held := h.holds_iff_mem_choices wide (.sort key) rfl rfl rfl
    simpa [Given.Holds, Command.choices] using held
  rw [limit, offset, sort, order]

/-- What is given behind the command's name makes up the command. -/
theorem Tells.command_eq (h : Tells (before ++ after) invocation)
    (wide : ∀ setting ∈ before, setting.isGlobal = true) :
    command invocation.command.verb
      { Given.ofSettings after with collection := invocation.command.collection? } =
      .ok invocation.command := by
  obtain ⟨format, config, command⟩ := invocation
  have filters := h.filters_after wide
  cases command with
  | create collection materialized =>
    have held := h.holds_iff_mem_choices wide .materialized rfl rfl rfl
    have same : (Given.ofSettings after).materialized = materialized := by
      cases materialized <;> simpa [Given.Holds, Command.choices] using held
    exact congrArg (Except.ok <| Command.create collection ·) same
  | compile collection tree =>
    have held := h.holds_iff_mem_choices wide .tree rfl rfl rfl
    have same : (Given.ofSettings after).tree = tree := by
      cases tree <;> simpa [Given.Holds, Command.choices] using held
    exact congrArg (Except.ok <| Command.compile collection ·) same
  | find collection filters page =>
    exact congrArg₂ (Except.ok <| Command.find collection · ·) ‹_› (h.page_eq wide)
  | findOne collection filters => exact congrArg (Except.ok <| Command.findOne collection ·) ‹_›
  | _ => rfl

end

/-! The words of a command line, one part after the other. -/

theorem Verb.ofLabel?_label (verb : Verb) : Verb.ofLabel? verb.label = some verb := by
  cases verb <;> decide

theorem Verb.label_ne_help (verb : Verb) : verb.label ≠ "help" := by
  cases verb <;> decide

/-- No setting is mistaken for the name of a command. -/
theorem Setting.word_ne {text : String} (undashed : text.toList.head? ≠ some '-')
    (setting : Setting) :
    setting.word ≠ text := by
  rintro rfl
  exact undashed (by rw [setting.toList_word, List.head?_cons])

theorem Setting.ofLabel?_word (setting : Setting) : Verb.ofLabel? setting.word = none := by
  rw [Verb.ofLabel?, List.find?_eq_none]
  intro verb _ same
  have undashed : verb.label.toList.head? ≠ some '-' := by cases verb <;> decide
  exact setting.word_ne undashed (of_decide_eq_true same).symm

theorem beforeVerb_word {given : Given} {setting : Setting}
    (allowed : allows none setting.switch = true) (valid : setting.IsValid)
    (lacks : given.Lacks setting) (rest : List String) :
    beforeVerb { given := given } (setting.word :: rest) =
      beforeVerb { given := given.put setting } rest := by
  have other : setting.word ≠ "help" := setting.word_ne (by decide)
  have taken := Taken.take_word allowed valid lacks
  rw [beforeVerb]
  simp [Taken.awaits, other, setting.ofLabel?_word, taken]

theorem beforeVerb_row {given : Given} {row : List Setting}
    (fit : ∀ setting ∈ row, allows none setting.switch = true ∧ setting.IsValid)
    (admits : given.Admits row) (rest : List String) :
    beforeVerb { given := given } (row.map Setting.word ++ rest) =
      beforeVerb { given := row.foldl Given.put given } rest := by
  induction row generalizing given with
  | nil => rfl
  | cons setting others ih =>
    obtain ⟨⟨allowed, valid⟩, later⟩ := List.forall_mem_cons.mp fit
    rw [List.map_cons, List.cons_append, beforeVerb_word allowed valid admits.head]
    exact ih later admits.tail

theorem beforeVerb_label {given after : Given} {verb : Verb} {words : List String} {found : Command}
    (rest : afterVerb verb words = .ok (after, found)) :
    beforeVerb { given := given } (verb.label :: words) = .ok (invocation given after found) := by
  rw [beforeVerb]
  simp [Taken.awaits, verb.label_ne_help, verb.ofLabel?_label, rest, Taken.settle]
  rfl

theorem afterVerb_of_taken {verb : Verb} {words : List String} {given : Given} {trailing : Bool}
    {found : Command}
    (taken : words.foldlM (Taken.take (some verb)) {} =
      .ok { given := given, trailing := trailing })
    (made : command verb given = .ok found) : afterVerb verb words = .ok (given, found) := by
  rw [afterVerb, taken]
  show (command verb given >>= fun command => pure (given, command)) = _
  rw [made]
  rfl

theorem takesCollection_verb {command : Command} {collection : String}
    (named : command.collection? = some collection) :
    takesCollection (some command.verb) = true := by
  cases command <;> first | rfl | cases named

/-- Behind a double dash any word is the collection. -/
theorem take_collection {verb : Verb} (named : takesCollection (some verb) = true)
    {words : List String} {given : Given}
    (taken : words.foldlM (Taken.take (some verb)) {} = .ok { given := given })
    (free : given.collection = none) (collection : String) :
    (words ++ ["--", collection]).foldlM (Taken.take (some verb)) {} =
      .ok { given := { given with collection := some collection }, trailing := true } := by
  have dashed : Taken.take (some verb) { given := given } "--" =
    .ok { given := given, trailing := true } := by
    simp [Taken.take]
  have named : Taken.take (some verb) { given := given, trailing := true } collection =
      .ok { given := { given with collection := some collection }, trailing := true } := by
    simp [Taken.take, Taken.word, named, free, Taken.settle]
  rw [List.foldlM_append, taken]
  show (Taken.take (some verb) { given := given } "--" >>=
    [collection].foldlM (Taken.take (some verb))) = _
  rw [dashed]
  show (Taken.take (some verb) { given := given, trailing := true } collection >>= pure) = _
  rw [named]
  rfl

theorem afterVerb_words {before after : List Setting} {invocation : Invocation}
    (valid : ∀ setting ∈ invocation.settings, setting.IsValid)
    (h : Tells (before ++ after) invocation) (wide : ∀ setting ∈ before, setting.isGlobal = true) :
    afterVerb invocation.command.verb (after.map Setting.word ++
        (invocation.command.collection?.map fun collection => ["--", collection]).getD []) =
      .ok ({ Given.ofSettings after with collection := invocation.command.collection? },
        invocation.command) := by
  have fit : ∀ setting ∈ after, allows (some invocation.command.verb) setting.switch = true ∧
      setting.IsValid := by
    intro setting member
    have inside := h.mem_settings (List.mem_append_right _ member)
    exact ⟨allows_of_mem_settings inside, valid setting inside⟩
  have taken : (after.map Setting.word).foldlM (Taken.take (some invocation.command.verb)) {} =
      .ok { given := Given.ofSettings after } :=
        Taken.take_row fit (Given.admits_empty h.compatible_after)
  have free := Given.collection_ofSettings after
  have made := h.command_eq wide
  cases named : invocation.command.collection? with
  | none =>
    have unnamed : { Given.ofSettings after with collection := none } = Given.ofSettings after := by
      rw [← free]
    rw [named, unnamed] at made
    rw [unnamed, Option.map_none, Option.getD_none, List.append_nil]
    exact afterVerb_of_taken taken made
  | some collection =>
    rw [named] at made
    exact afterVerb_of_taken (take_collection (takesCollection_verb named) taken free collection)
      made

/-- A command line is read back as the invocation that it was written from, whatever the order of
its settings, on whichever side of the command's name format and configuration stand, and whether or
not it says what holds anyway. -/
theorem command_lines_read_back {invocation : Invocation}
    (valid : ∀ setting ∈ invocation.settings, setting.IsValid) {before after : List Setting}
    (wide : ∀ setting ∈ before, setting.isGlobal = true)
    (tells : Tells (before ++ after) invocation) :
    parse (commandLine before invocation.command after) = .ok invocation := by
  have fit : ∀ setting ∈ before, allows none setting.switch = true ∧ setting.IsValid := by
    intro setting member
    have inside := tells.mem_settings (List.mem_append_left _ member)
    exact ⟨setting.allows_of_isGlobal (wide setting member) none, valid setting inside⟩
  rw [parse, commandLine, beforeVerb_row fit (Given.admits_empty tells.compatible_before),
    beforeVerb_label (afterVerb_words valid tells wide)]
  exact congrArg Except.ok (tells.invocation_eq _)

/-- A request whose texts look like options, and which says neither its offset nor its order. -/
def hostileFind : Invocation :=
  ⟨.json, some "--format=x",
    .find "--limit=3" [("a", "=b"), ("-w", ""), ("a", "--")] ⟨7, 0, some "", .ascending⟩⟩

theorem command_lines_read_back_hostile :
    parse ["--config=--format=x", "find", "--where=a==b", "--sort=", "--where=-w=", "--limit=7",
      "--format=json", "--where=a=--", "--", "--limit=3"] = .ok hostileFind := by
  have valid : ∀ setting ∈ hostileFind.settings, setting.IsValid := by
    simp [hostileFind, Invocation.settings, Invocation.choices, Command.filters,
      Command.choices, Setting.IsValid]
  have tells : Tells ([.config "--format=x"] ++ [.filter "a" "=b", .sort "", .filter "-w" "",
      .limit 7, .format .json, .filter "a" "--"]) hostileFind :=
    ⟨by decide, by decide, by decide⟩
  exact command_lines_read_back valid (by decide) tells

end Arguments

end DocumentViews
