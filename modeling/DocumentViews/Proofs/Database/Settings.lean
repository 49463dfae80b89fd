import DocumentViews.Database.Connection
import DocumentViews.Database.Settings

/-! Which settings survive their connection text.
Settings are written one after the other as they are, with no quotes around a value and no mark
before a special character. A reader spends at least one character on each that it gives back, one
on each equals sign and one between two pairs. The written text has no character more than that, so
it is read back only if no value costs anything extra: none is empty, holds a blank or a backslash,
or opens with a quote. -/
namespace DocumentViews

namespace Settings

/-- A value that stands for itself without quotes. -/
def Bare (value : String) : Prop :=
  value ≠ "" ∧ value.toList.head? ≠ some '\'' ∧ ∀ c ∈ value.toList,
    Text.isBlank c = false ∧ c ≠ '\\'

instance (value : String) : Decidable (Bare value) :=
  decidable_of_iff (value ≠ "" ∧ value.toList.head? ≠ some '\'' ∧
    value.toList.all (fun c => !Text.isBlank c && c != '\\') = true) (by simp [Bare])

def written (settings : List (String × String)) : String :=
  " ".intercalate (settings.map fun entry => entry.1 ++ "=" ++ entry.2)

theorem written_cons (entry next : String × String) (rest : List (String × String)) :
    (written (entry :: next :: rest)).toList =
      entry.1.toList ++ '=' :: (entry.2.toList ++ ' ' :: (written (next :: rest)).toList) := by
  simp [written, String.intercalate_cons_cons]

theorem written_single (entry : String × String) :
    (written [entry]).toList = entry.1.toList ++ '=' :: entry.2.toList := by
  simp [written]

/-! What is written is read back. -/

def Stops (text : List Char) : Prop := ∀ c ∈ text.head?, Text.isBlank c = true

theorem bareValue_append {value after : List Char}
    (plain : ∀ c ∈ value, Text.isBlank c = false ∧ c ≠ '\\') (stops : Stops after) :
    bareValue (value ++ after) = (value, after) := by
  induction value with
  | nil =>
    cases after with
    | nil => rfl
    | cons c rest =>
      have blank : Text.isBlank c = true := stops c rfl
      cases rest <;> simp [bareValue, blank]
  | cons c rest ih =>
    obtain ⟨solid, unescaped⟩ := plain c List.mem_cons_self
    have below := ih fun d member => plain d (List.mem_cons_of_mem _ member)
    cases joined : rest ++ after with
    | nil =>
      obtain ⟨rfl, rfl⟩ := List.append_eq_nil_iff.mp joined
      simp [bareValue, solid, unescaped]
    | cons d others =>
      rw [joined] at below
      simp [bareValue, solid, unescaped, joined, below]

theorem skipBlanks_of_solid {text : List Char} (solid : ∀ c ∈ text.head?, Text.isBlank c = false) :
    skipBlanks text = text := by
  cases text with
  | nil => rfl
  | cons c rest => exact List.dropWhile_cons_of_neg (by simp [solid c rfl])

theorem value_append {value : String} (bare : Bare value) {after : List Char}
    (stops : Stops after) :
    Settings.value (value.toList ++ after) = some (value.toList, after) := by
  obtain ⟨filled, unquoted, plain⟩ := bare
  have read := bareValue_append plain stops
  cases chars : value.toList with
  | nil => exact absurd (String.toList_eq_nil_iff.mp chars) filled
  | cons c rest =>
    have other : c ≠ '\'' := fun same => unquoted (by simp [chars, same])
    rw [chars] at read
    simp only [List.cons_append] at read ⊢
    simp [Settings.value, other, read]

/-- A keyword that is read to its end. -/
def Keyword (keyword : String) : Prop := keyword ≠ "" ∧ ∀ c ∈ keyword.toList, inKeyword c = true

instance (keyword : String) : Decidable (Keyword keyword) :=
  decidable_of_iff (keyword ≠ "" ∧ keyword.toList.all inKeyword = true) (by simp [Keyword])

theorem pair_append {entry : String × String} (keyword : Keyword entry.1) (bare : Bare entry.2)
    {after : List Char} (stops : Stops after) :
    pair (entry.1.toList ++ '=' :: (entry.2.toList ++ after)) = some (entry, after) := by
  have equals : inKeyword '=' = false := by decide
  have taken : (entry.1.toList ++ '=' :: (entry.2.toList ++ after)).takeWhile inKeyword =
      entry.1.toList := by
    rw [List.takeWhile_append_of_pos keyword.2,
      List.takeWhile_cons_of_neg (by simp [equals]), List.append_nil]
  have left : (entry.1.toList ++ '=' :: (entry.2.toList ++ after)).dropWhile inKeyword =
      '=' :: (entry.2.toList ++ after) := by
    rw [List.dropWhile_append_of_pos keyword.2, List.dropWhile_cons_of_neg (by simp [equals])]
  have solid : skipBlanks (entry.2.toList ++ after) = entry.2.toList ++ after := by
    apply skipBlanks_of_solid
    intro c head
    cases chars : entry.2.toList with
    | nil => exact absurd (String.toList_eq_nil_iff.mp chars) bare.1
    | cons d rest =>
      rw [chars] at head
      cases head
      exact (bare.2.2 c (by simp [chars])).1
  have found : afterEquals ('=' :: (entry.2.toList ++ after)) = some (entry.2.toList ++ after) := by
    have opened : skipBlanks ('=' :: (entry.2.toList ++ after)) = '=' ::
        (entry.2.toList ++ after) :=
      skipBlanks_of_solid fun c head => by cases head; decide
    simp only [afterEquals, opened, solid]
  simp only [pair, left, found, value_append bare stops, taken, String.ofList_toList]

/-- What a reader that succeeds has found: nothing, or one pair and then those after it. -/
theorem pairs_cases {text : List Char} {found : List (String × String)}
    (h : pairs text = some found) :
    found = [] ∨ ∃ first others after, pair (skipBlanks text) = some (first, after) ∧
      pairs after = some others ∧ found = first :: others := by
  rw [pairs] at h
  split at h
  · exact .inl (Option.some.inj h).symm
  · rename_i c rest start
    split at h
    · split at h
      · cases h
      · rename_i first after read
        obtain ⟨others, later, rfl⟩ := Option.map_eq_some_iff.mp h
        exact .inr ⟨first, others, after, start ▸ read, later, rfl⟩
    · exact .inl (Option.some.inj h).symm

theorem pairs_of_pair {text rest after : List Char} {c : Char} {found : String × String}
    (start : skipBlanks text = c :: rest) (keyword : inKeyword c = true)
    (step : pair (c :: rest) = some (found, after)) :
    pairs text = (pairs after).map (found :: ·) := by
  rw [pairs]
  split
  · rename_i none
    cases start.symm.trans none
  · rename_i d others starts
    cases start.symm.trans starts
    rw [dif_pos keyword]
    split
    · rename_i failed
      cases step.symm.trans failed
    · rename_i other later read
      cases step.symm.trans read
      rfl

theorem pairs_append {entry : String × String} (keyword : Keyword entry.1) (bare : Bare entry.2)
    {text after : List Char}
    (start : skipBlanks text = entry.1.toList ++ '=' :: (entry.2.toList ++ after))
    (stops : Stops after) : pairs text = (pairs after).map (entry :: ·) := by
  have read := pair_append keyword bare stops
  cases chars : entry.1.toList with
  | nil => exact absurd (String.toList_eq_nil_iff.mp chars) keyword.1
  | cons c rest =>
    have opens : inKeyword c = true := keyword.2 c (by simp [chars])
    rw [chars] at read start
    exact pairs_of_pair start opens read

theorem skipBlanks_written {settings : List (String × String)}
    (each : ∀ entry ∈ settings, Keyword entry.1) :
    skipBlanks (written settings).toList = (written settings).toList := by
  have opens (entry : String × String) (keyword : Keyword entry.1) (after : List Char) :
      skipBlanks (entry.1.toList ++ after) = entry.1.toList ++ after := by
    cases chars : entry.1.toList with
    | nil => exact absurd (String.toList_eq_nil_iff.mp chars) keyword.1
    | cons c rest =>
      have first : inKeyword c = true := keyword.2 c (by simp [chars])
      apply skipBlanks_of_solid
      rintro d head
      cases head
      simpa using (Bool.and_eq_true_iff.mp first).1
  match settings with
  | [] => decide
  | [entry] => rw [written_single, opens entry (each entry List.mem_cons_self)]
  | entry :: next :: rest => rw [written_cons, opens entry (each entry List.mem_cons_self)]

theorem pairs_written {settings : List (String × String)}
    (each : ∀ entry ∈ settings, Keyword entry.1 ∧ Bare entry.2) {text : List Char}
    (start : skipBlanks text = (written settings).toList) : pairs text = some settings := by
  induction settings generalizing text with
  | nil =>
    rw [pairs]
    split
    · rfl
    · rename_i filled
      cases start.symm.trans filled
  | cons entry rest ih =>
    obtain ⟨keyword, bare⟩ := each entry List.mem_cons_self
    have others : ∀ entry ∈ rest, Keyword entry.1 ∧ Bare entry.2 :=
      fun other member => each other (List.mem_cons_of_mem _ member)
    cases rest with
    | nil =>
      rw [written_single, ← List.append_nil entry.2.toList] at start
      have nothing : Stops [] := fun _ head => by cases head
      rw [pairs_append keyword bare start nothing, ih others rfl]
      rfl
    | cons next more =>
      have blank : Stops (' ' :: (written (next :: more)).toList) := fun c head => by
        cases head; decide
      have skipped : skipBlanks (' ' :: (written (next :: more)).toList) =
          (written (next :: more)).toList :=
        (List.dropWhile_cons_of_pos (by decide)).trans (skipBlanks_written fun entry member =>
          (others entry member).1)
      rw [written_cons] at start
      rw [pairs_append keyword bare start blank, ih others skipped]
      rfl

/-! What reading costs. -/

theorem length_quotedValue_lt {text : List Char} {found : List Char × List Char}
    (h : quotedValue text = some found) : found.1.length + found.2.length < text.length := by
  fun_induction quotedValue text generalizing found <;> grind [Option.map_eq_some_iff]

/-- Each character of a bare value costs one, and a second one if it is escaped. -/
theorem bareValue_cost (text : List Char) :
    (bareValue text).1.length + (bareValue text).2.length ≤ text.length ∧ Stops (bareValue text).2 ∧
      ((bareValue text).1.length + (bareValue text).2.length = text.length →
        (bareValue text).1 ++ (bareValue text).2 = text ∧
          ∀ c ∈ (bareValue text).1, Text.isBlank c = false ∧ c ≠ '\\') := by
  fun_induction bareValue text <;> grind [Stops]

theorem value_cost {text : List Char} {found : List Char × List Char}
    (h : Settings.value text = some found) :
    found.1.length + found.2.length + 2 ≤ text.length ∨
      found.1.length + found.2.length ≤ text.length ∧ Stops found.2 ∧
        (found.1.length + found.2.length = text.length → Bare (String.ofList found.1)) := by
  cases text with
  | nil => cases h
  | cons c rest =>
    rw [Settings.value] at h
    split at h
    · have shorter := length_quotedValue_lt h
      simp only [List.length_cons]
      omega
    · rename_i unquoted
      obtain ⟨spent, stops, plain⟩ := bareValue_cost (c :: rest)
      dsimp only at h
      split at h
      · cases h
      · rename_i filled
        cases Option.some.inj h
        refine .inr ⟨spent, stops, fun tight => ?_⟩
        obtain ⟨whole, each⟩ := plain tight
        cases chars : (bareValue (c :: rest)).1 with
        | nil => simp [chars] at filled
        | cons d more =>
          rw [chars] at whole each
          obtain ⟨rfl, _⟩ := List.cons.inj whole
          exact ⟨by simp, by simpa using unquoted, by simpa using each⟩

theorem afterEquals_cost {text rest : List Char} (h : afterEquals text = some rest) :
    rest.length + 1 ≤ text.length := by
  have outer := length_skipBlanks text
  unfold afterEquals at h
  split at h
  · rename_i inner found
    cases h
    have later := length_skipBlanks inner
    rw [found, List.length_cons] at outer
    omega
  · cases h

theorem pair_cost {text after : List Char} {entry : String × String}
    (h : pair text = some (entry, after)) :
    entry.1.length + entry.2.length + after.length + 3 ≤ text.length ∨
      entry.1.length + entry.2.length + after.length + 1 ≤ text.length ∧ Stops after ∧
        (entry.1.length + entry.2.length + after.length + 1 = text.length → Bare entry.2) := by
  have parted : text.length = (text.takeWhile inKeyword).length +
      (text.dropWhile inKeyword).length := by
    rw [← List.length_append, List.takeWhile_append_dropWhile]
  unfold pair at h
  split at h
  · cases h
  · rename_i rest equals
    split at h
    · cases h
    · rename_i found later read
      cases h
      have sign := afterEquals_cost equals
      simp only [String.length_ofList]
      rcases value_cost read with quoted | ⟨spent, stops, bare⟩
      · dsimp only at quoted
        omega
      · dsimp only at spent bare
        refine .inr ⟨by omega, stops, fun tight => bare (by omega)⟩

/-- What settings cost at least: their characters, an equals sign each, and one more each to
keep them apart. -/
def cost : List (String × String) → Nat
  | [] => 0
  | entry :: rest => entry.1.length + entry.2.length + 2 + cost rest

theorem length_written {settings : List (String × String)} (some : settings ≠ []) :
    (written settings).toList.length + 1 = cost settings := by
  induction settings with
  | nil => exact absurd rfl some
  | cons entry rest ih =>
    cases rest with
    | nil =>
      simp [written_single, cost, String.length_toList]
      omega
    | cons next others =>
      have below := ih (List.cons_ne_nil _ _)
      rw [written_cons, cost, ← below]
      simp [String.length_toList]
      omega

theorem eq_nil_of_cost {settings : List (String × String)} (cheap : cost settings ≤ 1) :
    settings = [] := by
  cases settings with
  | nil => rfl
  | cons entry rest =>
    simp only [cost] at cheap
    omega

/-- The blank at which a value stops is not read again. -/
theorem Stops.skipped {text : List Char} (stops : Stops text) (filled : text ≠ []) :
    (skipBlanks text).length + 1 ≤ text.length := by
  cases text with
  | nil => exact absurd rfl filled
  | cons c rest =>
    have shorter := length_skipBlanks rest
    rw [skipBlanks, List.dropWhile_cons_of_pos (stops c rfl), ← skipBlanks, List.length_cons]
    omega

/-- Pairs cost no more than the text that they are read from, and as much only if all their
values are bare. -/
theorem cost_le {text : List Char} {found : List (String × String)} (h : pairs text = some found) :
    cost found ≤ (skipBlanks text).length + 1 ∧
      (cost found = (skipBlanks text).length + 1 → ∀ entry ∈ found, Bare entry.2) := by
  induction found generalizing text with
  | nil => simp [cost]
  | cons entry others ih =>
    obtain empty | ⟨_, _, after, read, later, same⟩ := pairs_cases h
    · cases empty
    cases same
    obtain ⟨below, bareBelow⟩ := ih later
    have total : cost (entry :: others) = entry.1.length + entry.2.length + 2 + cost others := rfl
    have shorter := length_skipBlanks after
    rcases pair_cost read with quoted | ⟨spent, stops, bare⟩
    · constructor
      · omega
      · intro tight
        omega
    · by_cases last : after = []
      · subst last
        cases eq_nil_of_cost below
        have nothing : cost [] = 0 := rfl
        refine ⟨by omega, fun tight => List.forall_mem_singleton.mpr (bare ?_)⟩
        simp only [List.length_nil]
        omega
      · have blank := stops.skipped last
        refine ⟨by omega, fun tight => ?_⟩
        exact List.forall_mem_cons.mpr ⟨bare (by omega), bareBelow (by omega)⟩

/-- Settings are read back from the text that they are written as if and only if all their
values are bare. -/
theorem pairs_written_iff {settings : List (String × String)}
    (keywords : ∀ entry ∈ settings, Keyword entry.1) :
    pairs (written settings).toList = some settings ↔ ∀ entry ∈ settings, Bare entry.2 := by
  constructor
  · intro read
    by_cases some : settings = []
    · simp [some]
    · have least := cost_le read
      have length := length_written some
      rw [skipBlanks_written keywords] at least
      exact least.2 length.symm
  · intro bare
    exact pairs_written (fun entry member => ⟨keywords entry member, bare entry member⟩)
      (skipBlanks_written keywords)

theorem bare_digits (n : Nat) : Bare (String.ofList (Nat.toDigits 10 n)) := by
  have solid : ∀ c ∈ Nat.toDigits 10 n, Text.isBlank c = false ∧ c ≠ '\\' ∧ c ≠ '\'' := by
    intro c member
    have digit : c.isDigit = true := Nat.isDigit_of_mem_toDigits (by decide) (by decide) member
    have low : 48 ≤ c.toNat ∧ c.toNat ≤ 57 := by
      simpa [Char.isDigit, UInt32.le_iff_toNat_le] using digit
    refine ⟨?_, ?_, ?_⟩
    · simp [Text.isBlank, Text.blankRanges]
      omega
    · rintro rfl
      exact absurd low (by decide)
    · rintro rfl
      exact absurd low (by decide)
  refine ⟨?_, ?_, ?_⟩
  · simp [Nat.toDigits_ne_nil]
  · rw [String.toList_ofList]
    intro head
    exact (solid _ (List.mem_of_mem_head? head)).2.2 rfl
  · rw [String.toList_ofList]
    exact fun c member => ⟨(solid c member).1, (solid c member).2.1⟩

end Settings

namespace Connection

open Settings (Bare Keyword pairs written)

def settings (connection : Connection) : List (String × String) :=
  [("host", connection.host),
   ("port", some (String.ofList (Nat.toDigits 10 connection.port.toNat))),
   ("user", connection.user),
   ("dbname", connection.database),
   ("password", connection.password)].filterMap fun entry => entry.2.map (entry.1, ·)

theorem settings_keywords (connection : Connection) :
    ∀ entry ∈ connection.settings, Keyword entry.1 := by
  have all : ∀ keyword ∈ ["host", "port", "user", "dbname", "password"], Keyword keyword := by
    decide
  intro entry member
  obtain ⟨place, listed, given⟩ := List.mem_filterMap.mp member
  obtain ⟨value, _, rfl⟩ := Option.map_eq_some_iff.mp given
  exact all place.1 (List.mem_map_of_mem (f := Prod.fst) listed)

theorem render_eq {connection : Connection} {host : String} (single : connection.text = none)
    (hosted : connection.host = some host) :
    connection.render = .ok (written connection.settings) := by
  unfold render settings
  rw [single, hosted]
  cases connection.user <;> cases connection.database <;> cases connection.password <;> rfl

/-- Settings without a ready connection text are rendered, and the text is read back as
exactly these settings if and only if host, user, database and password are bare as far as
they are given. -/
theorem settings_survive_iff_bare (connection : Connection) (host : String)
    (single : connection.text = none) (hosted : connection.host = some host) :
    ∃ text, connection.render = .ok text ∧
      (pairs text.toList = some connection.settings ↔
        ∀ value ∈ [connection.host, connection.user, connection.database, connection.password],
          ∀ given ∈ value, Bare given) := by
  refine ⟨_, render_eq single hosted, ?_⟩
  rw [Settings.pairs_written_iff connection.settings_keywords]
  have port := Settings.bare_digits connection.port.toNat
  simp [settings, List.mem_filterMap, or_imp, forall_and, port]

def localUser (user password : String) : Connection :=
  ⟨none, some "localhost", standardPort, some user, none, some password, false⟩

/-- A quote does no harm inside of a value, and neither does an equals sign. -/
theorem settings_survive_inner_quote :
    (localUser "o'neil" "a=b'").text = none ∧ (localUser "o'neil" "a=b'").host = some "localhost" ∧
      ∃ text, (localUser "o'neil" "a=b'").render = .ok text ∧
        pairs text.toList =
          some [("host", "localhost"), ("port", "5432"),
            ("user", "o'neil"), ("password", "a=b'")] := by
  obtain ⟨text, rendered, survive⟩ :=
    settings_survive_iff_bare (localUser "o'neil" "a=b'") "localhost" rfl rfl
  have same : (localUser "o'neil" "a=b'").settings =
      [("host", "localhost"), ("port", "5432"), ("user", "o'neil"), ("password", "a=b'")] := by
        decide +kernel
  refine ⟨rfl, rfl, text, rendered, ?_⟩
  rw [← same]
  exact survive.mpr (by decide)

/-- A password with a blank in it adds a setting of its own. -/
theorem password_adds_setting :
    ∃ text, (localUser "me" "pw host=elsewhere").render = .ok text ∧
      pairs text.toList = some [("host", "localhost"), ("port", "5432"), ("user", "me"),
        ("password", "pw"), ("host", "elsewhere")] ∧
      (localUser "me" "pw host=elsewhere").settings =
        [("host", "localhost"), ("port", "5432"), ("user", "me"),
          ("password", "pw host=elsewhere")] := by
  have same : written (localUser "me" "pw host=elsewhere").settings =
      written [("host", "localhost"), ("port", "5432"), ("user", "me"), ("password", "pw"),
        ("host", "elsewhere")] := by
    decide +kernel
  refine ⟨_, render_eq rfl rfl, ?_, by decide +kernel⟩
  rw [same]
  have each :
      ∀ entry ∈ [("host", "localhost"), ("port", "5432"), ("user", "me"), ("password", "pw"),
        ("host", "elsewhere")], Keyword entry.1 ∧ Bare entry.2 := by
    decide
  exact Settings.pairs_written each (Settings.skipBlanks_written fun entry member =>
    (each entry member).1)

end Connection

end DocumentViews
