import DocumentViews.Schema.Format
import DocumentViews.Proofs.Json.Text

/-! Decoders read what is written.
One law for each way to put a decoder together: if the parts of a written value are read as
what they stand for, so is the whole. A record is written as an object with all of its
declared members. -/
namespace DocumentViews.Json

variable {α : Type}

/-- The value is written without doubles, and the decoder reads its text as the given meaning. -/
structure Decoder.Decodes (decode : Decoder α) (value : Json) (meaning : α) : Prop where
  plain : value.exact = true
  read : decode value.tree = some meaning

theorem value_toDigits (n : Nat) : Numeral.value (Nat.toDigits 10 n) = n := by
  have back := Nat.ofDigitChars_ten_toDigits (n := n)
  simpa [Numeral.value, Numeral.digitValue, Nat.ofDigitChars, Nat.mul_comm] using back

theorem exactItems_map {write : α → Json} {items : List α}
    (each : ∀ item ∈ items, (write item).exact = true) :
    exactItems (items.map write) = true := by
  induction items with
  | nil => rfl
  | cons item rest ih =>
    have later := ih fun other member => each other (.tail _ member)
    rw [List.map_cons, exactItems, each item (.head _), later]
    rfl

theorem exactMembers_of_forall {members : List (String × Json)}
    (each : ∀ member ∈ members, member.2.exact = true) :
    exactMembers members = true := by
  induction members with
  | nil => rfl
  | cons member rest ih =>
    have later := ih fun other held => each other (.tail _ held)
    rw [exactMembers, each member (.head _), later]
    rfl

namespace Decode

variable {decode : Decoder α}

theorem decodes_text (content : String) : Decoder.Decodes text (.string content) content :=
  ⟨rfl, literal?_encode content⟩

theorem decodes_bool (value : Bool) : Decoder.Decodes bool (.bool value) value := ⟨rfl, rfl⟩

theorem decodes_nat {n bound : Nat} (below : n < bound) :
    Decoder.Decodes (natBelow bound) (.nat n) n := by
  have written : numeral (.integer n) = ⟨false, Nat.toDigits 10 n, [], none⟩ := by
    simp [numeral, read_integer]
  refine ⟨rfl, ?_⟩
  show natBelow bound (.number (numeral (.integer n))) = some n
  simp [natBelow, written, Numeral.nat?, value_toDigits, below]

theorem decodes_list {write : α → Json} (items : List α)
    (each : ∀ item ∈ items, Decoder.Decodes decode (write item) item) :
    Decoder.Decodes (list decode) (.array (items.map write)) items := by
  refine ⟨exactItems_map fun item member => (each item member).plain, ?_⟩
  show Decode.each decode (itemTrees (items.map write)) = some items
  induction items with
  | nil => rfl
  | cons item rest ih =>
    have here := (each item (.head _)).read
    have later := ih fun other member => each other (.tail _ member)
    simp only [List.map_cons, itemTrees, Decode.each, here, later]

theorem decodes_texts (texts : List String) : Decoder.Decodes (list text) (.strings texts) texts :=
  decodes_list texts fun content _ => decodes_text content

theorem decodes_map {write : String × α → Json} (map : NameMap α)
    (each : ∀ entry ∈ map.entries, Decoder.Decodes decode (write entry) entry.2) :
    Decoder.Decodes (Decode.map decode)
      (.object (map.entries.map fun entry => (entry.1, write entry))) map := by
  have read : ∀ {entries : List (String × α)},
      (∀ entry ∈ entries, Decoder.Decodes decode (write entry) entry.2) →
      eachEntry decode (memberTrees (entries.map fun entry => (entry.1, write entry))) =
        some entries := by
    intro entries each
    induction entries with
    | nil => rfl
    | cons entry rest ih =>
      have here := (each entry (.head _)).read
      have later := ih fun other member => each other (.tail _ member)
      simp only [List.map_cons, memberTrees, eachEntry, literal?_encode, here, later]
  constructor
  · apply exactMembers_of_forall
    intro member held
    obtain ⟨entry, known, rfl⟩ := List.mem_map.mp held
    exact (each entry known).plain
  · show (eachEntry decode (memberTrees _)).map NameMap.ofList = some map
    rw [read each, Option.map_some, NameMap.ofList_entries]

/-- Null stands for none only where the decoder itself has no use for null. -/
theorem decodes_nullable {write : α → Json} (value : Option α) (refuses : decode .null = none)
    (each : ∀ content, value = some content → Decoder.Decodes decode (write content) content) :
    Decoder.Decodes (nullable decode) ((value.map write).getD .null) value := by
  cases value with
  | none => exact ⟨rfl, rfl⟩
  | some content =>
    obtain ⟨plain, read⟩ := each content rfl
    refine ⟨plain, ?_⟩
    show nullable decode (write content).tree = some (some content)
    unfold nullable
    split
    · rename_i null
      rw [null, refuses] at read
      cases read
    · rw [read]
      rfl

theorem decodes_optional (value : Option String) :
    Decoder.Decodes (nullable text) (.optional value) value := by
  have read := decodes_nullable value rfl fun content _ => decodes_text content
  cases value with
  | none => exact read
  | some content => exact read

theorem decodes_word {words : List (String × α)} {word : String} {value : α}
    (known : words.lookup word = some value) :
    Decoder.Decodes (oneOf words) (.string word) value := by
  refine ⟨rfl, ?_⟩
  show (literal? (Escape.encode word.toList)).bind (words.lookup ·) = some value
  rw [literal?_encode, Option.bind_some, known]

end Decode

namespace Record

attribute [simp] required withDefault optional

def written (members : List (String × Json)) : Record :=
  members.map fun member => (member.1, member.2.tree)

@[simp]
theorem lookup_written (name other : String) (value : Json) (rest : List (String × Json)) :
    (written ((name, value) :: rest)).lookup other =
      if other = name then some value.tree else (written rest).lookup other := by
  by_cases same : other = name
  · simp [written, same]
  · have apart : (other == name) = false := beq_eq_false_iff_ne.mpr same
    rw [written, List.map_cons, List.lookup_cons, apart, if_neg same]
    rfl

theorem ofMembers_written {declared : List String} {members : List (String × Json)}
    (known : ∀ member ∈ members, member.1 ∈ declared) (distinct : (members.map (·.1)).Nodup) :
    ofMembers declared (memberTrees members) = some (written members) := by
  induction members with
  | nil => rfl
  | cons member rest ih =>
    obtain ⟨name, value⟩ := member
    obtain ⟨fresh, apart⟩ := List.nodup_cons.mp distinct
    have later := ih (fun other held => known other (.tail _ held)) apart
    have declares : declared.contains name = true := List.contains_iff_mem.mpr (known _ (.head _))
    have once : ((written rest).lookup name).isSome = false := by
      rw [Option.isSome_eq_false_iff, Option.isNone_iff_eq_none, List.lookup_eq_none_iff]
      rintro ⟨other, _⟩ held
      obtain ⟨member, here, same⟩ := List.mem_map.mp held
      cases same
      rw [bne_iff_ne]
      intro same
      exact fresh (List.mem_map.mpr ⟨member, here, same.symm⟩)
    simp only [memberTrees, ofMembers, literal?_encode, later, declares, once, if_true,
      Bool.false_eq_true, if_false]
    rfl

/-- A record that is written with all of its members is read by what is read from them. -/
theorem decodes {decode : Decoder α} {declared : List String} {members : List (String × Json)}
    {build : Record → Option α} {meaning : α}
    (decodes : ∀ tree, decode tree = Record.read declared tree >>= build)
    (names : members.map (·.1) = declared) (distinct : declared.Nodup)
    (plain : ∀ member ∈ members, member.2.exact = true)
    (built : build (written members) = some meaning) :
    decode.Decodes (.object members) meaning := by
  refine ⟨exactMembers_of_forall plain, ?_⟩
  subst names
  have read : Record.read (members.map (·.1)) (Json.object members).tree = some (written members) :=
    ofMembers_written (fun member held => List.mem_map_of_mem held) distinct
  rw [decodes, read]
  exact built

end Record

/-- The text of a written value is read as what the value stands for. -/
theorem Decoder.Decodes.readText {decode : Decoder α} {value : Json} {meaning : α}
    (h : decode.Decodes value meaning) :
    decode.readText value.compact = .ok meaning := by
  rw [Decoder.readText, read_compact value h.plain]
  simp only [h.read]

end DocumentViews.Json
