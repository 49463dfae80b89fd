import DocumentViews.NameMap

/-! Looking names up in maps.
A map built from entries gives for each name the value of the last entry of that name, and a map
rebuilt from its own entries is itself. Maps that look up alike are equal. -/
namespace DocumentViews.NameMap

variable {α β : Type}

theorem ext {map other : NameMap α} (same : map.entries = other.entries) : map = other := by
  cases map
  cases other
  cases same
  rfl

theorem find?_insertEntry (name other : String) (value : α) (entries : List (String × α)) :
    ((insertEntry name value entries).find? fun entry => entry.1 = other).map (·.2) =
      if other = name then some value
      else (entries.find? fun entry => entry.1 = other).map (·.2) := by
  induction entries with
  | nil =>
    by_cases same : other = name
    · simp [insertEntry, same]
    · simp [insertEntry, same, Ne.symm same]
  | cons head rest ih =>
    obtain ⟨key, kept⟩ := head
    rw [insertEntry]
    split
    · by_cases same : other = name
      · simp [same]
      · simp [same, Ne.symm same]
    · split
      · rename_i equal
        subst equal
        by_cases same : other = name
        · simp [same]
        · simp [same, Ne.symm same]
      · rename_i different
        by_cases here : key = other
        · subst here
          simp [Ne.symm different]
        · simpa [List.find?_cons, here] using ih

@[simp]
theorem get?_insert (map : NameMap α) (name other : String) (value : α) :
    (map.insert name value).get? other = if other = name then some value else map.get? other :=
  find?_insertEntry name other value map.entries

@[simp]
theorem get?_empty (name : String) : (empty : NameMap α).get? name = none := rfl

@[simp]
theorem get?_erase (map : NameMap α) (name other : String) :
    (map.erase name).get? other = if other = name then none else map.get? other := by
  simp only [get?, erase, List.find?_filter]
  split
  · rename_i same
    subst same
    simp
  · rename_i different
    congr 2
    funext entry
    by_cases here : entry.1 = other
    · simp [here, different]
    · simp [here]

theorem get?_foldl_insert (entries : List (String × α)) (map : NameMap α) (name : String) :
    (entries.foldl (fun map entry => map.insert entry.1 entry.2) map).get? name =
      ((entries.reverse.find? fun entry => entry.1 = name).map (·.2)).or (map.get? name) := by
  induction entries generalizing map with
  | nil => simp
  | cons entry rest ih =>
    rw [List.foldl_cons, ih, List.reverse_cons, List.find?_append, get?_insert]
    cases rest.reverse.find? fun entry => entry.1 = name with
    | some found => simp
    | none =>
      by_cases same : name = entry.1
      · simp [same]
      · simp [same, Ne.symm same]

/-- Of the entries of one name the last one stays. -/
theorem get?_ofList (entries : List (String × α)) (name : String) :
    (ofList entries).get? name = (entries.reverse.find? fun entry => entry.1 = name).map (·.2) := by
  rw [ofList, get?_foldl_insert]
  simp

theorem mem_entries_foldl {entries : List (String × α)} {map : NameMap α} {entry : String × α}
    (h : entry ∈ (entries.foldl (fun map entry => map.insert entry.1 entry.2) map).entries) :
    entry ∈ map.entries ∨ entry ∈ entries := by
  induction entries generalizing map with
  | nil => exact .inl h
  | cons first rest ih =>
    rcases ih h with kept | later
    · rcases mem_insertEntry kept with rfl | earlier
      · exact .inr List.mem_cons_self
      · exact .inl earlier
    · exact .inr (List.mem_cons_of_mem _ later)

theorem mem_of_mem_ofList {entries : List (String × α)} {entry : String × α}
    (h : entry ∈ (ofList entries).entries) : entry ∈ entries := by
  rcases mem_entries_foldl h with none | member
  · cases none
  · exact member

theorem length_keys (map : NameMap α) : map.keys.length = map.entries.length :=
  List.length_map _

theorem mem_keys_iff (map : NameMap α) (name : String) :
    name ∈ map.keys ↔ (map.get? name).isSome := by
  simp only [keys, get?, Option.isSome_map, List.find?_isSome, List.mem_map, decide_eq_true_eq]

theorem contains_of_mem {map : NameMap α} {entry : String × α} (h : entry ∈ map.entries) :
    map.contains entry.1 :=
  (map.mem_keys_iff entry.1).mp (List.mem_map_of_mem h)

theorem find?_of_mem {entries : List (String × α)} (rising : entries.Pairwise fun a b => a.1 < b.1)
    {entry : String × α} (member : entry ∈ entries) :
    (entries.find? fun other => other.1 = entry.1) = some entry := by
  induction entries with
  | nil => cases member
  | cons head rest ih =>
    obtain ⟨below, later⟩ := List.pairwise_cons.mp rising
    rcases List.mem_cons.mp member with rfl | there
    · simp
    · have different : head.1 ≠ entry.1 := fun same => String.lt_irrefl _ (same ▸ below entry there)
      simpa [List.find?_cons, different] using ih later there

theorem mem_entries_iff (map : NameMap α) (entry : String × α) :
    entry ∈ map.entries ↔ map.get? entry.1 = some entry.2 := by
  constructor
  · intro member
    rw [get?, find?_of_mem map.rising member]
    rfl
  · intro found
    obtain ⟨other, first, value⟩ := Option.map_eq_some_iff.mp found
    have name : other.1 = entry.1 := by simpa using List.find?_some first
    exact Prod.ext name value ▸ List.mem_of_find?_eq_some first

theorem ext_get? {map other : NameMap α} (same : ∀ name, map.get? name = other.get? name) :
    map = other := by
  have distinct (map : NameMap α) : map.entries.Nodup := by
    apply map.rising.imp
    rintro first _ before rfl
    exact String.lt_irrefl _ before
  apply ext
  apply List.Perm.eq_of_pairwise _ map.rising other.rising
  · rw [List.perm_ext_iff_of_nodup (distinct map) (distinct other)]
    intro entry
    rw [mem_entries_iff, mem_entries_iff, same]
  · intro first second _ _ before after
    exact absurd after (String.lt_asymm before)

theorem erase_of_absent {map : NameMap α} {name : String} (absent : map.get? name = none) :
    map.erase name = map := by
  apply ext_get?
  intro other
  rw [get?_erase]
  split
  · rename_i same
    rw [same, absent]
  · rfl

/-- It does not matter whether an entry is taken out before it is replaced. -/
theorem insert_erase (map : NameMap α) (name : String) (value : α) :
    (map.erase name).insert name value = map.insert name value := by
  apply ext_get?
  intro other
  by_cases same : other = name
  · simp [same]
  · simp [same]

theorem insertEntry_above {name : String} (value : α) {entries : List (String × α)}
    (above : ∀ entry ∈ entries, entry.1 < name) :
    insertEntry name value entries = entries ++ [(name, value)] := by
  induction entries with
  | nil => rfl
  | cons head rest ih =>
    obtain ⟨key, kept⟩ := head
    have larger : key < name := above (key, kept) List.mem_cons_self
    have later := ih fun entry member => above entry (List.mem_cons_of_mem _ member)
    have notBefore : ¬ name < key := String.lt_asymm larger
    have different : name ≠ key := fun same => String.lt_irrefl key (same ▸ larger)
    rw [insertEntry, if_neg notBefore, if_neg different, later]
    rfl

theorem entries_foldl_insert (entries : List (String × α)) (map : NameMap α)
    (rising : (map.entries ++ entries).Pairwise fun a b => a.1 < b.1) :
    (entries.foldl (fun map entry => map.insert entry.1 entry.2) map).entries =
      map.entries ++ entries := by
  induction entries generalizing map with
  | nil => simp
  | cons entry rest ih =>
    obtain ⟨_, _, across⟩ := List.pairwise_append.mp rising
    have placed : (map.insert entry.1 entry.2).entries = map.entries ++ [entry] :=
      insertEntry_above entry.2 fun other member => across other member entry List.mem_cons_self
    rw [List.foldl_cons, ih _ (by simpa [placed] using rising), placed]
    simp

theorem ofList_entries (map : NameMap α) : ofList map.entries = map :=
  ext (entries_foldl_insert map.entries empty (by simpa [empty] using map.rising))

theorem insertEntry_map (f : α → β) (name : String) (value : α) (entries : List (String × α)) :
    insertEntry name (f value) (entries.map fun entry => (entry.1, f entry.2)) =
      (insertEntry name value entries).map fun entry => (entry.1, f entry.2) := by
  induction entries with
  | nil => rfl
  | cons head rest ih =>
    obtain ⟨key, kept⟩ := head
    simp only [List.map_cons, insertEntry]
    split
    · rfl
    · split
      · rfl
      · rw [ih]
        rfl

theorem entries_foldl_map (f : α → β) (entries : List (String × α)) (map : NameMap α)
    (image : NameMap β) (same : image.entries = map.entries.map fun entry => (entry.1, f entry.2)) :
    ((entries.map fun entry => (entry.1, f entry.2)).foldl
        (fun map entry => map.insert entry.1 entry.2) image).entries =
      (entries.foldl (fun map entry => map.insert entry.1 entry.2) map).entries.map
        fun entry => (entry.1, f entry.2) := by
  induction entries generalizing map image with
  | nil => exact same
  | cons entry rest ih =>
    apply ih
    show insertEntry entry.1 (f entry.2) image.entries = _
    rw [same, insertEntry_map]
    rfl

/-- Values may be changed before or after the map is built. -/
theorem entries_ofList_map (f : α → β) (entries : List (String × α)) :
    (ofList (entries.map fun entry => (entry.1, f entry.2))).entries =
      (ofList entries).entries.map fun entry => (entry.1, f entry.2) :=
  entries_foldl_map f entries empty empty rfl

end DocumentViews.NameMap
