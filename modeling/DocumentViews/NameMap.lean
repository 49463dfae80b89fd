/-! Finite maps keyed by names, kept in the order of the names.
Names are ordered by code points. A map is its list of entries, strictly rising, so two maps
with the same entries are equal and walking a map needs no further sorting. -/
namespace DocumentViews

/-- A finite map from names to values, its entries in rising order of the names. -/
structure NameMap (α : Type) where
  entries : List (String × α)
  rising : entries.Pairwise (fun a b => a.1 < b.1)

namespace NameMap

variable {α β : Type}

/-- Puts an entry into a list of entries at its place; an entry of that name is replaced. -/
def insertEntry (name : String) (value : α) : List (String × α) → List (String × α)
  | [] => [(name, value)]
  | (other, kept) :: rest =>
    if name < other then (name, value) :: (other, kept) :: rest
    else if name = other then (name, value) :: rest
    else (other, kept) :: insertEntry name value rest

theorem mem_insertEntry {name : String} {value : α} {entry : String × α}
    {entries : List (String × α)} (h : entry ∈ insertEntry name value entries) :
    entry = (name, value) ∨ entry ∈ entries := by
  induction entries with
  | nil => exact Or.inl (by simpa [insertEntry] using h)
  | cons head rest ih =>
    obtain ⟨other, kept⟩ := head
    rw [insertEntry] at h
    split at h
    · exact List.mem_cons.mp h
    · split at h
      · exact (List.mem_cons.mp h).imp_right (List.mem_cons_of_mem _)
      · rcases List.mem_cons.mp h with here | there
        · exact Or.inr (here ▸ List.mem_cons_self)
        · exact (ih there).imp_right (List.mem_cons_of_mem _)

theorem insertEntry_rising (name : String) (value : α) {entries : List (String × α)}
    (h : entries.Pairwise (fun a b => a.1 < b.1)) :
    (insertEntry name value entries).Pairwise (fun a b => a.1 < b.1) := by
  induction entries with
  | nil => exact List.pairwise_singleton _ _
  | cons head rest ih =>
    obtain ⟨other, kept⟩ := head
    obtain ⟨below, later⟩ := List.pairwise_cons.mp h
    rw [insertEntry]
    split
    case isTrue before =>
      refine List.pairwise_cons.mpr ⟨fun entry member => ?_, h⟩
      rcases List.mem_cons.mp member with here | there
      · exact here ▸ before
      · exact String.lt_trans before (below entry there)
    case isFalse notBefore =>
      split
      case isTrue same =>
        exact List.pairwise_cons.mpr ⟨fun entry member => same ▸ below entry member, later⟩
      case isFalse different =>
        refine List.pairwise_cons.mpr ⟨fun entry member => ?_, ih later⟩
        rcases mem_insertEntry member with here | there
        · have upper : other ≤ name := String.not_lt.mp notBefore
          have strict : ¬ name ≤ other := fun lower => different (String.le_antisymm lower upper)
          exact here ▸ Decidable.of_not_not (fun no => strict (String.not_lt.mp no))
        · exact below entry there

def empty : NameMap α := ⟨[], List.Pairwise.nil⟩

instance : Inhabited (NameMap α) := ⟨empty⟩

def insert (map : NameMap α) (name : String) (value : α) : NameMap α :=
  ⟨insertEntry name value map.entries, insertEntry_rising name value map.rising⟩

def erase (map : NameMap α) (name : String) : NameMap α :=
  ⟨map.entries.filter (fun entry => entry.1 ≠ name), map.rising.filter _⟩

/-- A map from entries in any order; of two entries with one name the later one stays. -/
def ofList (entries : List (String × α)) : NameMap α :=
  entries.foldl (fun map entry => map.insert entry.1 entry.2) empty

def get? (map : NameMap α) (name : String) : Option α :=
  (map.entries.find? fun entry => entry.1 = name).map (·.2)

def contains (map : NameMap α) (name : String) : Bool :=
  (map.get? name).isSome

def keys (map : NameMap α) : List String :=
  map.entries.map (·.1)

end NameMap

end DocumentViews
