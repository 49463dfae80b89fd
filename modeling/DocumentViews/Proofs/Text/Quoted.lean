import DocumentViews.Text.Quoted

/-! Quoted text is read back exactly.
The reader stops at the mark that closes the text and at no earlier one, however many marks the text
holds and wherever they stand. What follows must not open with a further mark, for that one would
still belong to the text. -/
namespace DocumentViews.Text.Quoted

theorem scanInside_doubled (mark c : Char) (after : List Char) :
    scanInside mark (doubled mark c ++ after) =
      (scanInside mark after).map fun found => (c :: found.1, found.2) := by
  unfold doubled
  split
  · rename_i same
    subst same
    simp [scanInside]
  · rename_i different
    cases after with
    | nil => simp [scanInside, different]
    | cons d rest => simp [scanInside, different]

theorem scanInside_closing {mark : Char} {after : List Char} (ends : after.head? ≠ some mark) :
    scanInside mark (mark :: after) = some ([], after) := by
  cases after with
  | nil => simp [scanInside]
  | cons d rest =>
    have different : d ≠ mark := fun same => ends (by simp [same])
    simp [scanInside, different]

theorem scanInside_encoded (mark : Char) (text : List Char) {after : List Char}
    (ends : after.head? ≠ some mark) :
    scanInside mark (text.flatMap (doubled mark) ++ mark :: after) = some (text, after) := by
  induction text with
  | nil => exact scanInside_closing ends
  | cons c rest ih =>
    rw [List.flatMap_cons, List.append_assoc, scanInside_doubled, ih]
    rfl

/-- A reader that succeeds leaves less than it got. -/
theorem length_scanInside {mark : Char} {text : List Char} {found : List Char × List Char}
    (h : scanInside mark text = some found) : found.2.length < text.length := by
  fun_induction scanInside mark text generalizing found with
  | case1 => cases h
  | case2 => cases Option.some.inj h; simp
  | case3 => cases h
  | case4 r ih =>
    obtain ⟨inner, read, rfl⟩ := Option.map_eq_some_iff.mp h
    have := ih read
    simp only [List.length_cons]
    omega
  | case5 => cases Option.some.inj h; simp
  | case6 c d r _ ih =>
    obtain ⟨inner, read, rfl⟩ := Option.map_eq_some_iff.mp h
    have := ih read
    simp only [List.length_cons] at this ⊢
    omega

/-- What the reader finds is what was written, up to the mark that closes it. -/
theorem scanInside_eq_some {mark : Char} {input : List Char} {found : List Char × List Char}
    (h : scanInside mark input = some found) :
    input = found.1.flatMap (doubled mark) ++ mark :: found.2 ∧ found.2.head? ≠ some mark := by
  fun_induction scanInside mark input generalizing found with
  | case1 => cases h
  | case2 => cases Option.some.inj h; simp
  | case3 => cases h
  | case4 r ih =>
    obtain ⟨inner, read, rfl⟩ := Option.map_eq_some_iff.mp h
    obtain ⟨written, ends⟩ := ih read
    exact ⟨by simp [written, doubled], ends⟩
  | case5 d r different => cases Option.some.inj h; simp [different]
  | case6 c d r different ih =>
    obtain ⟨inner, read, rfl⟩ := Option.map_eq_some_iff.mp h
    obtain ⟨written, ends⟩ := ih read
    exact ⟨by simp [written, doubled, different], ends⟩

/-- The reader finds a text exactly where it is written and no further mark follows. -/
theorem scan_eq_some_iff {mark : Char} {input text after : List Char} :
    scan mark input = some (text, after) ↔ input = encode mark text ++ after ∧
      after.head? ≠ some mark := by
  constructor
  · intro read
    cases input with
    | nil => cases read
    | cons c rest =>
      rw [scan] at read
      split at read
      · rename_i opens
        obtain ⟨written, ends⟩ := scanInside_eq_some read
        exact ⟨by simp [opens, written, encode], ends⟩
      · cases read
  · rintro ⟨rfl, ends⟩
    simp [scan, encode, scanInside_encoded mark text ends]

end DocumentViews.Text.Quoted
