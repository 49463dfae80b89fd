import DocumentViews.Json.Escape

/-! The inside of a string literal is read back exactly.
Every character has one written form. The written form keeps to the format, holds no bare quote, and
decodes to the character it was made from. -/
namespace DocumentViews.Json.Escape

theorem unit?_control : ∀ code < 0x20,
    unit? '0' '0' (hexDigit (code / 16)) (hexDigit (code % 16)) = some code := by decide

theorem hexDigit_plain : ∀ value < 16, hexDigit value ≠ '"' ∧ hexDigit value ≠ '\\' := by decide

/-- The written form of a character is a letter escape, a numbered escape or the character
itself. -/
theorem char_cases (c : Char) :
    (∃ x, letter x = some c ∧ x ≠ 'u' ∧ char c = ['\\', x]) ∨
    (c.toNat < 0x20 ∧ char c = ['\\', 'u', '0', '0', hexDigit (c.toNat / 16),
    hexDigit (c.toNat % 16)]) ∨ (0x20 ≤ c.toNat ∧ c ≠ '"' ∧ c ≠ '\\' ∧ char c = [c]) := by
  unfold char
  split
  · exact .inl ⟨'"', by subst c; decide, by decide, rfl⟩
  split
  · exact .inl ⟨'\\', by subst c; decide, by decide, rfl⟩
  split
  · exact .inl ⟨'b', by subst c; decide, by decide, rfl⟩
  split
  · exact .inl ⟨'f', by subst c; decide, by decide, rfl⟩
  split
  · exact .inl ⟨'n', by subst c; decide, by decide, rfl⟩
  split
  · exact .inl ⟨'r', by subst c; decide, by decide, rfl⟩
  split
  · exact .inl ⟨'t', by subst c; decide, by decide, rfl⟩
  split
  · rename_i small
    exact .inr (.inl ⟨small, rfl⟩)
  · rename_i quote backslash _ _ _ _ _ large
    exact .inr (.inr ⟨Nat.le_of_not_lt large, quote, backslash, rfl⟩)

theorem wellFormed_char (c : Char) (after : List Char) :
    wellFormed (char c ++ after) = wellFormed after := by
  rcases char_cases c with ⟨x, stands, notUnit, written⟩ | ⟨small, written⟩ |
    ⟨large, _, backslash, written⟩
  · rw [written]
    simp [wellFormed, notUnit, stands]
  · rw [written]
    simp [wellFormed, unit?_control c.toNat small]
  · rw [written]
    simp [wellFormed, backslash, large]

theorem decode_char (c : Char) (after : List Char) :
    decode (char c ++ after) = (decode after).map (c :: ·) := by
  rcases char_cases c with ⟨x, stands, notUnit, written⟩ | ⟨small, written⟩ |
    ⟨large, _, backslash, written⟩
  · rw [written]
    simp [decode, notUnit, stands]
  · have notHigh : isHigh c.toNat = false := by simp [isHigh]; omega
    have notLow : isLow c.toNat = false := by simp [isLow]; omega
    rw [written]
    simp [decode, unit?_control c.toNat small, notHigh, notLow, Char.ofNat_toNat]
  · rw [written]
    simp [decode, backslash]

theorem wellFormed_encode (text : List Char) : wellFormed (encode text) = true := by
  induction text with
  | nil => rfl
  | cons c rest ih => exact (wellFormed_char c (encode rest)).trans ih

/-- What is written stands for the text it was made from. -/
theorem decode_encode (text : List Char) : decode (encode text) = some text := by
  induction text with
  | nil => rfl
  | cons c rest ih =>
    show decode (char c ++ encode rest) = _
    rw [decode_char, ih]
    rfl

end DocumentViews.Json.Escape
