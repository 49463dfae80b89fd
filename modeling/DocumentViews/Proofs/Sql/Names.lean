import DocumentViews.Proofs.Text.Quoted
import DocumentViews.Sql.Name

/-! Quoted names and literals are read back exactly and end where they should.
A reader finds a text if and only if that text is written there, in quotes, and what follows
does not open with a further quote. So a written text can be cancelled in front of whatever
follows it. -/
namespace DocumentViews.Sql

/-- Texts written between marks can be told from what follows them. -/
structure ReadsBack (mark : Char) (quote : String → String) : Prop where
  /-- The reader takes a written text and nothing else, gives the text and leaves what follows. -/
  read_iff : ∀ input text after : String,
    Text.Quoted.scan mark input.toList = some (text.toList, after.toList) ↔
      input = quote text ++ after ∧ after.toList.head? ≠ some mark
  /-- No written text with its continuation is also another one with another continuation. -/
  cancels : ∀ text other after rest : String,
    after.toList.head? ≠ some mark → rest.toList.head? ≠ some mark →
      quote text ++ after = quote other ++ rest → text = other ∧ after = rest
  injective : Function.Injective quote

theorem ReadsBack.of_read_iff {mark : Char} {quote : String → String}
    (read_iff : ∀ input text after : String,
      Text.Quoted.scan mark input.toList = some (text.toList, after.toList) ↔
        input = quote text ++ after ∧ after.toList.head? ≠ some mark) : ReadsBack mark quote := by
  have cancels : ∀ text other after rest : String,
      after.toList.head? ≠ some mark → rest.toList.head? ≠ some mark →
        quote text ++ after = quote other ++ rest → text = other ∧ after = rest := by
    intro text other after rest ends stops same
    have first := (read_iff _ text after).mpr ⟨rfl, ends⟩
    have second := (read_iff _ other rest).mpr ⟨same, stops⟩
    obtain ⟨texts, continuations⟩ := Prod.mk.inj (Option.some.inj (first.symm.trans second))
    exact ⟨String.toList_inj.mp texts, String.toList_inj.mp continuations⟩
  refine ⟨read_iff, cancels, fun text other same => ?_⟩
  have nothing : ("" : String).toList.head? ≠ some mark := nofun
  exact (cancels text other "" "" nothing nothing (by rw [same])).1

theorem readsBack_encode (mark : Char) :
    ReadsBack mark fun text => String.ofList (Text.Quoted.encode mark text.toList) := by
  apply ReadsBack.of_read_iff
  intro input text after
  rw [Text.Quoted.scan_eq_some_iff, ← String.toList_inj, String.toList_append, String.toList_ofList]

/-- Names in double quotes and literals in single quotes are read back, whatever marks and
backslashes they hold, and both ways of writing are injective. -/
theorem quoted_texts_read_back :
    ReadsBack nameMark quoteName ∧ ReadsBack literalMark quoteLiteral :=
  ⟨readsBack_encode nameMark, readsBack_encode literalMark⟩

/-- Marks at both ends of a text, a backslash before the closing mark, and marks of the
other kind behind it. -/
theorem quoted_texts_read_back_hostile :
    ("'\"\"".toList.head? ≠ some nameMark ∧
      Text.Quoted.scan nameMark (quoteName "\"\"a\"" ++ "'\"\"").toList =
        some ("\"\"a\"".toList, "'\"\"".toList)) ∧
    ("\"''".toList.head? ≠ some literalMark ∧
      Text.Quoted.scan literalMark (quoteLiteral "'a\\" ++ "\"''").toList =
        some ("'a\\".toList, "\"''".toList)) := by
  have apart : "'\"\"".toList.head? ≠ some nameMark := by decide
  have apart' : "\"''".toList.head? ≠ some literalMark := by decide
  exact ⟨⟨apart, (quoted_texts_read_back.1.read_iff _ _ _).mpr ⟨rfl, apart⟩⟩,
    apart', (quoted_texts_read_back.2.read_iff _ _ _).mpr ⟨rfl, apart'⟩⟩

end DocumentViews.Sql
