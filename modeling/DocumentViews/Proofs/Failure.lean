import DocumentViews.Command.Run

/-! How much a caller is told of a failure.
Every text that a caller is told is a front part of the diagnosis, cut at the longest length or
not at all. Only the name of a missing collection is never cut, so the length is kept if and only
if that name is short. -/
namespace DocumentViews

namespace Text

theorem toList_clip (limit : Nat) (text : String) :
    (clip limit text).toList = text.toList.take limit := by
  rw [clip, String.toList_ofList]

theorem clip_isPrefix (limit : Nat) (text : String) : (clip limit text).toList <+: text.toList := by
  rw [toList_clip]
  exact List.take_prefix limit text.toList

theorem length_clip (limit : Nat) (text : String) :
    (clip limit text).length = min limit text.length := by
  rw [← String.length_toList, toList_clip, List.length_take, String.length_toList]

theorem clip_of_length_le {limit : Nat} {text : String} (short : text.length ≤ limit) :
    clip limit text = text := by
  rw [← String.toList_inj, toList_clip]
  exact List.take_of_length_le (by rwa [String.length_toList])

end Text

namespace Failure

/-- What there is to say of a failure before anything is cut: the reason of a refusal, and else the
failure in words. -/
def diagnosis : Failure → String
  | .denied refusal => refusal.reason
  | failure => failure.message

/-- What a caller is told is one text, a front part of the diagnosis and not too long. -/
def Capped (failure : Failure) : Prop :=
  ∃ label text, failure.body = .object [(label, .string text)] ∧ text.length ≤ longestMessage ∧
    text.toList <+: failure.diagnosis.toList

/-- The longest name of a missing collection that leaves room for the words behind it. -/
def longestName : Nat := longestMessage - " not found".length

/-- The two ways in which a diagnosis is told: whole for a missing collection, and cut for
all else. -/
theorem report_cases (failure : Failure) :
    (∃ missing, failure = .missingCollection missing ∧ failure.report.2 = failure.diagnosis) ∨
      (∀ missing, failure ≠ .missingCollection missing) ∧
        failure.report.2 = Text.clip longestMessage failure.diagnosis := by
  cases failure with
  | missingCollection missing => exact .inl ⟨missing, rfl, rfl⟩
  | _ => exact .inr ⟨nofun, rfl⟩

theorem report_isPrefix (failure : Failure) :
    failure.report.2.toList <+: failure.diagnosis.toList := by
  rcases failure.report_cases with ⟨_, _, whole⟩ | ⟨_, cut⟩
  · exact ⟨[], by rw [whole, List.append_nil]⟩
  · rw [cut]
    exact Text.clip_isPrefix longestMessage failure.diagnosis

theorem report_cut_at_longest (failure : Failure) :
    failure.report.2 = failure.diagnosis ∨ failure.report.2.length = longestMessage := by
  rcases failure.report_cases with ⟨_, _, whole⟩ | ⟨_, cut⟩
  · exact .inl whole
  · rw [cut]
    rcases Nat.le_total failure.diagnosis.length longestMessage with short | long
    · exact .inl (Text.clip_of_length_le short)
    · exact .inr (by rw [Text.length_clip, Nat.min_eq_left long])

theorem length_missing_le_iff (missing : MissingCollection) :
    missing.message.length ≤ longestMessage ↔ missing.name.length ≤ longestName := by
  have words : missing.message.length = missing.name.length + 10 := String.length_append ..
  have room : longestName = 490 := rfl
  rw [words, longestMessage, room]
  omega

theorem length_report_le_iff (failure : Failure) :
    failure.report.2.length ≤ longestMessage ↔
      ∀ missing, failure = .missingCollection missing → missing.name.length ≤ longestName := by
  rcases failure.report_cases with ⟨missing, rfl, _⟩ | ⟨other, cut⟩
  · simpa [report] using length_missing_le_iff missing
  · have short : failure.report.2.length ≤ longestMessage := by
      rw [cut, Text.length_clip]
      exact Nat.min_le_left _ _
    exact iff_of_true short fun missing same => absurd same (other missing)

theorem capped_iff_length_report (failure : Failure) :
    failure.Capped ↔ failure.report.2.length ≤ longestMessage := by
  constructor
  · rintro ⟨label, text, told, short, _⟩
    -- The body has one member, so its text is that of the report.
    obtain ⟨_, rfl⟩ : failure.report.1 = label ∧ failure.report.2 = text := by
      simpa [body] using told
    exact short
  · intro short
    exact ⟨failure.report.1, failure.report.2, rfl, short, failure.report_isPrefix⟩

/-- Of any failure a caller is told one text, which is the diagnosis up to where it is cut. That
text is no longer than allowed, unless it names a missing collection by a long name. -/
theorem bodies_capped_iff (failure : Failure) :
    (∃ label text, failure.body = .object [(label, .string text)] ∧
      text.toList <+: failure.diagnosis.toList ∧
      (text = failure.diagnosis ∨ text.length = longestMessage)) ∧
    (failure.Capped ↔ ∀ missing, failure = .missingCollection missing →
      missing.name.length ≤ longestName) := by
  constructor
  · exact ⟨failure.report.1, failure.report.2, rfl, failure.report_isPrefix,
      failure.report_cut_at_longest⟩
  · rw [capped_iff_length_report, length_report_le_iff]

def letters (count : Nat) : String := String.ofList (List.replicate count 'x')

theorem length_letters (count : Nat) : (letters count).length = count := by
  rw [letters, String.length_ofList, List.length_replicate]

def bareContext : Context Unit :=
  ⟨.ok ⟨.empty, []⟩, .standard, .standard, none, .error (.connectionFailed "")⟩

theorem run_compile_bareContext (name : String) :
    (Command.compile name false).run bareContext ⟨(), []⟩ =
      .error (.missingCollection ⟨name⟩) ⟨(), []⟩ := rfl

/-- Asked for a collection that it does not know, the program tells the whole name, here one letter
longer than there is room for. -/
theorem long_name_uncut :
    (Command.compile (letters 491) false).run bareContext ⟨(), []⟩ =
        .error (.missingCollection ⟨letters 491⟩) ⟨(), []⟩ ∧
      ¬ (Failure.missingCollection ⟨letters 491⟩).Capped := by
  refine ⟨run_compile_bareContext (letters 491), ?_⟩
  rw [capped_iff_length_report, length_report_le_iff]
  intro short
  have room := short ⟨letters 491⟩ rfl
  rw [length_letters] at room
  exact absurd room (by decide)

end Failure

end DocumentViews
