import CodeReview.Detector.Praise

/-! # Merits

    What the detectors of praise note about a file are its merits, in the
    words for each (`isNoted_iff`).  The words for different merits begin
    in different ways, so that a note tells its merit
    (`isNoted_note_iff`). -/

namespace CodeReview

open Pattern PraiseDetector Detector

/-- What a file can be praised for. -/
inductive Merit where
  | serviceObjects
  | strongParameters
  | eagerLoading
  | scopedStyles
  | stableKeys
  | tests

namespace Merit

/-- What the notes about a merit say, up to the name of the file. -/
def words : Merit → String
  | serviceObjects =>
      "Great use of service objects to encapsulate business logic in "
  | strongParameters => "Nice job using strong parameters for security in "
  | eagerLoading => "Good performance optimization with eager loading in "
  | scopedStyles => "Component styles are nicely scoped in "
  | stableKeys => "List rendering uses stable keys in "
  | tests => "Excellent test coverage - keep it up!"

/-- How the note about a merit of a file goes on; tests are praised without
    a name. -/
def ending (s : Subject) : Merit → String
  | tests => ""
  | _ => s.name ++ "!"

/-- The note about a merit of a file. -/
def note (s : Subject) (merit : Merit) : String :=
  merit.words ++ merit.ending s

/-- What a file with a merit is like. -/
def Holds (s : Subject) : Merit → Prop
  | serviceObjects =>
      Text.occurs "service".toList (Text.lower s.path).toList = true
        ∧ serviceClass.occursIn s.content = true
  | strongParameters =>
      s.language = some .ruby
        ∧ PraiseDetector.strongParameters.occursIn s.content = true
  | eagerLoading =>
      s.language = some .ruby ∧ Detector.eagerLoading.occursIn s.content = true
  | scopedStyles =>
      s.language = some .vue ∧ styleTag.findAll s.content ≠ []
        ∧ ∀ m ∈ styleTag.findAll s.content, scopedStyle.occursIn (m.group 1) = true
  | stableKeys =>
      s.language = some .vue
        ∧ (∃ tag ∈ tags s, listDirective.occursIn tag.attrs = true)
        ∧ ∀ tag ∈ tags s, listDirective.occursIn tag.attrs = true →
          keyBinding.occursIn tag.attrs = true
  | tests => s.isTest = true

/-- How the notes about a merit begin. -/
def initials : Merit → Text
  | serviceObjects => ['G', 'r']
  | strongParameters => ['N', 'i']
  | eagerLoading => ['G', 'o']
  | scopedStyles => ['C', 'o']
  | stableKeys => ['L', 'i']
  | tests => ['E', 'x']

end Merit

/-! ## How notes begin -/

/-- How a text begins. -/
def beginning (message : String) : Text := message.toList.take 2

/-- What a text begins with does not depend on what follows, if it is long
    enough. -/
theorem beginning_append {start : String} (h : (beginning start).length = 2)
    (rest : String) : beginning (start ++ rest) = beginning start := by
  have hlength : 2 ≤ start.toList.length := by
    rw [beginning, List.length_take] at h
    omega
  rw [beginning, beginning, String.toList_append,
    List.take_append_of_le_length hlength]

/-- Each merit has its own beginning, whatever its note says behind it. -/
theorem Merit.beginning_note (s : Subject) (merit : Merit) :
    beginning (merit.note s) = merit.initials := by
  have hwords : beginning merit.words = merit.initials := by
    cases merit <;> decide +kernel
  have hlength : merit.initials.length = 2 := by cases merit <;> rfl
  rw [note, beginning_append (hwords ▸ hlength), hwords]

/-- Notes about different merits begin in different ways. -/
theorem Merit.note_inj {s : Subject} {merit merit' : Merit}
    (h : merit.note s = merit'.note s) : merit = merit' := by
  have hinitials : merit.initials = merit'.initials := by
    rw [← beginning_note s, ← beginning_note s, h]
  cases merit <;> cases merit' <;>
    first | rfl | exact absurd hinitials (by decide)

/-! ## What is noted -/

namespace PraiseDetector

/-- A note under a condition is made exactly if the condition holds. -/
theorem mem_noteIf {condition : Bool} {note n : String} :
    n ∈ noteIf condition note ↔ condition = true ∧ n = note := by
  cases condition <;> simp [noteIf]

/-- There is something, and all of it passes the test. -/
theorem someAndAll_iff {α : Type} {xs : List α} {test : α → Bool} :
    someAndAll xs test = true ↔ xs ≠ [] ∧ ∀ x ∈ xs, test x = true := by
  simp [someAndAll]

section Notes

variable {s : Subject} {n : String}

/-- Service objects are noted exactly where they have their merit. -/
theorem mem_notes_serviceObjects :
    n ∈ serviceObjects.notes s
      ↔ Merit.serviceObjects.Holds s ∧ n = Merit.serviceObjects.note s := by
  simp only [serviceObjects, mem_noteIf, Bool.and_eq_true, Merit.Holds,
    Merit.note, Merit.words, Merit.ending, toString, String.append_assoc]

/-- Strong parameters are noted exactly where they have their merit. -/
theorem mem_notes_strongParameterUse :
    n ∈ strongParameterUse.notes s
      ↔ Merit.strongParameters.Holds s ∧ n = Merit.strongParameters.note s := by
  simp only [strongParameterUse, mem_noteIf, Bool.and_eq_true, beq_iff_eq,
    Merit.Holds, Merit.note, Merit.words, Merit.ending, toString,
    String.append_assoc]

/-- Eager loading is noted exactly where it has its merit. -/
theorem mem_notes_eagerLoadingUse :
    n ∈ eagerLoadingUse.notes s
      ↔ Merit.eagerLoading.Holds s ∧ n = Merit.eagerLoading.note s := by
  simp only [eagerLoadingUse, mem_noteIf, Bool.and_eq_true, beq_iff_eq,
    Merit.Holds, Merit.note, Merit.words, Merit.ending, toString,
    String.append_assoc]

/-- A component can have two merits, and each is noted for itself. -/
theorem mem_notes_componentHygiene :
    n ∈ componentHygiene.notes s
      ↔ Merit.scopedStyles.Holds s ∧ n = Merit.scopedStyles.note s
        ∨ Merit.stableKeys.Holds s ∧ n = Merit.stableKeys.note s := by
  have hlists : ((tags s).filter fun tag => listDirective.occursIn tag.attrs) ≠ []
      ↔ ∃ tag ∈ tags s, listDirective.occursIn tag.attrs = true := by
    simp
  simp only [componentHygiene, Merit.Holds, Merit.note, Merit.words,
    Merit.ending, toString, String.append_assoc]
  split
  · rename_i hother
    have hno : s.language ≠ some .vue := bne_iff_ne.mp hother
    simp [hno]
  · rename_i hvue
    have hyes : s.language = some .vue := by simpa using hvue
    simp only [List.mem_append, mem_noteIf, someAndAll_iff, hlists, hyes,
      true_and, ne_eq, List.map_eq_nil_iff, List.forall_mem_map,
      List.mem_filter, and_imp]

/-- Tests are noted exactly where they have their merit. -/
theorem mem_notes_testCoverage :
    n ∈ testCoverage.notes s
      ↔ Merit.tests.Holds s ∧ n = Merit.tests.note s := by
  simp only [testCoverage, mem_noteIf, Merit.Holds, Merit.note, Merit.words,
    Merit.ending, String.append_empty]

end Notes

/-- Whether some detector makes a note about a file. -/
def IsNoted (s : Subject) (note : String) : Prop :=
  ∃ d ∈ all, note ∈ d.notes s

/-- What is noted are the merits of the file. -/
theorem isNoted_iff {s : Subject} {n : String} :
    IsNoted s n ↔ ∃ merit : Merit, merit.Holds s ∧ n = merit.note s := by
  have hnotes : IsNoted s n ↔ n ∈ serviceObjects.notes s
      ∨ n ∈ strongParameterUse.notes s ∨ n ∈ eagerLoadingUse.notes s
      ∨ n ∈ componentHygiene.notes s ∨ n ∈ testCoverage.notes s := by
    simp only [IsNoted, all, List.mem_cons, List.not_mem_nil, or_false,
      exists_eq_or_imp, exists_eq_left]
  rw [hnotes, mem_notes_serviceObjects, mem_notes_strongParameterUse,
    mem_notes_eagerLoadingUse, mem_notes_componentHygiene,
    mem_notes_testCoverage]
  constructor
  · rintro (h | h | h | (h | h) | h)
    all_goals exact ⟨_, h⟩
  · rintro ⟨merit, h⟩
    cases merit with
    | serviceObjects => exact .inl h
    | strongParameters => exact .inr (.inl h)
    | eagerLoading => exact .inr (.inr (.inl h))
    | scopedStyles => exact .inr (.inr (.inr (.inl (.inl h))))
    | stableKeys => exact .inr (.inr (.inr (.inl (.inr h))))
    | tests => exact .inr (.inr (.inr (.inr h)))

/-- A merit is noted about the files that have it. -/
theorem isNoted_note_iff {s : Subject} {merit : Merit} :
    IsNoted s (merit.note s) ↔ merit.Holds s := by
  rw [isNoted_iff]
  constructor
  · rintro ⟨merit', h, hnote⟩
    rwa [Merit.note_inj hnote]
  · intro h
    exact ⟨merit, h, rfl⟩

end PraiseDetector

end CodeReview
