import CodeReview.Proofs.Frozen
import CodeReview.Proofs.Identity
import CodeReview.Proofs.Merits

/-! # Observations

    When a review makes encouraging observations, and which.  What is noted
    about the files that were read, file by file and detector by detector,
    is a plain list (`notesOn`); a review without gating findings keeps
    the first of each note, or makes one observation of its own
    (`positives_review`). -/

namespace CodeReview

open Finding Aggregator

/-- Copies are dropped behind their first occurrence. -/
theorem pairwise_idxOf_eraseDups {α : Type} [BEq α] [LawfulBEq α]
    (xs : List α) :
    xs.eraseDups.Pairwise fun x y => xs.idxOf x < xs.idxOf y := by
  induction xs using List.reverseRecOn with
  | nil => exact List.Pairwise.nil
  | append_singleton xs x ih =>
      -- what occurred before is found where it was found before
      have hbefore : (xs.eraseDups).Pairwise fun y z =>
          (xs ++ [x]).idxOf y < (xs ++ [x]).idxOf z := by
        refine ih.imp_of_mem ?_
        intro y z hy hz hlt
        rw [List.idxOf_append_of_mem (List.mem_eraseDups.mp hy),
          List.idxOf_append_of_mem (List.mem_eraseDups.mp hz)]
        exact hlt
      by_cases hx : x ∈ xs
      · rw [eraseDups_concat_of_mem hx]
        exact hbefore
      · rw [eraseDups_concat_of_not_mem hx]
        refine List.pairwise_append.mpr
          ⟨hbefore, List.pairwise_singleton _ x, ?_⟩
        intro y hy z hz
        have hy' := List.mem_eraseDups.mp hy
        rw [List.mem_singleton.mp hz, List.idxOf_append_of_mem hy',
          List.idxOf_append_of_notMem hx, List.idxOf_cons_self]
        exact List.idxOf_lt_length_of_mem hy'

/-! ## What is noted -/

namespace PraiseDetector

/-- Whether a note is an exclamation, which the default observation is
    not. -/
def IsExclamation (note : String) : Prop := note.toList.getLast? = some '!'

instance (note : String) : Decidable (IsExclamation note) :=
  inferInstanceAs (Decidable (_ = _))

/-- A text with an exclamation mark behind it is an exclamation. -/
theorem isExclamation_append (text : String) : IsExclamation (text ++ "!") := by
  rw [IsExclamation, String.toList_append, List.getLast?_append]
  rfl

/-- Every merit is noted as an exclamation. -/
theorem isExclamation_note (s : Subject) (merit : Merit) :
    IsExclamation (merit.note s) := by
  have hnamed : ∀ words : String, IsExclamation (words ++ (s.name ++ "!")) := by
    intro words
    rw [← String.append_assoc]
    exact isExclamation_append _
  cases merit with
  | tests =>
      have htests : IsExclamation ("Excellent test coverage - keep it up!" ++ "") :=
        by decide
      exact htests
  | _ => exact hnamed _

/-- All notes are exclamations. -/
theorem isExclamation_of_mem_notes {d : PraiseDetector} (hd : d ∈ all)
    {s : Subject} : ∀ note ∈ d.notes s, IsExclamation note := by
  intro note hnote
  obtain ⟨merit, _, rfl⟩ := isNoted_iff.mp ⟨d, hd, hnote⟩
  exact isExclamation_note s merit

end PraiseDetector

/-- The default observation is no exclamation, so no merit is mistaken for
    it. -/
theorem not_isExclamation_defaultPraise :
    ¬ PraiseDetector.IsExclamation defaultPraise := by decide

/-- The notes of one detector, unless it is made to fail. -/
def Faults.notes (faults : Faults) (s : Subject) (d : PraiseDetector) :
    List String :=
  if d.name ∈ faults.names then [] else d.notes s

/-- A detector of praise adds the notes it has, and none if it is made to
    fail. -/
theorem value_praiseWith (faults : Faults) (s : Subject)
    (d : PraiseDetector) :
    (praiseWith faults s d).value = faults.notes s d := by
  rw [praiseWith, Faults.attemptPraise, Faults.notes]
  cases hlookup : faults.detectors.lookup d.name with
  | some failure =>
      rw [if_pos (Faults.mem_names_of_lookup hlookup)]
      rfl
  | none =>
      rw [if_neg (Faults.not_mem_names_of_lookup hlookup)]
      rfl

/-- What is noted about some files: file by file, detector by detector. -/
def notesOn (faults : Faults) (batch : List Subject) : List String :=
  batch.flatMap fun s => PraiseDetector.all.flatMap (faults.notes s)

/-- The observations that some notes come to: each note once, or the default
    if there are none. -/
def observations (notes : List String) : List String :=
  if notes = [] then [defaultPraise] else notes.eraseDups

/-- The observations on a batch are the notes of all its files, each once,
    or the default. -/
theorem value_praiseAll (faults : Faults) (batch : List Subject) :
    (praiseAll faults batch).value = observations (notesOn faults batch) := by
  have hnotes : (praiseAll faults batch).value
      = if (notesOn faults batch).eraseDups.isEmpty then [defaultPraise]
        else (notesOn faults batch).eraseDups := by
    simp only [praiseAll, Logged.value_bind, Logged.value_mapM,
      Logged.value_pure, value_praiseWith, firstOccurrences]
    rfl
  rw [hnotes, observations]
  cases notesOn faults batch with
  | nil => rfl
  | cons note rest =>
      rw [List.eraseDups_cons, if_neg (List.cons_ne_nil note rest)]
      rfl

/-- No observation is repeated. -/
theorem nodup_observations (notes : List String) :
    (observations notes).Nodup := by
  rw [observations]
  split
  · exact List.pairwise_singleton _ defaultPraise
  · exact nodup_eraseDups notes

/-- There is always something to observe. -/
theorem observations_ne_nil (notes : List String) : observations notes ≠ [] := by
  rw [observations]
  cases notes with
  | nil => exact List.cons_ne_nil _ _
  | cons note rest =>
      rw [if_neg (List.cons_ne_nil note rest), List.eraseDups_cons]
      exact List.cons_ne_nil _ _

/-- The default is observed where there is nothing to note, and only
    there: no detector notes it. -/
theorem observations_eq_default_iff (faults : Faults) (batch : List Subject) :
    observations (notesOn faults batch) = [defaultPraise]
      ↔ notesOn faults batch = [] := by
  constructor
  · intro h
    by_contra hnotes
    rw [observations, if_neg hnotes] at h
    have hmem : defaultPraise ∈ notesOn faults batch := by
      rw [← List.mem_eraseDups, h]
      exact List.mem_singleton_self _
    obtain ⟨s, _, hs⟩ := List.mem_flatMap.mp hmem
    obtain ⟨d, hd, hnote⟩ := List.mem_flatMap.mp hs
    rw [Faults.notes] at hnote
    split at hnote
    · exact nomatch hnote
    · exact not_isExclamation_defaultPraise
        (PraiseDetector.isExclamation_of_mem_notes hd _ hnote)
  · intro h
    rw [observations, if_pos h]

/-! ## The gate -/

namespace Review

/-- The files of a batch that were read, in order. -/
def filesRead (input : ReviewInput) (paths : List String) : List Subject :=
  (Candidate.select input.tree input.config input.project paths).value.filterMap
    fun c => (subject? input c.path (some c.language)).value

/-- The files that are analysed are those that are read, in order. -/
theorem map_subject_analyses (input : ReviewInput) (paths : List String) :
    (analyses input paths).map (·.subject) = filesRead input paths := by
  rw [analyses, filesRead, List.map_filterMap]
  refine List.filterMap_congr ?_
  intro c _
  rw [value_analyse, Option.map_map]
  exact congrFun Option.map_id _

/-- Whether a result has a finding of a category that suppresses
    observations. -/
def IsGated (r : ReviewResult) : Prop :=
  ∃ f ∈ r.allFindings, f.category = .security ∨ f.category = .performance

/-- Whether a result is gated can be asked of its findings or of what they
    were collected in. -/
theorem isGated_iff_hasCategory {r : ReviewResult} {a : Aggregator}
    (h : r.findings = buckets a.kept) :
    IsGated r ↔ a.hasCategory gatingCategories = true := by
  rw [hasCategory, List.any_eq_true]
  refine exists_congr fun f => ?_
  rw [(sameClasses_allFindings h).perm.mem_iff]
  refine and_congr_right fun _ => ?_
  cases f.category <;> decide

/-- The aggregator of a batch. -/
def collected (input : ReviewInput) (paths : List String) : Aggregator :=
  (analyses input paths).foldl (fun a r => a.add r.findings) {}

/-- Before positives are added, there are none. -/
theorem positives_collected (input : ReviewInput) (paths : List String) :
    (collected input paths).positives = [] := by
  rw [collected, foldl_add, positives_add]

/-- A review is gated exactly if something of a gating category was
    collected. -/
theorem isGated_review_iff (input : ReviewInput) (paths : List String) :
    IsGated (review input paths).value
      ↔ (collected input paths).hasCategory gatingCategories = true := by
  refine isGated_iff_hasCategory ?_
  rw [findings_review, ← kept_collected]
  rfl

/-- Aggregation praises last, on the files that were read. -/
theorem positives_aggregate (input : ReviewInput) (paths : List String) :
    (aggregate input (analyses input paths)).value.positives
      = (praise input (collected input paths)
          (filesRead input paths)).value.positives := by
  rw [← map_subject_analyses]
  rfl

end Review

/-- Without a file that was read, and next to a gating finding, nothing is
    observed. -/
theorem positives_review_of_gated {input : ReviewInput} {paths : List String}
    (h : Review.filesRead input paths = []
      ∨ Review.IsGated (review input paths).value) :
    (review input paths).value.positives = [] := by
  rw [Review.isGated_review_iff] at h
  rw [value_review]
  split
  · rfl
  · rw [Review.positives_aggregate, Review.praise, if_pos]
    · exact Review.positives_collected input paths
    · rw [Bool.or_eq_true, List.isEmpty_iff]
      exact h

/-- Otherwise the observations are what the notes on the files come to. -/
theorem positives_review {input : ReviewInput} {paths : List String}
    (hread : Review.filesRead input paths ≠ [])
    (hclear : ¬ Review.IsGated (review input paths).value) :
    (review input paths).value.positives
      = observations (notesOn input.faults (Review.filesRead input paths)) := by
  rw [Review.isGated_review_iff] at hclear
  rw [value_review]
  split
  · rename_i hnone
    refine absurd ?_ hread
    rw [Review.filesRead, List.isEmpty_iff.mp hnone]
    rfl
  · rw [Review.positives_aggregate, Review.praise, if_neg]
    · show (praiseAll _ _).value.eraseDups = _
      rw [value_praiseAll, eraseDups_eq_self (nodup_observations _)]
    · rw [Bool.or_eq_true, List.isEmpty_iff, not_or]
      exact ⟨hread, hclear⟩

/-- **OBSERVATIONS**: a review observes something if a file was read and no
    finding is about security or performance.  Then it lists the notes on
    the files that were read in the order of their first occurrences, and
    the default observation alone where there are no notes. -/
theorem review_observes (input : ReviewInput) (paths : List String) :
    let result := (review input paths).value
    let notes := notesOn input.faults (Review.filesRead input paths)
    (result.positives ≠ []
        ↔ Review.filesRead input paths ≠ [] ∧ ¬ Review.IsGated result)
      ∧ result.positives.Nodup
      ∧ (result.positives ≠ [] →
          (result.positives = [defaultPraise] ↔ notes = [])
          ∧ (notes ≠ [] →
              (∀ note, note ∈ result.positives ↔ note ∈ notes)
              ∧ result.positives.Pairwise fun a b =>
                  notes.idxOf a < notes.idxOf b)) := by
  intro result notes
  by_cases hopen : Review.filesRead input paths ≠ [] ∧ ¬ Review.IsGated result
  · have hpositives : result.positives = observations notes :=
      positives_review hopen.1 hopen.2
    refine ⟨⟨fun _ => hopen, ?_⟩, ?_, ?_⟩
    · intro _
      rw [hpositives]
      exact observations_ne_nil notes
    · rw [hpositives]
      exact nodup_observations notes
    · intro _
      rw [hpositives]
      refine ⟨observations_eq_default_iff input.faults _, ?_⟩
      intro hnotes
      rw [observations, if_neg hnotes]
      exact ⟨fun note => List.mem_eraseDups, pairwise_idxOf_eraseDups notes⟩
  · -- a closed gate, or no file: no positives, so every part holds of nothing
    have hpositives : result.positives = [] := by
      refine positives_review_of_gated ?_
      rw [not_and_or, not_not, not_not] at hopen
      exact hopen
    rw [hpositives]
    exact ⟨⟨fun h => absurd rfl h, fun h => absurd h hopen⟩,
      List.nodup_nil, fun h => absurd rfl h⟩

end CodeReview
