import CodeReview.Proofs.BlockFindings
import CodeReview.Proofs.Frozen
import CodeReview.Proofs.Identity

/-! # Failures stay isolated

    A review in which parts are made to fail, next to one in which they are
    not.  Each file loses the findings of the failing parts; because a
    finding has one source, and findings of one key are equal, losing
    findings commutes with keeping the first of each key and with sorting
    into buckets. -/

namespace CodeReview

open Finding Aggregator

/-! ## Taking findings away -/

/-- Buckets without some findings; a bucket that is left empty goes. -/
def bucketsWithout (lost : List Finding)
    (buckets : List (Category × List Finding)) :
    List (Category × List Finding) :=
  buckets.filterMap fun (category, bucket) =>
    match bucket.filter (· ∉ lost) with
    | [] => none
    | rest => some (category, rest)

namespace Aggregator

/-- Taking findings out of a list takes them off its shelves, and keeps the
    order of the rest. -/
theorem shelf_filter (findings : List Finding) (keep : Finding → Bool)
    (category : Category) :
    shelf (findings.filter keep) category
      = (shelf findings category).filter keep := by
  have hswap (severity : Severity) :
      (findings.filter keep).filter (isIn category severity)
        = (findings.filter (isIn category severity)).filter keep := by
    rw [List.filter_filter, List.filter_filter]
    simp only [Bool.and_comm]
  rw [shelf_eq_ranked, shelf_eq_ranked]
  simp only [ReviewResult.ranked, List.filter_append, hswap]

/-- Taking findings out of a list takes them out of its buckets; a bucket
    that is left empty goes. -/
theorem buckets_filter (findings lost : List Finding) :
    buckets (findings.filter (· ∉ lost))
      = bucketsWithout lost (buckets findings) := by
  rw [bucketsWithout, buckets_eq, buckets_eq, List.filterMap_filterMap]
  refine List.filterMap_congr ?_
  intro category _
  rw [bucketOf?, bucketOf?, shelf_filter]
  by_cases hempty : shelf findings category = []
  · rw [if_pos hempty, hempty]
    rfl
  · rw [if_neg hempty]
    show _ = match (shelf findings category).filter (· ∉ lost) with
      | [] => none
      | rest => some (category, rest)
    cases (shelf findings category).filter (· ∉ lost) with
    | nil => rfl
    | cons f rest => rfl

end Aggregator

/-! ## Analyses that lose findings -/

namespace Review

/-- The file that a path in normal form leads to, if it is reviewed. -/
def subjectAt? (input : ReviewInput) (path : String) : Option Subject :=
  (Candidate.check input.tree input.config input.project
    (Path.parse path)).value.bind fun c =>
      (subject? input c.path (some c.language)).value

/-- What comes of a path: the findings of all detectors about its file, if
    it can be read. -/
theorem analysisAt?_eq (input : ReviewInput) (path : String) :
    analysisAt? input path
      = (subjectAt? input path).map fun s =>
          ⟨s, (detectAll input.faults s).value⟩ := by
  rw [analysisAt?, subjectAt?, Option.map_bind]
  simp only [value_analyse]
  rfl

/-- How two inputs differ: the second has each file of the first in a
    changed form, and the findings about it are those that are not lost. -/
structure Loses (clean faulty : ReviewInput) (change : Subject → Subject)
    (lost : Subject → List Finding) : Prop where
  subjects : ∀ path,
    subjectAt? faulty path = (subjectAt? clean path).map change
  findings : ∀ s language, s.BlocksWithin → s.language = some language →
    (detectAll faulty.faults (change s)).value
      = (detectAll clean.faults s).value.filter (· ∉ lost s)
  about : ∀ s, s.BlocksWithin → ∀ f ∈ lost s, f.file = s.path

/-- Findings about each file of a batch, taken together. -/
def gather (input : ReviewInput) (paths : List String)
    (part : Subject → List Finding) : List Finding :=
  (analyses input paths).flatMap fun r => part r.subject

variable {clean faulty : ReviewInput} {change : Subject → Subject}
  {lost : Subject → List Finding}

/-- Failures take their findings out of an analysis, and nothing else. -/
theorem analysisAt?_of_loses (h : Loses clean faulty change lost)
    (path : String) :
    analysisAt? faulty path
      = (analysisAt? clean path).map fun r =>
          ⟨change r.subject, r.findings.filter (· ∉ lost r.subject)⟩ := by
  rw [analysisAt?_eq, h.subjects]
  cases hr : analysisAt? clean path with
  | none =>
      rw [analysisAt?_eq, Option.map_eq_none_iff] at hr
      rw [hr]
      rfl
  | some r =>
      obtain ⟨language, hanalysis⟩ := exists_isAnalysis hr
      rw [analysisAt?_eq] at hr
      obtain ⟨s, hs, rfl⟩ := Option.map_eq_some_iff.mp hr
      rw [hs]
      show some (FileReview.mk (change s)
        (detectAll faulty.faults (change s)).value) = _
      rw [h.findings s language hanalysis.blocks_within hanalysis.language_eq]
      rfl

/-- Failures leave the files that are analysed and their order as they
    are. -/
theorem analyses_of_loses (h : Loses clean faulty change lost)
    (paths : List String) :
    analyses faulty paths
      = (analyses clean paths).map fun r =>
          ⟨change r.subject, r.findings.filter (· ∉ lost r.subject)⟩ := by
  rw [analyses_eq, analyses_eq, List.map_filterMap]
  refine List.filterMap_congr ?_
  intro path _
  exact analysisAt?_of_loses h path

/-- A finding about one file is lost in the batch if it is lost there. -/
theorem mem_gather_iff (h : Loses clean faulty change lost)
    {paths : List String} {r : FileReview}
    (hr : r ∈ analyses clean paths) {f : Finding}
    (hf : f ∈ r.findings) :
    f ∈ gather clean paths lost ↔ f ∈ lost r.subject := by
  refine ⟨?_, fun hlost => List.mem_flatMap.mpr ⟨r, hr, hlost⟩⟩
  intro hlost
  obtain ⟨r', hr', hlost'⟩ := List.mem_flatMap.mp hlost
  -- the file of the finding leads to both analyses
  obtain ⟨_, _, hreported⟩ := reported_of_mem_analyses hr hf
  have hat := analysisAt?_of_mem_analyses hr
  have hat' := analysisAt?_of_mem_analyses hr'
  obtain ⟨_, hanalysis⟩ := exists_isAnalysis hat'
  have hpath : r.subject.path = r'.subject.path :=
    hreported.located.file_eq.symm.trans
      (h.about r'.subject hanalysis.blocks_within f hlost')
  rw [hpath, hat'] at hat
  exact Option.some.inj hat ▸ hlost'

/-- Failures take from the produced findings exactly those that the failing
    parts report. -/
theorem produced_of_loses (h : Loses clean faulty change lost)
    (paths : List String) :
    produced faulty paths
      = (produced clean paths).filter (· ∉ gather clean paths lost) := by
  rw [produced, produced, analyses_of_loses h, List.flatMap_map,
    List.filter_flatMap]
  refine List.flatMap_congr ?_
  intro r hr
  refine List.filter_congr ?_
  intro f hf
  rw [decide_eq_decide, mem_gather_iff h hr hf]

end Review

/-- The result of a review that loses findings. -/
theorem review_of_loses {clean faulty : ReviewInput}
    {change : Subject → Subject} {lost : Subject → List Finding}
    (h : Review.Loses clean faulty change lost) (paths : List String) :
    let result := (review faulty paths).value
    result.findings
        = bucketsWithout (Review.gather clean paths lost)
            (review clean paths).value.findings
      ∧ result.counts = countSeverities result.allFindings := by
  intro result
  -- copies are lost together, because findings with one key are the same
  have hkeys : ∀ f ∈ Review.produced clean paths,
      ∀ g ∈ Review.produced clean paths, f.key = g.key →
        decide (f ∉ Review.gather clean paths lost)
          = decide (g ∉ Review.gather clean paths lost) := by
    intro f hf g hg hkey
    rw [eq_of_mem_produced hf hg hkey]
  constructor
  · show (review faulty paths).value.findings = _
    rw [findings_review_produced, findings_review_produced,
      Review.produced_of_loses h, distinct_filter hkeys, buckets_filter]
  · show (review faulty paths).value.counts = _
    rw [counts_review]
    exact (countSeverities_congr
      (sameClasses_allFindings (findings_review faulty paths))).symm

/-! ## Parts that are made to fail -/

/-- The same input with other faults. -/
def ReviewInput.withFaults (input : ReviewInput) (faults : Faults) :
    ReviewInput :=
  { input with faults := faults }

namespace Review

/-- Further detectors that fail lose what they report. -/
theorem loses_of_names (input : ReviewInput) {faults : Faults}
    {names : List String}
    (hscan : faults.blockScan = input.faults.blockScan)
    (hnames : ∀ name,
      name ∈ faults.names ↔ name ∈ input.faults.names ∨ name ∈ names) :
    Loses input (input.withFaults faults) id (·.reportsOf names) where
  subjects := by
    intro path
    rw [Option.map_id, id_eq, subjectAt?, subjectAt?]
    simp only [value_subject?, scanBlocks, ReviewInput.withFaults, hscan]
  findings := fun s language hblocks hlanguage =>
    value_detectAll_failing hblocks hlanguage hnames
  about := by
    intro s hblocks f hf
    obtain ⟨d, hd, _, hf⟩ := Subject.mem_reportsOf.mp hf
    cases hlanguage : s.language with
    | none =>
        rw [hlanguage] at hd
        exact absurd hd List.not_mem_nil
    | some language =>
        rw [hlanguage] at hd
        obtain ⟨e, he, rfl⟩ := Entry.exists_entry hd
        exact (Detector.reported_of_mem_reports hblocks
          (List.mem_filter.mp he).1 hf).located.file_eq

/-- Failing detectors lose what they report. -/
theorem loses_of_failures (input : ReviewInput)
    (failures : List (String × String)) (scan : Option String) :
    Loses (input.withFaults ⟨[], scan⟩) (input.withFaults ⟨failures, scan⟩) id
      (·.reportsOf (failures.map (·.1))) := by
  refine loses_of_names (input.withFaults ⟨[], scan⟩) rfl ?_
  intro name
  exact ⟨.inr, fun h => h.resolve_left List.not_mem_nil⟩

/-- A failing scan loses what comes from blocks. -/
theorem loses_of_scan (input : ReviewInput) (failure : String) :
    Loses (input.withFaults {}) (input.withFaults { blockScan := some failure })
      Subject.bare Subject.blockFindings where
  subjects := by
    intro path
    rw [subjectAt?, subjectAt?, Option.map_bind]
    simp only [value_subject?, Function.comp_def, Option.map_map]
    rfl
  findings := fun s language hblocks hlanguage =>
    value_detectAll_bare hblocks hlanguage rfl rfl
  about := fun s hblocks f hf =>
    (reported_blockFindings hblocks f hf).located.file_eq

/-- The findings of the detectors with some names, over a batch. -/
def producedBy (input : ReviewInput) (paths : List String)
    (names : List String) : List Finding :=
  gather input paths (·.reportsOf names)

/-- The findings that come from blocks, over a batch. -/
def blockDerived (input : ReviewInput) (paths : List String) : List Finding :=
  gather input paths Subject.blockFindings

end Review

/-- **ISOLATION**: detectors that fail take away the findings they produce,
    and a failing block scan takes away those that come from blocks; all
    other findings stay, in order, and the counts are those of what is
    left. -/
theorem review_isolates_failures (input : ReviewInput) (paths : List String) :
    (∀ (failures : List (String × String)) (scan : Option String),
      let clean := input.withFaults ⟨[], scan⟩
      let result := (review (input.withFaults ⟨failures, scan⟩) paths).value
      result.findings
          = bucketsWithout
              (Review.producedBy clean paths (failures.map (·.1)))
              (review clean paths).value.findings
        ∧ result.counts = countSeverities result.allFindings)
    ∧ ∀ failure : String,
      let clean := input.withFaults {}
      let result :=
        (review (input.withFaults { blockScan := some failure }) paths).value
      result.findings
          = bucketsWithout (Review.blockDerived clean paths)
              (review clean paths).value.findings
        ∧ result.counts = countSeverities result.allFindings := by
  constructor
  · intro failures scan
    exact review_of_loses (Review.loses_of_failures input failures scan) paths
  · intro failure
    exact review_of_loses (Review.loses_of_scan input failure) paths

end CodeReview
