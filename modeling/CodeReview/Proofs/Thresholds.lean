import CodeReview.Proofs.Isolation
import CodeReview.Proofs.Observations

/-! # Thresholds

    The same batch, reviewed under two configurations that ignore the same
    files.  Four detectors measure against a threshold; every other one
    reports the same under both, and so does praise.  To compare the two
    reviews, both are taken with the measuring detectors made to fail:
    that takes their findings away and nothing else, and what is left does
    not depend on thresholds.  The measuring detectors themselves report
    in fewer places as their thresholds grow. -/

namespace CodeReview

open Detector

/-! ## Configurations -/

namespace Config

/-- Whether two configurations ignore the same files. -/
structure SameIgnores (c c' : Config) : Prop where
  dirs_eq : c.ignoreDirs = c'.ignoreDirs
  files_eq : c.ignoreFiles = c'.ignoreFiles

/-- Whether no threshold of the first configuration is above that of the
    second. -/
structure AtMost (c c' : Config) : Prop where
  line_le : c.maxLineLength ≤ c'.maxLineLength
  method_le : c.maxMethodLength ≤ c'.maxMethodLength
  file_le : c.maxFileSize ≤ c'.maxFileSize
  complexity_le : c.complexityThreshold ≤ c'.complexityThreshold

/-- The same configuration with another number of findings to show. -/
def showing (c : Config) (limit : Nat) : Config := { c with displayLimit := limit }

/-- How many findings are shown does not change which files are ignored. -/
theorem sameIgnores_showing (c : Config) (limit : Nat) :
    c.SameIgnores (c.showing limit) := ⟨rfl, rfl⟩

/-- Configurations with the same lists ignore the same paths. -/
theorem SameIgnores.ignores_eq {c c' : Config} (h : c.SameIgnores c') :
    c.ignores = c'.ignores := by
  funext project path
  rw [ignores, ignores, h.dirs_eq, h.files_eq]

/-- Configurations with the same lists skip the same candidates, and for the
    same reasons. -/
theorem SameIgnores.check_eq {c c' : Config} (h : c.SameIgnores c')
    (tree : FileTree) (project path : Path) :
    Candidate.check tree c' project path = Candidate.check tree c project path := by
  -- a check reads nothing else of the configuration
  delta Candidate.check
  rw [h.ignores_eq]

end Config

/-- The same file under another configuration. -/
def Subject.under (s : Subject) (config : Config) : Subject :=
  { s with config := config }

/-- The same input under another configuration. -/
def ReviewInput.under (input : ReviewInput) (config : Config) : ReviewInput :=
  { input with config := config }

/-- No praise looks at the configuration. -/
theorem PraiseDetector.notes_under {d : PraiseDetector} (hd : d ∈ all)
    (s : Subject) (config : Config) : d.notes (s.under config) = d.notes s := by
  simp only [all, List.mem_cons, List.not_mem_nil, or_false] at hd
  rcases hd with rfl | rfl | rfl | rfl | rfl <;> rfl

/-! ## Detectors that measure -/

namespace Detector

/-- The names of the detectors that measure against a threshold. -/
def measuring : List String :=
  [fileSize.name, longLines.name, longBlocks.name, complexBlocks.name]

/-- Whether a detector never looks at the configuration. -/
def Fixed (d : Detector) : Prop :=
  ∀ (s : Subject) (config : Config), d.findings (s.under config) = d.findings s

/-- A detector that does not look at the configuration reports the same
    under any. -/
theorem Fixed.reports_under {d : Detector} (h : d.Fixed) (s : Subject)
    (config : Config) : d.reports (s.under config) = d.reports s := by
  rw [reports, reports, run, run, h]

/-- Whether a detector reports in every place again under thresholds that
    are not above those of the file. -/
def Antitone (d : Detector) : Prop :=
  ∀ (s : Subject) (config : Config), s.BlocksWithin → config.AtMost s.config →
    ∀ f ∈ d.reports s, ∃ g ∈ d.reports (s.under config),
      g.file = f.file ∧ g.line = f.line

/-- What is reported under every configuration is reported again under lower
    thresholds. -/
theorem Fixed.antitone {d : Detector} (h : d.Fixed) : d.Antitone := by
  intro s config _ _ f hf
  rw [h.reports_under]
  exact ⟨f, hf, rfl, rfl⟩

/-- A detector that cannot fail, by what it finds. -/
theorem antitone_of_ok {d : Detector} {rules : List Rule}
    {found : Subject → List Finding} (hfollows : d.Follows rules)
    (hsaid : ∀ r ∈ rules, r.IsSaid) (hd : ∀ s, d.findings s = .ok (found s))
    (hfound : ∀ (s : Subject) (config : Config), config.AtMost s.config →
      ∀ f ∈ found s, ∃ g ∈ found (s.under config),
        g.file = f.file ∧ g.line = f.line) :
    d.Antitone := by
  have hreports (s : Subject) (hblocks : s.BlocksWithin) :
      d.reports s = found s :=
    Except.ok.inj ((hfollows.reports hsaid hblocks).1.symm.trans (hd s))
  intro s config hblocks hle f hf
  rw [hreports s hblocks] at hf
  rw [hreports (s.under config) hblocks]
  exact hfound s config hle f hf

/-- A file above a bound is above every lower one. -/
theorem fileSize_antitone : fileSize.Antitone := by
  refine antitone_of_ok fileSize_follows (by decide) (fun s => rfl) ?_
  intro s config hle f hf
  have hmem : f ∈ if s.lines.length ≤ s.config.maxFileSize then [] else [_] := hf
  by_cases hsmall : s.lines.length ≤ s.config.maxFileSize
  · rw [if_pos hsmall] at hmem
    exact nomatch hmem
  · rw [if_neg hsmall] at hmem
    have hlarge : ¬ s.lines.length ≤ config.maxFileSize :=
      fun h => hsmall (Nat.le_trans h hle.file_le)
    show ∃ g ∈ if s.lines.length ≤ config.maxFileSize then [] else [_], _
    rw [if_neg hlarge, List.mem_singleton.mp hmem]
    exact ⟨_, List.mem_singleton_self _, rfl, rfl⟩

/-- A line above a bound is above every lower one, and the finding stays on
    that line. -/
theorem longLines_antitone : longLines.Antitone := by
  refine antitone_of_ok longLines_follows (by decide) (fun s => rfl) ?_
  intro s config hle f hf
  obtain ⟨⟨line, index⟩, hmem, hsome⟩ := List.mem_filterMap.mp hf
  obtain ⟨hlong, heq⟩ := Option.ite_none_right_eq_some.mp hsome
  refine ⟨_, List.mem_filterMap.mpr ⟨(line, index), hmem, if_pos ?_⟩, ?_⟩
  · exact Nat.lt_of_le_of_lt hle.line_le hlong
  · rw [← Option.some.inj heq]
    exact ⟨rfl, rfl⟩

/-- A method above a bound is above every lower one, and the finding stays
    at its head. -/
theorem longBlocks_antitone : longBlocks.Antitone := by
  refine antitone_of_ok longBlocks_follows (by decide) (fun s => rfl) ?_
  intro s config hle f hf
  obtain ⟨block, hblock, rfl⟩ := List.mem_map.mp hf
  obtain ⟨hmem, hlong⟩ := List.mem_filter.mp hblock
  have hlong' : config.maxMethodLength < block.lineCount :=
    Nat.lt_of_le_of_lt hle.method_le (of_decide_eq_true hlong)
  refine ⟨_, List.mem_map.mpr ⟨block, List.mem_filter.mpr ⟨hmem, ?_⟩, rfl⟩, ?_⟩
  · exact decide_eq_true hlong'
  · exact ⟨rfl, rfl⟩

/-- A method with more branches than a bound has more than every lower
    one. -/
theorem complexBlocks_antitone : complexBlocks.Antitone := by
  refine antitone_of_ok complexBlocks_follows (by decide) (fun s => rfl) ?_
  intro s config hle f hf
  obtain ⟨block, hblock, hsome⟩ := List.mem_filterMap.mp hf
  obtain ⟨hhigh, heq⟩ := Option.ite_none_right_eq_some.mp hsome
  refine ⟨_, List.mem_filterMap.mpr ⟨block, hblock, if_pos ?_⟩, ?_⟩
  · have hlt : (s.config.complexityThreshold : Int)
        < Complexity.estimate s.language block.body := of_decide_eq_true hhigh
    exact decide_eq_true
      (Int.lt_of_le_of_lt (Int.ofNat_le.mpr hle.complexity_le) hlt)
  · rw [← Option.some.inj heq]
    exact ⟨rfl, rfl⟩

end Detector

/-! ## The catalogue -/

namespace Entry

/-- Every entry of the catalogue: four detectors measure, and the others
    never look at the configuration. -/
theorem measures_or_fixed :
    catalogue.Forall fun e =>
      e.detector.name ∈ measuring ∧ e.detector.Antitone ∨ e.detector.Fixed := by
  refine ⟨.inl ⟨by decide, fileSize_antitone⟩,
    .inl ⟨by decide, longLines_antitone⟩, .inl ⟨by decide, longBlocks_antitone⟩,
    .inl ⟨by decide, complexBlocks_antitone⟩, ?_, ?_, ?_, ?_, ?_, ?_, ?_, ?_, ?_,
    ?_, ?_, ?_, ?_, ?_, ?_, ?_, ?_, ?_, ?_, ?_, ?_, ?_, ?_, ?_, ?_, ?_, ?_, ?_,
    ?_, ?_, ?_⟩
  all_goals exact .inr fun _ _ => rfl

/-- Of the detectors of a language, only the four that measure look at the
    configuration. -/
theorem fixed_of_not_measuring {language : Language} {d : Detector}
    (hd : d ∈ ofLanguage (some language)) (hname : d.name ∉ measuring) :
    d.Fixed := by
  obtain ⟨e, he, rfl⟩ := exists_entry hd
  rcases List.forall_iff_forall_mem.mp measures_or_fixed e
    (List.mem_filter.mp he).1 with hmeasures | hfixed
  · exact absurd hmeasures.1 hname
  · exact hfixed

/-- Every detector of a language reports in every place again under lower
    thresholds: the four that measure by their own lemmas, the others
    because nothing changes for them. -/
theorem antitone {language : Language} {d : Detector}
    (hd : d ∈ ofLanguage (some language)) : d.Antitone := by
  obtain ⟨e, he, rfl⟩ := exists_entry hd
  rcases List.forall_iff_forall_mem.mp measures_or_fixed e
    (List.mem_filter.mp he).1 with hmeasures | hfixed
  · exact hmeasures.2
  · exact hfixed.antitone

/-- No detector looks at the number of findings that a report shows. -/
theorem findings_showing (limit : Nat) (s : Subject) :
    catalogue.Forall fun e =>
      e.detector.findings (s.under (s.config.showing limit))
        = e.detector.findings s := by
  refine ⟨?_, ?_, ?_, ?_, ?_, ?_, ?_, ?_, ?_, ?_, ?_, ?_, ?_, ?_, ?_, ?_, ?_,
    ?_, ?_, ?_, ?_, ?_, ?_, ?_, ?_, ?_, ?_, ?_, ?_, ?_, ?_, ?_, ?_, ?_, ?_⟩
  all_goals rfl

/-- What a measuring detector reports is not about security or
    performance. -/
theorem category_of_measuring :
    ∀ e ∈ catalogue, e.detector.name ∈ measuring →
      ∀ r ∈ e.rules, r.category ≠ .security ∧ r.category ≠ .performance := by
  decide +kernel

end Entry

/-! ## Reviews that differ in what they lose -/

namespace Review

/-- Whether a finding suppresses observations. -/
def Gating (f : Finding) : Prop :=
  f.category = .security ∨ f.category = .performance

/-- A review holds the findings that were produced: only copies are
    dropped. -/
theorem mem_allFindings_review {input : ReviewInput} {paths : List String}
    {f : Finding} :
    f ∈ (review input paths).value.allFindings ↔ f ∈ produced input paths := by
  have hclasses := Aggregator.sameClasses_allFindings
    (findings_review_produced input paths)
  rw [hclasses.perm.mem_iff, Finding.mem_distinct_iff]
  exact fun f hf g hg => eq_of_mem_produced hf hg

/-- The counts of a review are those of the produced findings without their
    copies. -/
theorem counts_review_produced (input : ReviewInput) (paths : List String) :
    (review input paths).value.counts
      = Aggregator.countSeverities
          (Finding.distinct (produced input paths)) := by
  rw [counts_review, produced, flatMap_analyses,
    Finding.distinct_flatMap_eraseDups]

variable {clean faulty : ReviewInput} {change : Subject → Subject}
  {lost : Subject → List Finding}

/-- The files that are read stay the same, apart from the change to each. -/
theorem filesRead_of_loses (h : Loses clean faulty change lost)
    (paths : List String) :
    filesRead faulty paths = (filesRead clean paths).map change := by
  rw [← map_subject_analyses, ← map_subject_analyses, analyses_of_loses h,
    List.map_map, List.map_map]
  rfl

/-- Losing findings that are not gating keeps the gate as it is. -/
theorem isGated_of_loses (h : Loses clean faulty change lost)
    (hgate : ∀ s, s.BlocksWithin → ∀ f ∈ lost s, ¬ Gating f)
    (paths : List String) :
    IsGated (review faulty paths).value ↔ IsGated (review clean paths).value := by
  refine exists_congr fun f => and_congr_left fun hgating => ?_
  rw [mem_allFindings_review, mem_allFindings_review, produced_of_loses h,
    List.mem_filter, decide_eq_true_eq, and_iff_left_iff_imp]
  intro _ hmem
  obtain ⟨r, hr, hlost⟩ := List.mem_flatMap.mp hmem
  obtain ⟨_, hanalysis⟩ := exists_isAnalysis (analysisAt?_of_mem_analyses hr)
  exact hgate r.subject hanalysis.blocks_within f hlost hgating

/-- A review that loses no gating finding and notes the same about each file
    observes the same. -/
theorem positives_of_loses (h : Loses clean faulty change lost)
    (hgate : ∀ s, s.BlocksWithin → ∀ f ∈ lost s, ¬ Gating f)
    (hnotes : ∀ s, ∀ d ∈ PraiseDetector.all,
      faulty.faults.notes (change s) d = clean.faults.notes s d)
    (paths : List String) :
    (review faulty paths).value.positives
      = (review clean paths).value.positives := by
  have hread := filesRead_of_loses h paths
  have hgated := isGated_of_loses h hgate paths
  have hall : notesOn faulty.faults (filesRead faulty paths)
      = notesOn clean.faults (filesRead clean paths) := by
    rw [hread, notesOn, notesOn, List.flatMap_map]
    exact List.flatMap_congr fun s _ => List.flatMap_congr (hnotes s)
  -- the gate is open for both reviews or for neither
  by_cases hopen : filesRead clean paths ≠ []
      ∧ ¬ IsGated (review clean paths).value
  · have hopen' : filesRead faulty paths ≠ [] := by
      rw [hread]
      exact fun hnil => hopen.1 (List.map_eq_nil_iff.mp hnil)
    rw [positives_review hopen.1 hopen.2,
      positives_review hopen' fun hfaulty => hopen.2 (hgated.mp hfaulty), hall]
  · rw [not_and_or, not_not, not_not] at hopen
    rw [positives_review_of_gated hopen, positives_review_of_gated]
    rw [hread, List.map_eq_nil_iff, hgated]
    exact hopen

/-- Where nothing is lost, the results are equal. -/
theorem value_review_of_loses_nil (h : Loses clean faulty change fun _ => [])
    (hnotes : ∀ s, ∀ d ∈ PraiseDetector.all,
      faulty.faults.notes (change s) d = clean.faults.notes s d)
    (paths : List String) :
    (review faulty paths).value = (review clean paths).value := by
  have hnone : gather clean paths (fun _ => []) = [] := by
    rw [gather, List.flatMap_eq_nil_iff]
    exact fun _ _ => rfl
  -- nothing is lost, so the same findings are produced
  have hproduced : produced faulty paths = produced clean paths := by
    rw [produced_of_loses h, hnone]
    exact List.filter_eq_self.mpr fun _ _ => rfl
  have hpositives := positives_of_loses h
    (fun _ _ _ hf => absurd hf List.not_mem_nil) hnotes paths
  have hfindings : (review faulty paths).value.findings
      = (review clean paths).value.findings := by
    rw [findings_review_produced, findings_review_produced, hproduced]
  have hcounts : (review faulty paths).value.counts
      = (review clean paths).value.counts := by
    rw [counts_review_produced, counts_review_produced, hproduced]
  cases hfaulty : (review faulty paths).value
  cases hclean : (review clean paths).value
  rw [hfaulty, hclean] at hfindings hcounts hpositives
  rw [ReviewResult.mk.injEq]
  exact ⟨hfindings, hcounts, hpositives⟩

/-! ## Other thresholds -/

/-- The input with further detectors made to fail. -/
def silencing (input : ReviewInput) (names : List String) : ReviewInput :=
  input.withFaults { input.faults with
    detectors := input.faults.detectors ++ names.map (·, "") }

/-- What fails then is what failed before and the further detectors. -/
theorem mem_names_silencing {input : ReviewInput} {names : List String}
    {name : String} :
    name ∈ (silencing input names).faults.names
      ↔ name ∈ input.faults.names ∨ name ∈ names := by
  have hnames : (silencing input names).faults.names
      = input.faults.names ++ names := by
    show List.map _ (input.faults.detectors ++ names.map (·, "")) = _
    rw [List.map_append, List.map_map]
    exact congrArg (input.faults.names ++ ·) (List.map_id names)
  rw [hnames, List.mem_append]

/-- A review with further detectors failing loses exactly what they
    report. -/
theorem loses_silencing (input : ReviewInput) (names : List String) :
    Loses input (silencing input names) id (·.reportsOf names) :=
  loses_of_names input rfl fun _ => mem_names_silencing

/-- The input with the measuring detectors made to fail. -/
def muted (input : ReviewInput) : ReviewInput := silencing input measuring

/-- The four detectors that measure report nothing that suppresses
    observations, so positives do not depend on thresholds. -/
theorem not_gating_of_measuring {s : Subject} (hblocks : s.BlocksWithin) :
    ∀ f ∈ s.reportsOf measuring, ¬ Gating f := by
  intro f hf hgating
  obtain ⟨d, hd, hname, hf⟩ := Subject.mem_reportsOf.mp hf
  cases hlanguage : s.language with
  | none =>
      rw [hlanguage] at hd
      exact nomatch hd
  | some language =>
      rw [hlanguage] at hd
      obtain ⟨e, he, rfl⟩ := Entry.exists_entry hd
      have hmem := (List.mem_filter.mp he).1
      obtain ⟨r, hr, hcovers⟩ := (reported_of_mem_reports hblocks hmem hf).covered
      have hcategory := Entry.category_of_measuring e hmem hname r hr
      rw [← hcovers.category_eq] at hcategory
      exact hgating.elim hcategory.1 hcategory.2

/-- Making the measuring detectors fail changes no observation. -/
theorem positives_muted (input : ReviewInput) (paths : List String) :
    (review (muted input) paths).value.positives
      = (review input paths).value.positives := by
  refine positives_of_loses (loses_silencing input measuring)
    (fun _ => not_gating_of_measuring) ?_ paths
  intro s d hd
  have hname : d.name ∉ measuring := by
    have hnames : ∀ d ∈ PraiseDetector.all, d.name ∉ measuring := by decide
    exact hnames d hd
  have hmuted : d.name ∈ (silencing input measuring).faults.names
      ↔ d.name ∈ input.faults.names :=
    mem_names_silencing.trans (or_iff_left hname)
  rw [Faults.notes, Faults.notes, ite_cond_congr (propext hmuted)]
  rfl

/-- Under another configuration the same paths are read, each as the same
    file. -/
theorem subjectAt?_under {c c' : Config} (h : c.SameIgnores c')
    (input : ReviewInput) (path : String) :
    subjectAt? (input.under c') path
      = (subjectAt? (input.under c) path).map (·.under c') := by
  rw [subjectAt?, subjectAt?, Option.map_bind]
  show (Candidate.check _ c' _ _).value.bind _
    = (Candidate.check _ c _ _).value.bind _
  rw [h.check_eq]
  simp only [value_subject?, Function.comp_def, Option.map_map]
  rfl

/-- If the detectors that do not fail report the same about two files of one
    language, the findings about them are the same. -/
theorem value_detectAll_congr {faults : Faults} {s s' : Subject}
    (hlanguage : s'.language = s.language)
    (h : ∀ d ∈ ofLanguage s.language, d.name ∉ faults.names →
      d.reports s' = d.reports s) :
    (detectAll faults s').value
      = (detectAll faults s).value.filter (· ∉ []) := by
  rw [show (detectAll faults s).value.filter (· ∉ []) = (detectAll faults s).value
    from List.filter_eq_self.mpr fun _ _ => rfl]
  rw [value_detectAll, value_detectAll, hlanguage]
  refine List.flatMap_congr ?_
  intro d hd
  split
  · rfl
  · rename_i hname
    exact h d hd hname

/-- What the other detectors find does not depend on thresholds. -/
theorem loses_under {c c' : Config} (h : c.SameIgnores c')
    (input : ReviewInput) :
    Loses (muted (input.under c)) (muted (input.under c')) (·.under c')
      fun _ => [] where
  subjects := subjectAt?_under h (muted input)
  findings := by
    intro s language _ hlanguage
    refine value_detectAll_congr rfl ?_
    intro d hd hname
    have hname' : d.name ∉ measuring :=
      fun hmeasuring => hname (mem_names_silencing.mpr (.inr hmeasuring))
    exact (Entry.fixed_of_not_measuring (hlanguage ▸ hd) hname').reports_under s c'
  about := fun _ _ _ hf => nomatch hf

/-- A detector of praise notes the same under another configuration. -/
theorem notes_under {faults : Faults} {d : PraiseDetector}
    (hd : d ∈ PraiseDetector.all) (s : Subject) (config : Config) :
    faults.notes (s.under config) d = faults.notes s d := by
  rw [Faults.notes, Faults.notes, PraiseDetector.notes_under hd]

/-- Without the four that measure, two configurations that ignore the same
    files give the same result. -/
theorem value_review_muted {c c' : Config} (h : c.SameIgnores c')
    (input : ReviewInput) (paths : List String) :
    (review (muted (input.under c')) paths).value
      = (review (muted (input.under c)) paths).value :=
  value_review_of_loses_nil (loses_under h input)
    (fun s _ hd => notes_under hd s c') paths

/-- A file is reviewed under the configuration of the review. -/
theorem config_of_subjectAt? {input : ReviewInput} {path : String}
    {s : Subject} (h : subjectAt? input path = some s) :
    s.config = input.config := by
  obtain ⟨c, -, hs⟩ := Option.bind_eq_some_iff.mp h
  rw [value_subject?] at hs
  obtain ⟨content, -, rfl⟩ := Option.map_eq_some_iff.mp hs
  rfl

/-- Showing another number of findings loses nothing in a review. -/
theorem loses_showing (input : ReviewInput) (limit : Nat) :
    Loses input (input.under (input.config.showing limit))
      (fun s => s.under (s.config.showing limit)) fun _ => [] where
  subjects := by
    intro path
    refine (subjectAt?_under (input.config.sameIgnores_showing limit) input
      path).trans ?_
    refine Option.map_congr ?_
    intro s hs
    rw [config_of_subjectAt? hs]
    rfl
  findings := by
    intro s language _ hlanguage
    refine value_detectAll_congr rfl ?_
    intro d hd _
    have hd' : d ∈ ofLanguage (some language) := hlanguage ▸ hd
    obtain ⟨e, he, rfl⟩ := Entry.exists_entry hd'
    have hfindings := List.forall_iff_forall_mem.mp
      (Entry.findings_showing limit s) e (List.mem_filter.mp he).1
    rw [reports, reports, run, run, hfindings]
  about := fun _ _ _ hf => nomatch hf

/-- How many findings are shown does not change what a review finds. -/
theorem value_review_showing (input : ReviewInput) (paths : List String)
    (limit : Nat) :
    (review (input.under (input.config.showing limit)) paths).value
      = (review input paths).value :=
  value_review_of_loses_nil (loses_showing input limit)
    (fun s _ hd => notes_under hd s _) paths

/-! ## Higher thresholds -/

/-- The places of the findings of one detector in the result of a
    review. -/
def placesOf (input : ReviewInput) (paths : List String) (name : String) :
    List (String × Option Nat) :=
  ((review input paths).value.allFindings.filter
    (· ∈ producedBy input paths [name])).map fun f => (f.file, f.line)

/-- A finding of a detector in the result of a review is reported about a
    file that was analysed, by a detector that does not fail. -/
theorem exists_reporter {input : ReviewInput} {paths : List String}
    {name : String} {f : Finding}
    (hf : f ∈ (review input paths).value.allFindings)
    (hname : f ∈ producedBy input paths [name]) :
    ∃ r ∈ analyses input paths, ∃ d ∈ ofLanguage r.subject.language,
      d.name = name ∧ d.name ∉ input.faults.names
        ∧ f ∈ d.reports r.subject := by
  obtain ⟨r, hr, hfound⟩ := List.mem_flatMap.mp (mem_allFindings_review.mp hf)
  obtain ⟨language, hanalysis⟩ :=
    exists_isAnalysis (analysisAt?_of_mem_analyses hr)
  have hreports : f ∈ r.subject.reportsOf [name] :=
    (mem_gather_iff (loses_silencing input [name]) hr hfound).mp hname
  obtain ⟨d, hd, hnamed, hreport⟩ := Subject.mem_reportsOf.mp hreports
  rw [hanalysis.findings_eq, value_detectAll] at hfound
  obtain ⟨d', hd', hfound⟩ := List.mem_flatMap.mp hfound
  split at hfound
  · exact nomatch hfound
  · rename_i hworks
    -- the detector that works is the one with the name
    have hsame : d' = d := by
      rw [hanalysis.language_eq] at hd hd'
      exact eq_of_mem_reports hanalysis.blocks_within hd' hd hfound hreport
    subst hsame
    exact ⟨r, hr, d', hd', List.mem_singleton.mp hnamed, hworks, hfound⟩

/-- What a detector that does not fail reports about a file that was
    analysed has its place in the result. -/
theorem mem_placesOf {input : ReviewInput} {paths : List String}
    {r : FileReview} (hr : r ∈ analyses input paths) {d : Detector}
    (hd : d ∈ ofLanguage r.subject.language)
    (hworks : d.name ∉ input.faults.names) {f : Finding}
    (hf : f ∈ d.reports r.subject) :
    (f.file, f.line) ∈ placesOf input paths d.name := by
  obtain ⟨_, hanalysis⟩ := exists_isAnalysis (analysisAt?_of_mem_analyses hr)
  have hfound : f ∈ r.findings := by
    rw [hanalysis.findings_eq, value_detectAll]
    exact List.mem_flatMap.mpr ⟨d, hd, by rw [if_neg hworks]; exact hf⟩
  have hresult : f ∈ (review input paths).value.allFindings :=
    mem_allFindings_review.mpr (List.mem_flatMap.mpr ⟨r, hr, hfound⟩)
  have hproduced : f ∈ producedBy input paths [d.name] :=
    List.mem_flatMap.mpr ⟨r, hr,
      Subject.mem_reportsOf.mpr ⟨d, hd, List.mem_singleton_self _, hf⟩⟩
  exact List.mem_map.mpr
    ⟨f, List.mem_filter.mpr ⟨hresult, decide_eq_true hproduced⟩, rfl⟩

/-- A file that is analysed under one configuration is analysed under
    another one that ignores the same. -/
theorem exists_analysis_under {c c' : Config} (h : c.SameIgnores c')
    {input : ReviewInput} {paths : List String} {r : FileReview}
    (hr : r ∈ analyses (input.under c') paths) :
    r.subject.config = c'
      ∧ ∃ r' ∈ analyses (input.under c) paths,
          r'.subject = r.subject.under c := by
  rw [analyses_eq] at hr
  obtain ⟨path, hpath, hat⟩ := List.mem_filterMap.mp hr
  rw [analysisAt?_eq] at hat
  obtain ⟨s, hs, rfl⟩ := Option.map_eq_some_iff.mp hat
  have hsame : c'.SameIgnores c := ⟨h.dirs_eq.symm, h.files_eq.symm⟩
  have hs' : subjectAt? (input.under c) path = some (s.under c) := by
    rw [subjectAt?_under hsame, hs]
    rfl
  refine ⟨config_of_subjectAt? hs,
    ⟨s.under c, (detectAll input.faults (s.under c)).value⟩, ?_, rfl⟩
  rw [analyses_eq]
  refine List.mem_filterMap.mpr ⟨path, hpath, ?_⟩
  rw [analysisAt?_eq, hs']
  rfl

/-- With higher thresholds, a detector reports in no new place. -/
theorem placesOf_subset {c c' : Config} (h : c.SameIgnores c')
    (hle : c.AtMost c') (input : ReviewInput) (paths : List String)
    (name : String) :
    placesOf (input.under c') paths name ⊆ placesOf (input.under c) paths name := by
  intro place hplace
  obtain ⟨f, hf, rfl⟩ := List.mem_map.mp hplace
  obtain ⟨hresult, hproduced⟩ := List.mem_filter.mp hf
  obtain ⟨r, hr, d, hd, rfl, hworks, hreport⟩ :=
    exists_reporter hresult (of_decide_eq_true hproduced)
  obtain ⟨language, hanalysis⟩ :=
    exists_isAnalysis (analysisAt?_of_mem_analyses hr)
  obtain ⟨hconfig, r', hr', hsubject⟩ := exists_analysis_under h hr
  have hantitone : d.Antitone := by
    rw [hanalysis.language_eq] at hd
    exact Entry.antitone hd
  obtain ⟨g, hg, hfile, hline⟩ := hantitone r.subject c
    hanalysis.blocks_within (hconfig ▸ hle) f hreport
  rw [← hsubject] at hg
  have hd' : d ∈ ofLanguage r'.subject.language := by
    rw [hsubject]
    exact hd
  rw [← hfile, ← hline]
  exact mem_placesOf hr' hd' hworks hg

end Review

/-- **THRESHOLDS**: two reviews of a batch under configurations that ignore
    the same observe the same, and find the same apart from what the
    measuring detectors find.  Where no threshold is lower, those report in
    no new place.  How many findings a report shows never matters. -/
theorem review_under_thresholds (input : ReviewInput) (paths : List String)
    {c c' : Config} (h : c.SameIgnores c') :
    let result := (review (input.under c) paths).value
    let result' := (review (input.under c') paths).value
    result'.positives = result.positives
      ∧ bucketsWithout
            (Review.producedBy (input.under c') paths measuring) result'.findings
          = bucketsWithout
            (Review.producedBy (input.under c) paths measuring) result.findings
      ∧ (c.AtMost c' → ∀ name ∈ measuring,
          Review.placesOf (input.under c') paths name
            ⊆ Review.placesOf (input.under c) paths name)
      ∧ ∀ limit,
          (review (input.under (c.showing limit)) paths).value = result := by
  intro result result'
  -- without the detectors that measure both reviews are the same, and each
  -- review differs from that one only by their findings
  have hmuted := Review.value_review_muted h input paths
  have hrest (config : Config) :
      bucketsWithout (Review.producedBy (input.under config) paths measuring)
          (review (input.under config) paths).value.findings
        = (review (Review.muted (input.under config)) paths).value.findings :=
    (review_of_loses (Review.loses_silencing (input.under config) measuring)
      paths).1.symm
  refine ⟨?_, ?_, ?_, ?_⟩
  · exact ((Review.positives_muted (input.under c') paths).symm.trans
      (congrArg (·.positives) hmuted)).trans
        (Review.positives_muted (input.under c) paths)
  · exact ((hrest c').trans (congrArg (·.findings) hmuted)).trans (hrest c).symm
  · exact fun hle name _ => Review.placesOf_subset h hle input paths name
  · exact fun limit => Review.value_review_showing (input.under c) paths limit

/-- A project with one page, an image in a line of five characters. -/
def pageInput : ReviewInput where
  -- `<img>`
  tree := { files := [(["page.erb"], [60, 105, 109, 103, 62])] }

/-- The line is too long for four characters and not for five; what else is
    found about the page stays. -/
theorem review_page_under_thresholds :
    let narrow : Config := { maxLineLength := 4 }
    let wide : Config := { maxLineLength := 5 }
    let result := (review (pageInput.under narrow) ["page.erb"]).value
    let result' := (review (pageInput.under wide) ["page.erb"]).value
    (result'.positives = result.positives
      ∧ bucketsWithout
            (Review.producedBy (pageInput.under wide) ["page.erb"] measuring)
            result'.findings
          = bucketsWithout
            (Review.producedBy (pageInput.under narrow) ["page.erb"] measuring)
            result.findings
      ∧ (narrow.AtMost wide → ∀ name ∈ measuring,
          Review.placesOf (pageInput.under wide) ["page.erb"] name
            ⊆ Review.placesOf (pageInput.under narrow) ["page.erb"] name)
      ∧ ∀ limit,
          (review (pageInput.under (narrow.showing limit)) ["page.erb"]).value
            = result)
    ∧ narrow.AtMost wide
    ∧ Review.placesOf (pageInput.under narrow) ["page.erb"] longLines.name
        = [("page.erb", some 1)]
    ∧ Review.placesOf (pageInput.under wide) ["page.erb"] longLines.name = []
    ∧ result'.allFindings.map (·.category) = [.accessibility] := by
  intro narrow wide result result'
  refine ⟨review_under_thresholds pageInput ["page.erb"] ⟨rfl, rfl⟩,
    ⟨by decide, by decide, by decide, by decide⟩, ?_, ?_, ?_⟩
  · decide +kernel
  · decide +kernel
  · decide +kernel

end CodeReview
