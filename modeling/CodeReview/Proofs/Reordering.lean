import CodeReview.Proofs.Observations

/-! # The order of the paths

    Two lists of paths that hold the same files, in any order and with any
    copies, lead to reviews that differ in the order of what they list and
    in nothing else.  The files of a batch share no keys, so what a review
    keeps is what is kept of each file by itself, file after file
    (`Review.distinct_produced`): other paths rearrange these parts, and each
    part stays as it is. -/

namespace CodeReview

open Finding Aggregator

/-- Lists with the same elements hold the same without their copies. -/
theorem eraseDups_perm {α : Type} [BEq α] [LawfulBEq α] {xs ys : List α}
    (h : ∀ x, x ∈ xs ↔ x ∈ ys) : xs.eraseDups.Perm ys.eraseDups := by
  rw [List.perm_ext_iff_of_nodup (nodup_eraseDups xs) (nodup_eraseDups ys)]
  intro x
  rw [List.mem_eraseDups, List.mem_eraseDups, h]

/-! ## File by file -/

namespace Finding

/-- Findings are listed file by file: those of a file stand together, and
    the files come in the order of their first occurrences. -/
def ByFile (files : List String) (findings : List Finding) : Prop :=
  findings
    = files.eraseDups.flatMap fun file => findings.filter (·.file = file)

section Parts

variable {files : List String} {part : String → List Finding}

/-- Parts about different files share no key. -/
theorem distinct_flatMap_of_file (hfiles : files.Nodup)
    (hpart : ∀ file ∈ files, ∀ f ∈ part file, f.file = file) :
    distinct (files.flatMap part)
      = files.flatMap fun file => distinct (part file) := by
  induction files with
  | nil => rfl
  | cons file rest ih =>
      rw [List.nodup_cons] at hfiles
      have hrest := ih hfiles.2 fun other hother =>
        hpart other (List.mem_cons_of_mem file hother)
      rw [List.flatMap_cons, List.flatMap_cons, distinct_append, ← hrest,
        List.filter_eq_self.mpr]
      intro f hf
      refine decide_eq_true fun hkey => hfiles.1 ?_
      obtain ⟨g, hg, hsame⟩ := List.mem_map.mp hkey
      obtain ⟨other, hother, hf⟩ :=
        List.mem_flatMap.mp ((distinct_sublist _).subset hf)
      -- both findings are about the file of the key
      have hfile : file = other :=
        calc file = g.file := (hpart file List.mem_cons_self g hg).symm
          _ = f.file := congrArg (·.1) hsame
          _ = other := hpart other (List.mem_cons_of_mem file hother) f hf
      exact hfile ▸ hother

/-- The findings about a file are those of its part. -/
theorem filter_file_flatMap (hfiles : files.Nodup)
    (hpart : ∀ file ∈ files, ∀ f ∈ part file, f.file = file)
    (file : String) :
    (files.flatMap part).filter (·.file = file)
      = if file ∈ files then part file else [] := by
  induction files with
  | nil => rfl
  | cons first rest ih =>
      rw [List.nodup_cons] at hfiles
      have hfirst := hpart first List.mem_cons_self
      rw [List.flatMap_cons, List.filter_append, ih hfiles.2 fun other hother =>
        hpart other (List.mem_cons_of_mem first hother)]
      by_cases hfile : file = first
      · -- the part of the file itself; the file does not come again
        have hall : (part first).filter (·.file = file) = part first := by
          refine List.filter_eq_self.mpr ?_
          intro f hf
          exact decide_eq_true ((hfirst f hf).trans hfile.symm)
        rw [hall, hfile, if_neg hfiles.1, if_pos List.mem_cons_self,
          List.append_nil]
      · -- the part of another file
        have hnone : (part first).filter (·.file = file) = [] := by
          refine List.filter_eq_nil_iff.mpr ?_
          intro f hf heq
          exact hfile ((of_decide_eq_true heq).symm.trans (hfirst f hf))
        rw [hnone, List.nil_append]
        simp only [List.mem_cons, hfile, false_or]

/-- Parts that are each about their own file, listed file after file, stand
    file by file. -/
theorem byFile_flatMap
    (hpart : ∀ file ∈ files, ∀ f ∈ part file, f.file = file) :
    ByFile files (files.eraseDups.flatMap part) := by
  refine List.flatMap_congr ?_
  intro file hfile
  rw [filter_file_flatMap (nodup_eraseDups files)
    (fun other hother => hpart other (List.mem_eraseDups.mp hother)),
    if_pos hfile]

end Parts

end Finding

/-! ## What is kept of each file -/

/-- The findings of a category that have a severity, in the order of the
    bucket. -/
def ReviewResult.graded (r : ReviewResult) (category : Category)
    (severity : Severity) : List Finding :=
  (r.bucket category).filter (·.severity = severity)

namespace Review

variable {input : ReviewInput} {paths : List String}

/-- What is found at a path is about the file there. -/
theorem file_of_mem_findingsAt {path : String}
    (hpath : path ∈ Candidate.normal paths) {f : Finding}
    (hf : f ∈ findingsAt input path) : f.file = path := by
  obtain ⟨given, _, rfl⟩ := List.mem_map.mp hpath
  cases hr : analysisAt? input (Path.parse given).posix with
  | none =>
      rw [findingsAt, hr] at hf
      exact nomatch hf
  | some r =>
      rw [findingsAt, hr] at hf
      obtain ⟨language, hanalysis⟩ := exists_isAnalysis hr
      have hf' : f ∈ (detectAll input.faults r.subject).value :=
        hanalysis.findings_eq ▸ hf
      have hreported := reported_of_mem_detectAll hanalysis.blocks_within
        hanalysis.language_eq hf'
      rw [hreported.located.file_eq, hanalysis.path_eq, Path.parse_posix_parse]

/-- What is kept of the file at a path. -/
def keptAt (input : ReviewInput) (path : String) : List Finding :=
  distinct (findingsAt input path)

/-- What is kept of a path is about its file. -/
theorem file_of_mem_keptAt {path : String}
    (hpath : path ∈ Candidate.normal paths) {f : Finding}
    (hf : f ∈ keptAt input path) : f.file = path := by
  rw [keptAt] at hf
  exact file_of_mem_findingsAt hpath ((distinct_sublist _).subset hf)

/-- What a review keeps, file after file. -/
theorem distinct_produced (input : ReviewInput) (paths : List String) :
    distinct (produced input paths)
      = (Candidate.normal paths).eraseDups.flatMap (keptAt input) := by
  rw [produced, flatMap_analyses]
  refine distinct_flatMap_of_file (nodup_eraseDups _) ?_
  intro file hfile f hf
  exact file_of_mem_findingsAt (List.mem_eraseDups.mp hfile) hf

/-- The findings of a category and a severity are those kept of each file,
    file after file. -/
theorem graded_review (input : ReviewInput) (paths : List String)
    (category : Category) (severity : Severity) :
    (review input paths).value.graded category severity
      = (Candidate.normal paths).eraseDups.flatMap fun path =>
          (keptAt input path).filter (isIn category severity) := by
  rw [ReviewResult.graded, ReviewResult.bucket, findings_review_produced,
    getD_lookup_buckets, shelf, filter_sortBySeverity, ← filter_isIn,
    distinct_produced, List.filter_flatMap]

/-- The findings of a review are listed file by file. -/
theorem byFile_graded (input : ReviewInput) (paths : List String)
    (category : Category) (severity : Severity) :
    ByFile (Candidate.normal paths)
      ((review input paths).value.graded category severity) := by
  rw [graded_review]
  refine byFile_flatMap ?_
  intro path hpath f hf
  exact file_of_mem_keptAt hpath (List.mem_filter.mp hf).1

/-- The findings about a file do not depend on the other files. -/
theorem filter_file_graded (input : ReviewInput) (paths : List String)
    (category : Category) (severity : Severity) (file : String) :
    ((review input paths).value.graded category severity).filter
        (·.file = file)
      = if file ∈ Candidate.normal paths
        then (keptAt input file).filter (isIn category severity) else [] := by
  rw [graded_review, filter_file_flatMap (nodup_eraseDups _)]
  · simp only [List.mem_eraseDups]
  · intro path hpath f hf
    exact file_of_mem_keptAt (List.mem_eraseDups.mp hpath)
      (List.mem_filter.mp hf).1

end Review

/-! ## The same files in another order -/

/-- Two lists hold the same paths, up to the way they are written. -/
def Candidate.SamePaths (xs ys : List String) : Prop :=
  ∀ path, path ∈ normal xs ↔ path ∈ normal ys

/-- Two results differ at most in the order of what they list. -/
structure SameUpToOrder (r r' : ReviewResult) : Prop where
  counts_eq : r.counts = r'.counts
  isFailing_eq : r.isFailing = r'.isFailing
  bucket_perm : ∀ category, (r.bucket category).Perm (r'.bucket category)
  positives_perm : r.positives.Perm r'.positives

section SameFiles

variable {input : ReviewInput} {xs ys : List String}

/-- The same paths in another order produce the same findings without
    copies, up to order. -/
theorem distinct_produced_perm (h : Candidate.SamePaths xs ys) :
    (distinct (Review.produced input xs)).Perm
      (distinct (Review.produced input ys)) := by
  rw [Review.distinct_produced, Review.distinct_produced]
  exact (eraseDups_perm h).flatMap_right _

/-- The counts do not depend on the order of the paths. -/
theorem counts_review_congr (h : Candidate.SamePaths xs ys) :
    (review input xs).value.counts = (review input ys).value.counts := by
  have hcounts (paths : List String) : (review input paths).value.counts
      = countSeverities (distinct (Review.produced input paths)) := by
    rw [counts_review, Review.produced, Review.flatMap_analyses,
      distinct_flatMap_eraseDups]
  rw [hcounts, hcounts, countSeverities, countSeverities]
  congr 1
  funext severity
  rw [(distinct_produced_perm h).countP_eq]

/-- The bucket of a category does not depend on the order of the paths, up
    to its own order. -/
theorem bucket_review_perm (h : Candidate.SamePaths xs ys)
    (category : Category) :
    ((review input xs).value.bucket category).Perm
      ((review input ys).value.bucket category) := by
  have hbucket (paths : List String) :
      ((review input paths).value.bucket category).Perm
        ((distinct (Review.produced input paths)).filter
          (·.category = category)) := by
    rw [ReviewResult.bucket, findings_review_produced, getD_lookup_buckets]
    exact List.mergeSort_perm _ _
  exact (hbucket xs).trans
    (((distinct_produced_perm h).filter _).trans (hbucket ys).symm)

/-- The same files are read in either order. -/
theorem filesRead_perm (h : Candidate.SamePaths xs ys) :
    (Review.filesRead input xs).Perm (Review.filesRead input ys) := by
  rw [← Review.map_subject_analyses, ← Review.map_subject_analyses,
    Review.analyses_eq, Review.analyses_eq]
  exact ((eraseDups_perm h).filterMap _).map _

/-- Whether positives are held back does not depend on the order of the
    findings. -/
theorem isGated_congr {r r' : ReviewResult}
    (h : ∀ category, (r.bucket category).Perm (r'.bucket category)) :
    Review.IsGated r ↔ Review.IsGated r' := by
  have hperm : r.allFindings.Perm r'.allFindings :=
    List.Perm.flatMap_left _ fun category _ => h category
  exact exists_congr fun f => and_congr_left fun _ => hperm.mem_iff

/-- The same notes in another order make the same observations, up to
    order. -/
theorem observations_perm {notes notes' : List String}
    (h : notes.Perm notes') :
    (observations notes).Perm (observations notes') := by
  rw [observations, observations]
  by_cases hnone : notes = []
  · rw [if_pos hnone, if_pos (List.nil_perm.mp (hnone ▸ h))]
  · have hnone' : ¬ notes' = [] := fun hnil =>
      hnone (List.perm_nil.mp (hnil ▸ h))
    rw [if_neg hnone, if_neg hnone']
    exact eraseDups_perm fun _ => h.mem_iff

/-- The positives do not depend on the order of the paths, up to their own
    order. -/
theorem positives_review_perm (h : Candidate.SamePaths xs ys) :
    (review input xs).value.positives.Perm
      (review input ys).value.positives := by
  have hread : (Review.filesRead input xs).Perm (Review.filesRead input ys) :=
    filesRead_perm h
  have hgate : Review.IsGated (review input xs).value
      ↔ Review.IsGated (review input ys).value :=
    isGated_congr (bucket_review_perm h)
  by_cases hopen : Review.filesRead input xs ≠ []
      ∧ ¬ Review.IsGated (review input xs).value
  · have hread' : Review.filesRead input ys ≠ [] := fun hnil =>
      hopen.1 (List.perm_nil.mp (hnil ▸ hread))
    rw [positives_review hopen.1 hopen.2,
      positives_review hread' (mt hgate.mpr hopen.2)]
    exact observations_perm (hread.flatMap_right _)
  · rw [not_and_or, not_not, not_not] at hopen
    have hclosed : Review.filesRead input ys = []
        ∨ Review.IsGated (review input ys).value :=
      hopen.imp (fun hnil => List.nil_perm.mp (by rwa [hnil] at hread)) hgate.mp
    rw [positives_review_of_gated hopen, positives_review_of_gated hclosed]

/-- **ORDER INDEPENDENCE**: reviews of the same files differ only in the
    order of what they list.  Each lists the findings of a category and a
    severity file by file, in the order of its own paths, and the findings
    about one file in an order that both share. -/
theorem review_reordered (h : Candidate.SamePaths xs ys) :
    let r := (review input xs).value
    let r' := (review input ys).value
    SameUpToOrder r r'
      ∧ ∀ category severity,
          ByFile (Candidate.normal xs) (r.graded category severity)
          ∧ ByFile (Candidate.normal ys) (r'.graded category severity)
          ∧ ∀ file, (r.graded category severity).filter (·.file = file)
              = (r'.graded category severity).filter (·.file = file) := by
  intro r r'
  have hcounts : r.counts = r'.counts := counts_review_congr h
  refine ⟨⟨hcounts, ?_, bucket_review_perm h, positives_review_perm h⟩, ?_⟩
  · rw [ReviewResult.isFailing, ReviewResult.isFailing, ReviewResult.count?,
      ReviewResult.count?, hcounts]
  · intro category severity
    refine ⟨Review.byFile_graded input xs category severity,
      Review.byFile_graded input ys category severity, ?_⟩
    intro file
    rw [Review.filter_file_graded, Review.filter_file_graded]
    simp only [h file]

end SameFiles

/-- A project with two pages that show an image each. -/
def albumInput : ReviewInput where
  tree := { files := [
    -- `<img>`
    (["summer.erb"], [60, 105, 109, 103, 62]),
    (["winter.erb"], [60, 105, 109, 103, 62])] }

/-- The second page in front, and written in two ways. -/
theorem review_albums_reordered :
    Candidate.SamePaths ["summer.erb", "winter.erb"]
        ["./winter.erb", "summer.erb", "winter.erb"]
      ∧ SameUpToOrder
        (review albumInput ["summer.erb", "winter.erb"]).value
        (review albumInput ["./winter.erb", "summer.erb", "winter.erb"]).value
      ∧ (review albumInput ["summer.erb", "winter.erb"]).value.graded
          .accessibility .warning
        = [{ silentImage with file := "summer.erb" },
          { silentImage with file := "winter.erb" }]
      ∧ (review albumInput
          ["./winter.erb", "summer.erb", "winter.erb"]).value.graded
          .accessibility .warning
        = [{ silentImage with file := "winter.erb" },
          { silentImage with file := "summer.erb" }] := by
  have hpaths : Candidate.SamePaths ["summer.erb", "winter.erb"]
      ["./winter.erb", "summer.erb", "winter.erb"] := by
    have hxs : Candidate.normal ["summer.erb", "winter.erb"]
        = ["summer.erb", "winter.erb"] := by decide
    have hys : Candidate.normal ["./winter.erb", "summer.erb", "winter.erb"]
        = ["winter.erb", "summer.erb", "winter.erb"] := by decide
    intro path
    rw [hxs, hys]
    simp only [List.mem_cons, List.not_mem_nil, or_false]
    tauto
  refine ⟨hpaths, (review_reordered hpaths).1, ?_, ?_⟩
  · rw [Review.graded_review]
    decide +kernel
  · rw [Review.graded_review]
    decide +kernel

end CodeReview
