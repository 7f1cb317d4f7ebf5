import CodeReview.Proofs.Batch
import CodeReview.Proofs.NormalPath
import CodeReview.Proofs.Reports

/-! # What identifies a finding

    In a batch, the key of a finding determines all of it.  The file of the
    key leads to one analysis, the message to one rule for the language of
    the file, and the rule says what the other parts are.  So the findings
    that a review drops are exact copies. -/

namespace CodeReview

open Finding

/-! ## One analysis per path -/

/-- A candidate carries the text of its path. -/
theorem Candidate.path_of_check {tree : FileTree} {config : Config}
    {project path : Path} {c : Candidate}
    (h : (check tree config project path).value = some c) :
    c.path = path.posix := by
  unfold check at h
  split at h
  · exact nomatch h
  · split at h
    · exact nomatch h
    · split at h
      · rw [← Option.some.inj h]
      · exact nomatch h

/-- A candidate has the language that its path announces. -/
theorem Candidate.language_of_check {tree : FileTree} {config : Config}
    {project path : Path} {c : Candidate}
    (h : (check tree config project path).value = some c) :
    path.language? = some c.language := by
  unfold check at h
  split at h
  · exact nomatch h
  · rename_i language hlanguage
    split at h
    · exact nomatch h
    · split at h
      · rw [hlanguage, ← Option.some.inj h]
      · exact nomatch h

namespace Review

/-- The blocks of a file start within it, also where the scan is made to
    fail and there are none. -/
theorem blocksWithin_scanBlocks (input : ReviewInput) (path : String)
    (content : Text) (language : Option Language) (config : Config) :
    Subject.BlocksWithin
      ⟨path, content, language,
        (scanBlocks input path content language).value, config⟩ := by
  intro block hblock
  rw [scanBlocks] at hblock
  split at hblock
  · exact Block.startLine_le_of_mem_scan hblock
  · exact nomatch hblock

/-- A file becomes a subject if it can be read, with the blocks that the
    scan finds. -/
theorem value_subject? (input : ReviewInput) (path : String)
    (language : Option Language) :
    (subject? input path language).value
      = (sourceAt input.tree path).value.map fun content =>
          ⟨path, content, language,
            (scanBlocks input path content language).value, input.config⟩ := by
  simp only [subject?, Logged.value_bind]
  cases (sourceAt input.tree path).value with
  | none => rfl
  | some content => rfl

/-- A file is analysed if it becomes a subject, by all detectors of its
    language. -/
theorem value_analyse (input : ReviewInput) (path : String)
    (language : Option Language) :
    (analyse input path language).value
      = (subject? input path language).value.map fun s =>
          ⟨s, (detectAll input.faults s).value⟩ := by
  simp only [analyse, Logged.value_bind]
  cases (subject? input path language).value with
  | none => rfl
  | some s => rfl

/-- Whether an analysis is that of the file at a path, in a language. -/
structure IsAnalysis (input : ReviewInput) (path : String)
    (language : Language) (r : FileReview) : Prop where
  path_eq : r.subject.path = path
  language_eq : r.subject.language = some language
  blocks_within : r.subject.BlocksWithin
  findings_eq : r.findings = (detectAll input.faults r.subject).value

/-- What comes of a file is an analysis of it. -/
theorem isAnalysis_of_analyse {input : ReviewInput} {path : String}
    {language : Language} {r : FileReview}
    (h : (analyse input path (some language)).value = some r) :
    IsAnalysis input path language r := by
  rw [value_analyse] at h
  obtain ⟨s, hs, rfl⟩ := Option.map_eq_some_iff.mp h
  rw [value_subject?] at hs
  obtain ⟨content, _, rfl⟩ := Option.map_eq_some_iff.mp hs
  exact ⟨rfl, rfl, blocksWithin_scanBlocks input path content _ _, rfl⟩

/-- An analysis of a path is one of its file, in some language. -/
theorem exists_isAnalysis {input : ReviewInput} {path : String}
    {r : FileReview} (h : analysisAt? input path = some r) :
    ∃ language, IsAnalysis input (Path.parse path).posix language r := by
  obtain ⟨c, hc, hr⟩ := Option.bind_eq_some_iff.mp h
  refine ⟨c.language, ?_⟩
  rw [← Candidate.path_of_check hc]
  exact isAnalysis_of_analyse hr

/-- The analyses of a batch are those that the paths of their files lead
    to. -/
theorem analysisAt?_of_mem_analyses {input : ReviewInput}
    {paths : List String} {r : FileReview} (h : r ∈ analyses input paths) :
    analysisAt? input r.subject.path = some r := by
  rw [analyses_eq] at h
  obtain ⟨path, hpath, hr⟩ := List.mem_filterMap.mp h
  -- the path is the text of one that was given, so it is normal already
  obtain ⟨given, _, rfl⟩ := List.mem_map.mp (List.mem_eraseDups.mp hpath)
  obtain ⟨language, hanalysis⟩ := exists_isAnalysis hr
  rw [hanalysis.path_eq, Path.parse_posix_parse]
  exact hr

end Review

/-! ## Keys -/

/-- Every finding about a file follows a rule of the detectors of its
    language. -/
theorem reported_of_mem_detectAll {faults : Faults} {s : Subject}
    (hblocks : s.BlocksWithin) {language : Language}
    (hlanguage : s.language = some language) {f : Finding}
    (h : f ∈ (detectAll faults s).value) :
    Reported s (Entry.rulesOf language) f := by
  rw [value_detectAll, hlanguage] at h
  obtain ⟨d, hd, hf⟩ := List.mem_flatMap.mp h
  -- a detector that is made to fail reports nothing
  split at hf
  · exact nomatch hf
  · obtain ⟨e, he, rfl⟩ := Entry.exists_entry hd
    exact (Detector.reported_of_mem_reports hblocks (List.mem_filter.mp he).1
      hf).mono fun r hr => List.mem_flatMap.mpr ⟨e, he, hr⟩

/-- What is reported about one file under the rules for its language is
    determined by its key. -/
theorem eq_of_reported {s : Subject} {language : Language} {f g : Finding}
    (hf : Reported s (Entry.rulesOf language) f)
    (hg : Reported s (Entry.rulesOf language) g) (hkey : f.key = g.key) :
    f = g := by
  have hline : f.line = g.line := congrArg (·.2.1) hkey
  have hmessage : f.message = g.message := congrArg (·.2.2) hkey
  obtain ⟨r, hr, hcovers⟩ := hf.covered
  obtain ⟨r', hr', hcovers'⟩ := hg.covered
  -- the message decides the rule, and the rule decides the rest
  have hrule : r = r' :=
    Entry.eq_of_words hr hr' (hmessage ▸ hcovers.words) hcovers'.words
  subst hrule
  cases f
  cases g
  simp only [Finding.mk.injEq]
  exact ⟨congrArg (·.1) hkey, hline,
    hcovers.category_eq.trans hcovers'.category_eq.symm,
    hcovers.severity_eq.trans hcovers'.severity_eq.symm, hmessage,
    hcovers.suggestion_eq.trans hcovers'.suggestion_eq.symm⟩

/-- The findings of an analysis are reported about its file. -/
theorem reported_of_mem_analyses {input : ReviewInput} {paths : List String}
    {r : FileReview} (hr : r ∈ Review.analyses input paths) {f : Finding}
    (hf : f ∈ r.findings) :
    ∃ language, r.subject.language = some language
      ∧ Reported r.subject (Entry.rulesOf language) f := by
  obtain ⟨language, h⟩ :=
    Review.exists_isAnalysis (Review.analysisAt?_of_mem_analyses hr)
  rw [h.findings_eq] at hf
  exact ⟨language, h.language_eq,
    reported_of_mem_detectAll h.blocks_within h.language_eq hf⟩

/-- The findings of a batch, before copies are dropped. -/
def Review.produced (input : ReviewInput) (paths : List String) :
    List Finding :=
  (analyses input paths).flatMap (·.findings)

/-- Findings with the same key are the same altogether: a key leaves the
    suggestion out, and the rule gives it. -/
theorem eq_of_mem_produced {input : ReviewInput} {paths : List String}
    {f g : Finding} (hf : f ∈ Review.produced input paths)
    (hg : g ∈ Review.produced input paths) (hkey : f.key = g.key) :
    f = g := by
  obtain ⟨r, hr, hf⟩ := List.mem_flatMap.mp hf
  obtain ⟨r', hr', hg⟩ := List.mem_flatMap.mp hg
  obtain ⟨language, hlanguage, hreported⟩ := reported_of_mem_analyses hr hf
  obtain ⟨language', hlanguage', hreported'⟩ :=
    reported_of_mem_analyses hr' hg
  -- the file of the key leads to both analyses
  have hpath : r.subject.path = r'.subject.path := by
    rw [← hreported.located.file_eq, ← hreported'.located.file_eq]
    exact congrArg (·.1) hkey
  have hsame : r = r' := by
    have hat := Review.analysisAt?_of_mem_analyses hr
    rw [hpath, Review.analysisAt?_of_mem_analyses hr'] at hat
    exact (Option.some.inj hat).symm
  subst hsame
  have hsame' : language = language' :=
    Option.some.inj (hlanguage.symm.trans hlanguage')
  subst hsame'
  exact eq_of_reported hreported hreported' hkey

/-- The buckets of a review are those of the findings of the batch, the
    first of each key. -/
theorem findings_review_produced (input : ReviewInput)
    (paths : List String) :
    (review input paths).value.findings
      = Aggregator.buckets (distinct (Review.produced input paths)) := by
  rw [findings_review, Review.produced, Review.flatMap_analyses,
    distinct_flatMap_eraseDups]

/-- What a bucket of a review holds. -/
theorem mem_bucket_review {input : ReviewInput} {paths : List String}
    {category : Category} {f : Finding} :
    f ∈ (review input paths).value.bucket category
      ↔ f ∈ distinct (Review.produced input paths)
        ∧ f.category = category := by
  rw [ReviewResult.bucket, findings_review_produced,
    Aggregator.getD_lookup_buckets, Aggregator.mem_shelf]

/-- What a review reports was found in one of its files. -/
theorem Review.mem_produced_of_mem_review {input : ReviewInput}
    {paths : List String} {f : Finding}
    (h : f ∈ (review input paths).value.allFindings) :
    f ∈ produced input paths := by
  obtain ⟨category, _, hf⟩ := List.mem_flatMap.mp h
  exact (distinct_sublist _).subset (mem_bucket_review.mp hf).1

/-- **KEYS DETERMINE FINDINGS**: findings of a batch with the same key are
    equal, so that a review holds every finding of the batch, in the bucket
    of its category. -/
theorem review_drops_only_copies (input : ReviewInput)
    (paths : List String) :
    (∀ f ∈ Review.produced input paths, ∀ g ∈ Review.produced input paths,
      f.key = g.key → f = g)
    ∧ ∀ category f, f ∈ (review input paths).value.bucket category
        ↔ f ∈ Review.produced input paths ∧ f.category = category := by
  have hkeys : ∀ f ∈ Review.produced input paths,
      ∀ g ∈ Review.produced input paths, f.key = g.key → f = g :=
    fun f hf g hg hkey => eq_of_mem_produced hf hg hkey
  refine ⟨hkeys, ?_⟩
  intro category f
  rw [mem_bucket_review, mem_distinct_iff hkeys]

/-- A project with one page that shows two images. -/
def galleryInput : ReviewInput where
  tree := { files := [(["gallery.erb"],
    -- `<img><img>`
    [60, 105, 109, 103, 62, 60, 105, 109, 103, 62])] }

/-- What is reported about each of the images. -/
def silentImage : Finding where
  file := "gallery.erb"
  line := some 1
  category := .accessibility
  severity := .warning
  message := "Image is missing alternative text"
  suggestion := "Add a meaningful alt attribute (alt=\"\" for decorative images)"

/-- Two images in one line are one finding. -/
theorem review_gallery_drops_copy :
    Review.produced galleryInput ["gallery.erb"] = [silentImage, silentImage]
      ∧ silentImage
        ∈ (review galleryInput ["gallery.erb"]).value.bucket .accessibility := by
  have hproduced : Review.produced galleryInput ["gallery.erb"]
      = [silentImage, silentImage] := by decide +kernel
  refine ⟨hproduced, ?_⟩
  refine ((review_drops_only_copies galleryInput ["gallery.erb"]).2
    .accessibility silentImage).mpr ⟨?_, rfl⟩
  rw [hproduced]
  exact List.mem_cons_self

end CodeReview
