import CodeReview.Proofs.Merging
import CodeReview.Proofs.Observations

/-! # Combined results

    Results of reviews are combined by merging, in any nesting.  A review
    makes no observations next to a finding about security or performance,
    but merging joins findings and observations independently of each other.
    A combination has such a finding if one of its reviews has one
    (`Combination.isGated_result_iff`), and it observes something if one of
    its reviews does (`Combination.positives_ne_nil_iff`), so it breaks the
    gate exactly when it is made of reviews of both kinds. -/

namespace CodeReview

open Finding Aggregator Review

/-! ## Keys across reviews -/

/-- The language of an analysed file is the one that its path announces. -/
theorem Review.language_of_mem_analyses {input : ReviewInput}
    {paths : List String} {r : FileReview} (h : r ∈ analyses input paths) :
    (Path.parse r.subject.path).language? = r.subject.language := by
  obtain ⟨c, hc, hr⟩ :=
    Option.bind_eq_some_iff.mp (analysisAt?_of_mem_analyses h)
  rw [Candidate.language_of_check hc, (isAnalysis_of_analyse hr).language_eq]

/-- In all reviews together, the key of a finding determines its category:
    the file of the key announces the language, and the message is worded by
    one rule for the language. -/
theorem category_eq_of_key {input input' : ReviewInput}
    {paths paths' : List String} {f g : Finding}
    (hf : f ∈ (review input paths).value.allFindings)
    (hg : g ∈ (review input' paths').value.allFindings)
    (hkey : f.key = g.key) : f.category = g.category := by
  obtain ⟨r, hr, hf⟩ := List.mem_flatMap.mp (mem_produced_of_mem_review hf)
  obtain ⟨r', hr', hg⟩ := List.mem_flatMap.mp (mem_produced_of_mem_review hg)
  obtain ⟨language, hlanguage, hreported⟩ := reported_of_mem_analyses hr hf
  obtain ⟨language', hlanguage', hreported'⟩ := reported_of_mem_analyses hr' hg
  have hpath : r.subject.path = r'.subject.path := by
    rw [← hreported.located.file_eq, ← hreported'.located.file_eq]
    exact congrArg (·.1) hkey
  have hsame : language = language' := by
    rw [← Option.some.injEq, ← hlanguage, ← hlanguage',
      ← language_of_mem_analyses hr, ← language_of_mem_analyses hr', hpath]
  subst hsame
  have hmessage : f.message = g.message := congrArg (·.2.2) hkey
  obtain ⟨rule, hrule, hcovers⟩ := hreported.covered
  obtain ⟨rule', hrule', hcovers'⟩ := hreported'.covered
  have hone : rule = rule' :=
    Entry.eq_of_words hrule hrule' (hmessage ▸ hcovers.words) hcovers'.words
  rw [hcovers.category_eq, hcovers'.category_eq, hone]

/-! ## Merging and the gate -/

/-- A merged result holds the findings of its parts without copies. -/
theorem mem_allFindings_merge {results : List ReviewResult} {f : Finding} :
    f ∈ (ReviewResult.merge results).allFindings
      ↔ f ∈ distinct (results.flatMap (·.allFindings)) :=
  (sameClasses_allFindings (ReviewResult.findings_merge results)).perm.mem_iff

/-- Where keys determine categories, a merge has a gating finding if one of
    its parts has one: the copy that is kept is of the same category. -/
theorem isGated_merge_iff {results : List ReviewResult}
    (hkeys : ∀ f ∈ results.flatMap (·.allFindings),
      ∀ g ∈ results.flatMap (·.allFindings),
        f.key = g.key → f.category = g.category) :
    IsGated (ReviewResult.merge results) ↔ ∃ r ∈ results, IsGated r := by
  constructor
  · rintro ⟨f, hf, hcategory⟩
    have hmem := (distinct_sublist _).subset (mem_allFindings_merge.mp hf)
    obtain ⟨r, hr, hf⟩ := List.mem_flatMap.mp hmem
    exact ⟨r, hr, f, hf, hcategory⟩
  · rintro ⟨r, hr, f, hf, hcategory⟩
    have hmem : f ∈ results.flatMap (·.allFindings) :=
      List.mem_flatMap.mpr ⟨r, hr, hf⟩
    obtain ⟨g, hg, hkey⟩ := List.mem_map.mp
      (mem_keys_distinct.mpr (List.mem_map.mpr ⟨f, hmem, rfl⟩))
    refine ⟨g, mem_allFindings_merge.mpr hg, ?_⟩
    rw [hkeys g ((distinct_sublist _).subset hg) f hmem hkey]
    exact hcategory

/-- A merged result holds every observation of its parts. -/
theorem mem_positives_merge {results : List ReviewResult} {note : String} :
    note ∈ (ReviewResult.merge results).positives
      ↔ ∃ r ∈ results, note ∈ r.positives := by
  rw [ReviewResult.positives_merge, List.mem_eraseDups, List.mem_flatMap]

/-! ## Combinations -/

/-- One review: what it takes, and its paths. -/
structure ReviewRun where
  input : ReviewInput
  paths : List String

namespace ReviewRun

/-- The result of a review. -/
def result (run : ReviewRun) : ReviewResult :=
  (review run.input run.paths).value

/-- Whether a review observes something: it has read a file, and found
    nothing about security or performance. -/
def Observes (run : ReviewRun) : Prop :=
  filesRead run.input run.paths ≠ [] ∧ ¬ IsGated run.result

/-- A review has positives exactly if it observes something. -/
theorem positives_ne_nil_iff (run : ReviewRun) :
    run.result.positives ≠ [] ↔ run.Observes := by
  constructor
  · intro h
    by_contra hclosed
    rw [Observes, not_and_or, not_not, not_not] at hclosed
    exact h (positives_review_of_gated hclosed)
  · rintro ⟨hread, hclear⟩
    rw [result, positives_review hread hclear]
    exact observations_ne_nil _

end ReviewRun

/-- How a result is obtained from reviews. -/
inductive Combination where
  | single (run : ReviewRun)
  | merge (parts : List Combination)

namespace Combination

/-- The result of a combination. -/
def result : Combination → ReviewResult
  | .single run => run.result
  | .merge parts => .merge (parts.map result)

/-- The reviews of a combination, in order. -/
def runs : Combination → List ReviewRun
  | .single run => [run]
  | .merge parts => parts.flatMap runs

/-- A single review combines to its own result. -/
theorem result_single (run : ReviewRun) : (single run).result = run.result := by
  rw [result]

/-- Merged parts combine to the merge of their results. -/
theorem result_merge (parts : List Combination) :
    (merge parts).result = .merge (parts.map result) := by
  rw [result]

/-- A single review has itself as its only review. -/
theorem exists_run_single_iff {run : ReviewRun} {p : ReviewRun → Prop} :
    (∃ r ∈ (single run).runs, p r) ↔ p run := by
  rw [runs]
  simp only [List.mem_singleton, exists_eq_left]

/-- The reviews of a merge are those of its parts. -/
theorem exists_run_merge_iff {parts : List Combination}
    {p : ReviewRun → Prop} :
    (∃ r ∈ (merge parts).runs, p r)
      ↔ ∃ part ∈ parts, ∃ r ∈ part.runs, p r := by
  rw [runs]
  constructor
  · rintro ⟨r, hr, hp⟩
    obtain ⟨part, hpart, hr⟩ := List.mem_flatMap.mp hr
    exact ⟨part, hpart, r, hr, hp⟩
  · rintro ⟨part, hpart, r, hr, hp⟩
    exact ⟨r, List.mem_flatMap.mpr ⟨part, hpart, hr⟩, hp⟩

/-- What holds of some result holds of the result of some part. -/
theorem exists_mem_map_result_iff {parts : List Combination}
    {p : ReviewResult → Prop} :
    (∃ r ∈ parts.map result, p r) ↔ ∃ part ∈ parts, p part.result := by
  simp only [List.mem_map, exists_exists_and_eq_and]

/-- What a combination finds is found by one of its reviews. -/
theorem exists_run_of_mem {c : Combination} {f : Finding}
    (h : f ∈ c.result.allFindings) :
    ∃ run ∈ c.runs, f ∈ run.result.allFindings := by
  induction c using result.induct with
  | case1 run =>
      rw [result_single] at h
      exact exists_run_single_iff.mpr h
  | case2 parts ih =>
      rw [result_merge, mem_allFindings_merge] at h
      obtain ⟨part, hpart, hf⟩ := exists_mem_map_result_iff.mp
        (List.mem_flatMap.mp ((distinct_sublist _).subset h))
      exact exists_run_merge_iff.mpr ⟨part, hpart, ih part hpart hf⟩

/-- A combination has a gating finding if one of its reviews has one. -/
theorem isGated_result_iff (c : Combination) :
    IsGated c.result ↔ ∃ run ∈ c.runs, IsGated run.result := by
  induction c using result.induct with
  | case1 run => rw [result_single, exists_run_single_iff]
  | case2 parts ih =>
      have hkeys : ∀ f ∈ (parts.map result).flatMap (·.allFindings),
          ∀ g ∈ (parts.map result).flatMap (·.allFindings),
            f.key = g.key → f.category = g.category := by
        intro f hf g hg hkey
        rw [List.flatMap_map] at hf hg
        obtain ⟨part, _, hf⟩ := List.mem_flatMap.mp hf
        obtain ⟨part', _, hg⟩ := List.mem_flatMap.mp hg
        obtain ⟨run, _, hf⟩ := exists_run_of_mem hf
        obtain ⟨run', _, hg⟩ := exists_run_of_mem hg
        exact category_eq_of_key hf hg hkey
      rw [result_merge, isGated_merge_iff hkeys, exists_mem_map_result_iff,
        exists_run_merge_iff]
      exact exists_congr fun part => and_congr_right (ih part)

/-- What a combination observes is observed by one of its reviews. -/
theorem mem_positives_result {c : Combination} {note : String} :
    note ∈ c.result.positives
      ↔ ∃ run ∈ c.runs, note ∈ run.result.positives := by
  induction c using result.induct with
  | case1 run => rw [result_single, exists_run_single_iff]
  | case2 parts ih =>
      rw [result_merge, mem_positives_merge, exists_mem_map_result_iff,
        exists_run_merge_iff]
      exact exists_congr fun part => and_congr_right (ih part)

/-- A combination observes something if one of its reviews does. -/
theorem positives_ne_nil_iff (c : Combination) :
    c.result.positives ≠ [] ↔ ∃ run ∈ c.runs, run.Observes := by
  simp only [← ReviewRun.positives_ne_nil_iff]
  constructor
  · intro h
    obtain ⟨note, hnote⟩ := List.exists_mem_of_ne_nil _ h
    obtain ⟨run, hrun, hnote⟩ := mem_positives_result.mp hnote
    exact ⟨run, hrun, List.ne_nil_of_mem hnote⟩
  · rintro ⟨run, hrun, h⟩
    obtain ⟨note, hnote⟩ := List.exists_mem_of_ne_nil _ h
    exact List.ne_nil_of_mem (mem_positives_result.mpr ⟨run, hrun, hnote⟩)

/-- **THE GATE**: a combination has a gating finding if one of its reviews
    has one, and it observes something if one of its reviews does.  So it
    makes no observations next to a gating finding unless its reviews are of
    both kinds. -/
theorem gate_iff (c : Combination) :
    (IsGated c.result ↔ ∃ run ∈ c.runs, IsGated run.result)
      ∧ (c.result.positives ≠ [] ↔ ∃ run ∈ c.runs, run.Observes)
      ∧ ((IsGated c.result → c.result.positives = [])
        ↔ ¬ ((∃ run ∈ c.runs, IsGated run.result)
          ∧ ∃ run ∈ c.runs, run.Observes)) := by
  have hgated := isGated_result_iff c
  have hobserves := positives_ne_nil_iff c
  refine ⟨hgated, hobserves, ?_⟩
  rw [← hgated, ← hobserves, not_and, not_not]

end Combination

/-- A project with a request parameter in one file and nothing in the
    other. -/
def searchInput : ReviewInput where
  tree := { files := [(["cart.rb"], [112, 10]),
    -- `params[:q]`
    (["search.rb"], [112, 97, 114, 97, 109, 115, 91, 58, 113, 93])] }

/-- The review of the file where nothing is found. -/
def cartRun : ReviewRun := ⟨searchInput, ["cart.rb"]⟩

/-- The review of the file with the parameter. -/
def searchRun : ReviewRun := ⟨searchInput, ["search.rb"]⟩

/-- The parameter is found, and that is about security. -/
theorem isGated_searchRun : IsGated searchRun.result := by
  rw [searchRun, ReviewRun.result, isGated_review_iff]
  decide +kernel

/-- With nothing found, the other review says that there are no concerns. -/
theorem positives_cartRun : cartRun.result.positives = [defaultPraise] := by
  have hread : filesRead cartRun.input cartRun.paths ≠ [] := by
    decide +kernel
  have hclear : ¬ IsGated (review cartRun.input cartRun.paths).value := by
    rw [isGated_review_iff]
    decide +kernel
  have hnotes :
      notesOn cartRun.input.faults (filesRead cartRun.input cartRun.paths)
        = [] := by
    decide +kernel
  rw [ReviewRun.result, positives_review hread hclear, hnotes]
  rfl

/-- The two reviews in one result. -/
def fileByFile : Combination := .merge [.single cartRun, .single searchRun]

/-- Merged, the two reviews say that there are no concerns next to one. -/
theorem fileByFile_breaks_gate :
    IsGated fileByFile.result ∧ defaultPraise ∈ fileByFile.result.positives := by
  constructor
  · rw [Combination.isGated_result_iff, fileByFile,
      Combination.exists_run_merge_iff]
    refine ⟨.single searchRun, by simp, ?_⟩
    rw [Combination.exists_run_single_iff]
    exact isGated_searchRun
  · rw [Combination.mem_positives_result, fileByFile,
      Combination.exists_run_merge_iff]
    refine ⟨.single cartRun, by simp, ?_⟩
    rw [Combination.exists_run_single_iff, positives_cartRun]
    exact List.mem_singleton_self _

end CodeReview
