import CodeReview.Proofs.Observations
import CodeReview.Proofs.Phases

/-! # The scope of a run

    Which files a run reviews: those that its arguments name or contain, and
    those that its diff or its pull request leaves in place.  If all of this
    comes to nothing and neither a diff nor a repository is given, the
    current folder is taken instead; that is so without arguments, but also
    where every argument is a folder without files. -/

namespace CodeReview

/-- What is behind a start, as an equation. -/
theorem Path.after?_eq_some_iff {start components rest : List String} :
    after? start components = some rest ↔ components = start ++ rest := by
  induction start generalizing components with
  | nil =>
      rw [after?, Option.some.injEq, List.nil_append]
  | cons s start ih =>
      cases components with
      | nil => exact iff_of_false nofun nofun
      | cons c components =>
          rw [after?, List.cons_append, List.cons.injEq]
          split
          · rename_i heq
            rw [ih]
            exact ⟨fun h => ⟨heq.symm, h⟩, fun h => h.2⟩
          · rename_i hne
            exact iff_of_false nofun fun h => hne h.1.symm

/-! ## Files beneath a folder -/

namespace FileTree

/-- Whether a path leads to a file beneath a folder: it starts with the path
    of the folder, and what follows leads from there to the file. -/
def Beneath (tree : FileTree) (folder path : Path) : Prop :=
  ∃ place rest bytes, tree.resolve folder = .ok place
    ∧ rest ≠ [] ∧ (place ++ rest, bytes) ∈ tree.files
    ∧ path = { folder with components := folder.components ++ rest }

/-- The files listed beneath a folder are those whose paths lie beneath
    it. -/
theorem mem_filesBeneath {tree : FileTree} {folder path : Path} :
    path ∈ tree.filesBeneath folder ↔ tree.Beneath folder path := by
  rw [filesBeneath, Beneath]
  cases tree.resolve folder with
  | error e =>
      refine iff_of_false nofun ?_
      rintro ⟨place, rest, bytes, hplace, _⟩
      exact nomatch hplace
  | ok place =>
      simp only [List.mem_map, List.mem_mergeSort, List.mem_filter,
        List.mem_filterMap, Path.after?_eq_some_iff, bne_iff_ne]
      constructor
      · rintro ⟨rest, ⟨⟨⟨place', bytes⟩, hfile, hplace⟩, hrest⟩, rfl⟩
        have hplace' : place' = place ++ rest := hplace
        exact ⟨place, rest, bytes, rfl, hrest, hplace' ▸ hfile, rfl⟩
      · rintro ⟨place', rest, bytes, hplace, hrest, hfile, rfl⟩
        cases hplace
        exact ⟨rest, ⟨⟨_, hfile, rfl⟩, hrest⟩, rfl⟩

/-- Whether a path leads to a folder without files. -/
def IsBare (tree : FileTree) (folder : Path) : Prop :=
  tree.isFolder folder = true ∧ ∀ path, ¬ tree.Beneath folder path

end FileTree

/-! ## Files that are read -/

/-- A file that was read is one of the paths, and that path announces its
    language. -/
theorem Review.exists_of_mem_filesRead {input : ReviewInput} {paths : List String}
    {subject : Subject} (h : subject ∈ filesRead input paths) :
    ∃ path ∈ paths, subject.path = (Path.parse path).posix
      ∧ (Path.parse path).language? ≠ none := by
  rw [filesRead, Candidate.value_select] at h
  obtain ⟨c, hc, hsubject⟩ := List.mem_filterMap.mp h
  obtain ⟨normal, hnormal, hcheck⟩ := List.mem_filterMap.mp hc
  obtain ⟨path, hpath, rfl⟩ := List.mem_map.mp (List.mem_eraseDups.mp hnormal)
  rw [Path.parse_posix_parse] at hcheck
  refine ⟨path, hpath, ?_, ?_⟩
  · rw [value_subject?] at hsubject
    obtain ⟨content, _, rfl⟩ := Option.map_eq_some_iff.mp hsubject
    exact Candidate.path_of_check hcheck
  · rw [Candidate.language_of_check hcheck]
    exact Option.some_ne_none _

/-- The findings of a review are about files that were read. -/
theorem file_mem_filesRead {input : ReviewInput} {paths : List String}
    {f : Finding} (h : f ∈ (review input paths).value.allFindings) :
    f.file ∈ (Review.filesRead input paths).map (·.path) := by
  obtain ⟨category, _, hbucket⟩ := List.mem_flatMap.mp h
  have hdistinct := (mem_bucket_review.mp hbucket).1
  obtain ⟨r, hr, hf⟩ :=
    List.mem_flatMap.mp ((Finding.distinct_sublist _).subset hdistinct)
  obtain ⟨_, _, hreported⟩ := reported_of_mem_analyses hr hf
  rw [hreported.located.file_eq, ← Review.map_subject_analyses, List.map_map]
  exact List.mem_map.mpr ⟨r, hr, rfl⟩

namespace CommandLine

/-! ## Arguments -/

variable {tree : FileTree}

/-- An argument stands for itself, or for the files beneath it. -/
theorem mem_expand {arg : String} {found : List String}
    (h : expand tree arg = .ok found) {path : String} (hpath : path ∈ found) :
    path = (Path.parse arg).posix
      ∨ ∃ file, tree.Beneath (Path.parse arg) file ∧ path = file.posix := by
  rw [expand] at h
  split at h
  · cases h
  · cases h
    split at hpath
    · obtain ⟨file, hfile, rfl⟩ := List.mem_map.mp hpath
      exact .inr ⟨file, FileTree.mem_filesBeneath.mp hfile, rfl⟩
    · exact .inl (List.mem_singleton.mp hpath)

/-- An argument comes to nothing if it is a folder without files. -/
theorem expand_eq_nil_iff {arg : String} :
    expand tree arg = .ok [] ↔ tree.IsBare (Path.parse arg) := by
  rw [expand, FileTree.IsBare]
  split
  · -- what cannot be looked up is no folder
    rename_i htoo
    constructor
    · intro h
      cases h
    · rintro ⟨hfolder, _⟩
      rw [FileTree.isFolder, FileTree.nodeAt?, htoo] at hfolder
      cases hfolder
  · rw [Except.ok.injEq]
    split
    · rename_i hfolder
      rw [List.map_eq_nil_iff, List.eq_nil_iff_forall_not_mem]
      simp only [FileTree.mem_filesBeneath, hfolder, true_and]
    · rename_i hfolder
      exact iff_of_false (List.cons_ne_nil _ _) fun h => hfolder h.1

/-- Arguments are expanded one after the other, and all must succeed. -/
theorem expandAll_cons_eq_ok_iff {arg : String} {rest found : List String} :
    expandAll tree (arg :: rest) = .ok found
      ↔ ∃ first others, expand tree arg = .ok first
        ∧ expandAll tree rest = .ok others ∧ found = first ++ others := by
  have hcons : expandAll tree (arg :: rest) = (do
      let first ← expand tree arg
      let others ← expandAll tree rest
      return first ++ others) := by
    simp [expandAll, List.mapM_cons]
  rw [hcons, bind_eq_ok_iff]
  constructor
  · rintro ⟨first, hfirst, hrest⟩
    obtain ⟨others, hothers, hfound⟩ := bind_eq_ok_iff.mp hrest
    exact ⟨first, others, hfirst, hothers, (Except.ok.inj hfound).symm⟩
  · rintro ⟨first, others, hfirst, hothers, rfl⟩
    exact ⟨first, hfirst, bind_eq_ok_iff.mpr ⟨others, hothers, rfl⟩⟩

/-- What arguments stand for comes from one of them. -/
theorem mem_expandAll {args found : List String}
    (h : expandAll tree args = .ok found) {path : String}
    (hpath : path ∈ found) :
    ∃ arg ∈ args, path = (Path.parse arg).posix
      ∨ ∃ file, tree.Beneath (Path.parse arg) file ∧ path = file.posix := by
  induction args generalizing found with
  | nil =>
      cases h
      exact nomatch hpath
  | cons arg rest ih =>
      obtain ⟨first, others, hfirst, hothers, rfl⟩ :=
        expandAll_cons_eq_ok_iff.mp h
      rcases List.mem_append.mp hpath with hmem | hmem
      · exact ⟨arg, List.mem_cons_self, mem_expand hfirst hmem⟩
      · obtain ⟨other, hother, hpath'⟩ := ih hothers hmem
        exact ⟨other, List.mem_cons_of_mem _ hother, hpath'⟩

/-- Arguments come to nothing if each of them does. -/
theorem expandAll_eq_nil_iff {args : List String} :
    expandAll tree args = .ok []
      ↔ ∀ arg ∈ args, tree.IsBare (Path.parse arg) := by
  induction args with
  | nil => exact iff_of_true rfl nofun
  | cons arg rest ih =>
      rw [expandAll_cons_eq_ok_iff, List.forall_mem_cons, ← ih,
        ← expand_eq_nil_iff]
      constructor
      · rintro ⟨first, others, hfirst, hothers, hnil⟩
        obtain ⟨rfl, rfl⟩ := List.append_eq_nil_iff.mp hnil.symm
        exact ⟨hfirst, hothers⟩
      · rintro ⟨hfirst, hothers⟩
        exact ⟨[], [], hfirst, hothers, rfl⟩

/-! ## Scope -/

namespace ReviewOptions

/-- Whether a file is in the scope of a run, by the text of its path. -/
inductive InScope (s : Surroundings) (o : ReviewOptions) : String → Prop where
  /-- An argument names it. -/
  | named {arg : String} (harg : arg ∈ o.paths) :
      InScope s o (Path.parse arg).posix
  /-- It lies beneath a folder that an argument names. -/
  | beneath {arg : String} {file : Path} (harg : arg ∈ o.paths)
      (hfile : s.tree.Beneath (Path.parse arg) file) :
      InScope s o (Path.parse file.posix).posix
  /-- The diff that is given leaves it in place. -/
  | given {source : String} {text : Text} {changes : List FileDiff}
      {change : FileDiff} (hsource : o.diffSource? = some source)
      (htext : readDiff s source = .ok text)
      (hchanges : Diff.parse text = .ok changes) (hchange : change ∈ changes)
      (hkept : change.status ≠ .deleted) :
      InScope s o (Path.parse change.path).posix
  /-- The pull request leaves it in place. -/
  | pulled {pull : PullRequest} {text : Text} {changes : List FileDiff}
      {change : FileDiff} (hpull : o.pullRequest? = some pull)
      (htext : outcome (pull.fetchDiff s.environment s.replies) = .ok text)
      (hchanges : Diff.parse text = .ok changes) (hchange : change ∈ changes)
      (hkept : change.status ≠ .deleted) :
      InScope s o (Path.parse change.path).posix

/-- Whether a run takes the current folder: neither a diff nor a repository
    is given, and every argument leads to a folder without files. -/
structure FallsBack (s : Surroundings) (o : ReviewOptions) : Prop where
  no_diff : o.diffSource? = none
  no_repository : o.repository? = none
  bare : ∀ arg ∈ o.paths, s.tree.IsBare (Path.parse arg)

/-- The files that a run reviews, by the texts of their paths. -/
def reviewedFiles (s : Surroundings) (o : ReviewOptions) : List String :=
  match o.reviewPaths? s with
  | .ok paths => (Review.filesRead (o.input s) paths).map (·.path)
  | .error _ => []

end ReviewOptions

variable {s : Surroundings} {o : ReviewOptions}

/-- The paths of a diff are those of the changes that delete nothing. -/
theorem exists_change_of_mem {text : Text} {paths : List String}
    (h : ((Diff.parse text).map keptPaths).mapError Failure.diff = .ok paths)
    {path : String} (hpath : path ∈ paths) :
    ∃ changes change, Diff.parse text = .ok changes ∧ change ∈ changes
      ∧ change.status ≠ .deleted ∧ change.path = path := by
  cases hparse : Diff.parse text with
  | error e => exact nomatch hparse ▸ h
  | ok changes =>
      rw [hparse] at h
      cases h
      obtain ⟨change, hchange, hpath'⟩ := List.mem_map.mp hpath
      obtain ⟨hmem, hkept⟩ := List.mem_filter.mp hchange
      exact ⟨changes, change, rfl, hmem, bne_iff_ne.mp hkept, hpath'⟩

/-- The paths of a given diff are in scope. -/
theorem inScope_of_mem_givenPaths {given : List String}
    (h : outcome (givenPaths s o) = .ok given) {path : String}
    (hpath : path ∈ given) : o.InScope s (Path.parse path).posix := by
  rw [outcome_givenPaths] at h
  split at h
  · cases h
    exact nomatch hpath
  · rename_i source hsource
    obtain ⟨text, htext, hkept⟩ := bind_eq_ok_iff.mp h
    obtain ⟨changes, change, hchanges, hchange, hstatus, rfl⟩ :=
      exists_change_of_mem hkept hpath
    exact .given hsource htext hchanges hchange hstatus

/-- The paths of a pull request are in scope. -/
theorem inScope_of_mem_pullPaths {pulled : List String}
    (h : outcome (pullPaths s o) = .ok pulled) {path : String}
    (hpath : path ∈ pulled) : o.InScope s (Path.parse path).posix := by
  rw [outcome_pullPaths] at h
  split at h
  · cases h
    exact nomatch hpath
  · rename_i pull hpull
    obtain ⟨text, htext, hkept⟩ := bind_eq_ok_iff.mp h
    obtain ⟨changes, change, hchanges, hchange, hstatus, rfl⟩ :=
      exists_change_of_mem hkept hpath
    exact .pulled hpull (mapError_eq_ok_iff.mp htext) hchanges hchange hstatus

/-- What the arguments stand for is in scope. -/
theorem inScope_of_mem_expandAll {named : List String}
    (h : expandAll s.tree o.paths = .ok named) {path : String}
    (hpath : path ∈ named) : o.InScope s (Path.parse path).posix := by
  obtain ⟨arg, harg, rfl | ⟨file, hfile, rfl⟩⟩ := mem_expandAll h hpath
  · rw [Path.parse_posix_parse]
    exact .named harg
  · exact .beneath harg hfile

/-- A run that falls back takes its candidates from the current
    directory. -/
theorem outcome_candidates_of_fallsBack (h : o.FallsBack s) :
    outcome (candidates s o) = (expand s.tree ".").mapError .inaccessible := by
  have hpull : o.pullRequest? = none := by
    rw [ReviewOptions.pullRequest?, h.no_repository]
    rfl
  rw [outcome_candidates, expandAll_eq_nil_iff.mpr h.bare, outcome_givenPaths,
    outcome_pullPaths, h.no_diff, hpull, h.no_repository]
  rfl

/-- What a run hands to the review is in its scope, unless it falls back to
    the current folder. -/
theorem inScope_of_mem_candidates {paths : List String}
    (hscope : ¬ o.FallsBack s) (h : outcome (candidates s o) = .ok paths) :
    ∀ path ∈ paths, o.InScope s (Path.parse path).posix := by
  rw [outcome_candidates] at h
  obtain ⟨named, hnamed, h⟩ := bind_eq_ok_iff.mp h
  obtain ⟨given, hgiven, h⟩ := bind_eq_ok_iff.mp h
  obtain ⟨pulled, hpulled, h⟩ := bind_eq_ok_iff.mp h
  rw [mapError_eq_ok_iff] at hnamed
  simp only [Bool.and_eq_true, List.isEmpty_iff, Option.isNone_iff_eq_none,
    List.append_eq_nil_iff] at h
  split at h
  · rename_i hnothing
    obtain ⟨⟨⟨⟨rfl, _⟩, _⟩, hdiff⟩, hrepository⟩ := hnothing
    exact absurd ⟨hdiff, hrepository, expandAll_eq_nil_iff.mp hnamed⟩ hscope
  · cases h
    intro path hpath
    rw [List.mem_append, List.mem_append] at hpath
    rcases hpath with (hmem | hmem) | hmem
    · exact inScope_of_mem_expandAll hnamed hmem
    · exact inScope_of_mem_givenPaths hgiven hmem
    · exact inScope_of_mem_pullPaths hpulled hmem

/-! ## Reviewed files -/

/-- Every file that is reviewed was a candidate with a supported suffix. -/
theorem exists_of_mem_reviewedFiles {file : String}
    (h : file ∈ o.reviewedFiles s) :
    ∃ paths, outcome (candidates s o) = .ok paths
      ∧ ∃ path ∈ paths, file = (Path.parse path).posix
        ∧ (Path.parse path).language? ≠ none := by
  rw [ReviewOptions.reviewedFiles] at h
  split at h
  · rename_i paths hpaths
    obtain ⟨_, _, hcandidates⟩ := bind_eq_ok_iff.mp hpaths
    obtain ⟨subject, hsubject, rfl⟩ := List.mem_map.mp h
    exact ⟨paths, hcandidates, Review.exists_of_mem_filesRead hsubject⟩
  · exact nomatch h

/-- What a run finds is about files that it reviews. -/
theorem file_mem_reviewedFiles {result : ReviewResult}
    (h : outcome (reviewCommand s o) = .ok result) {f : Finding}
    (hf : f ∈ result.allFindings) : f.file ∈ o.reviewedFiles s := by
  obtain ⟨paths, hpaths, rfl⟩ := exists_paths_of_ok h
  rw [ReviewOptions.reviewedFiles, hpaths]
  exact file_mem_filesRead hf

/-- **SCOPE**: a run reviews files in its scope only, unless it falls back;
    then it takes the current folder, and reviews files beneath that.  What
    it finds is about reviewed files. -/
theorem reviewedFiles_scope (s : Surroundings) (o : ReviewOptions) :
    (∀ result, outcome (reviewCommand s o) = .ok result →
        ∀ f ∈ result.allFindings, f.file ∈ o.reviewedFiles s)
      ∧ (¬ o.FallsBack s → ∀ file ∈ o.reviewedFiles s, o.InScope s file)
      ∧ (o.FallsBack s →
          (∀ format, o.format = .ok format →
            o.reviewPaths? s = (expand s.tree ".").mapError .inaccessible)
          ∧ ∀ file ∈ o.reviewedFiles s, ∃ path,
              s.tree.Beneath (Path.parse ".") path
                ∧ file = (Path.parse path.posix).posix) := by
  refine ⟨fun result h f hf => file_mem_reviewedFiles h hf, ?_,
    fun hfalls => ⟨?_, ?_⟩⟩
  · intro hscope file hfile
    obtain ⟨paths, hpaths, path, hpath, rfl, _⟩ :=
      exists_of_mem_reviewedFiles hfile
    exact inScope_of_mem_candidates hscope hpaths path hpath
  · intro format hformat
    rw [ReviewOptions.reviewPaths?, hformat]
    exact outcome_candidates_of_fallsBack hfalls
  · intro file hfile
    obtain ⟨paths, hpaths, path, hpath, rfl, hlanguage⟩ :=
      exists_of_mem_reviewedFiles hfile
    rw [outcome_candidates_of_fallsBack hfalls, mapError_eq_ok_iff] at hpaths
    rcases mem_expand hpaths hpath with rfl | ⟨below, hbelow, rfl⟩
    · -- the current folder itself is no file of any language
      exact absurd (by decide) hlanguage
    · exact ⟨below, hbelow, rfl⟩

/-- A folder without files beside a file. -/
def besideFile : Surroundings where
  tree := { files := [(["cart.rb"], [112, 10])], emptyFolders := [["docs"]] }
  replies := fun _ => .fault ⟨.connection, "reset"⟩

/-- The folder as the only argument. -/
def emptyFolderOnly : ReviewOptions where
  paths := ["docs"]
  thresholds := ReviewOptions.thresholdFields.map (·, none)

/-- The folder named there holds no file. -/
theorem isBare_docs : besideFile.tree.IsBare (Path.parse "docs") := by
  refine ⟨by decide, ?_⟩
  have hdocs : besideFile.tree.resolve (Path.parse "docs") = .ok ["docs"] := by
    rfl
  rintro path ⟨place, rest, bytes, hplace, _, hfile, _⟩
  cases hdocs.symm.trans hplace
  simp [besideFile] at hfile

/-- The current directory holds the one file beside that folder. -/
theorem expand_besideFile : expand besideFile.tree "." = .ok ["cart.rb"] := by
  have hbeneath : besideFile.tree.filesBeneath (Path.parse ".")
      = [⟨.relative, ["cart.rb"]⟩] := by
    show ([["cart.rb"]].mergeSort FileTree.placeLE).map _ = _
    rw [List.mergeSort_singleton]
    rfl
  have hfolder : besideFile.tree.isFolder (Path.parse ".") = true := by
    decide
  rw [expand, if_pos hfolder, hbeneath]
  rfl

/-- A run that names an empty folder reviews the file beside it. -/
theorem reviewedFiles_emptyFolderOnly :
    besideFile.command? ["review", "docs"] = some (.review emptyFolderOnly)
      ∧ "cart.rb" ∈ emptyFolderOnly.reviewedFiles besideFile
      ∧ ¬ emptyFolderOnly.InScope besideFile "cart.rb" := by
  refine ⟨by decide, ?_, ?_⟩
  · have hfalls : emptyFolderOnly.FallsBack besideFile := by
      refine ⟨rfl, rfl, fun arg harg => ?_⟩
      cases List.mem_singleton.mp harg
      exact isBare_docs
    have hpaths : emptyFolderOnly.reviewPaths? besideFile
        = .ok ["cart.rb"] := by
      show outcome (candidates besideFile emptyFolderOnly) = _
      rw [outcome_candidates_of_fallsBack hfalls, expand_besideFile]
      rfl
    rw [ReviewOptions.reviewedFiles, hpaths]
    decide
  · generalize hfile : "cart.rb" = file
    intro hscope
    cases hscope with
    | named harg =>
        cases List.mem_singleton.mp harg
        exact absurd hfile (by decide)
    | beneath harg hbelow =>
        cases List.mem_singleton.mp harg
        exact isBare_docs.2 _ hbelow
    | given hsource => exact nomatch hsource
    | pulled hpull => exact nomatch hpull

end CommandLine

end CodeReview
