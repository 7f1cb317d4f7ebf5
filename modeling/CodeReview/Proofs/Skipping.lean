import CodeReview.Proofs.Decoding
import CodeReview.Proofs.Identity

/-! # Skipped paths

    A path that is given to a review may come to nothing, for one of the
    reasons that `Review.Skipped` lists.  Some of them show before the file
    is read and some when it is, so that a review with skipped paths can
    end early or go on with no file at all; in both cases its result is the
    aggregate of its analyses (`value_review_eq_aggregate`).  A skipped path
    leads to no analysis wherever it stands in the list, so a list can be
    thinned of such paths without any change to the result. -/

namespace CodeReview

/-! ## Thinning a list -/

section Thinning

variable {α : Type}

/-- Copies can be dropped before or after a choice is made. -/
theorem eraseDups_filter [BEq α] [LawfulBEq α] (p : α → Bool) (xs : List α) :
    (xs.filter p).eraseDups = xs.eraseDups.filter p := by
  induction xs using List.reverseRecOn with
  | nil => rfl
  | append_singleton xs x ih =>
      rw [List.filter_append]
      cases hp : p x with
      | false =>
          have hnone : [x].filter p = [] := by simp [hp]
          rw [hnone, List.append_nil, ih]
          by_cases hx : x ∈ xs
          · rw [eraseDups_concat_of_mem hx]
          · rw [eraseDups_concat_of_not_mem hx, List.filter_append, hnone,
              List.append_nil]
      | true =>
          have hone : [x].filter p = [x] := by simp [hp]
          rw [hone]
          by_cases hx : x ∈ xs
          · rw [eraseDups_concat_of_mem hx,
              eraseDups_concat_of_mem (List.mem_filter.mpr ⟨hx, hp⟩), ih]
          · have hx' : x ∉ xs.filter p := fun h => hx (List.mem_filter.mp h).1
            rw [eraseDups_concat_of_not_mem hx, eraseDups_concat_of_not_mem hx',
              List.filter_append, hone, ih]

/-- The second list is the first without some elements, each of which may be
    left out. -/
inductive Thinned (mayGo : α → Prop) : List α → List α → Prop where
  | nil : Thinned mayGo [] []
  | keep (x : α) {xs ys : List α} (h : Thinned mayGo xs ys) :
      Thinned mayGo (x :: xs) (x :: ys)
  | drop {x : α} (hx : mayGo x) {xs ys : List α} (h : Thinned mayGo xs ys) :
      Thinned mayGo (x :: xs) ys

/-- Thinning a list thins what is made of its elements. -/
theorem Thinned.map {β : Type} {mayGo : α → Prop} {xs ys : List α}
    (h : Thinned mayGo xs ys) (f : α → β) :
    Thinned (fun y => ∃ x, mayGo x ∧ f x = y) (xs.map f) (ys.map f) := by
  induction h with
  | nil => exact .nil
  | keep x _ ih => exact .keep (f x) ih
  | @drop x hx _ _ _ ih => exact .drop ⟨x, hx, rfl⟩ ih

/-- What is never left out is the same in both lists. -/
theorem Thinned.filter_eq {mayGo : α → Prop} {xs ys : List α}
    (h : Thinned mayGo xs ys) {p : α → Bool}
    (hp : ∀ x, mayGo x → p x = false) : xs.filter p = ys.filter p := by
  induction h with
  | nil => rfl
  | keep x _ ih => rw [List.filter_cons, List.filter_cons, ih]
  | @drop x hx _ _ _ ih =>
      rw [List.filter_cons_of_neg (by rw [hp x hx]; exact Bool.noConfusion), ih]

end Thinning

/-! ## Reasons to skip a path -/

namespace FileTree

variable {tree : FileTree} {path : Path} {bytes : List UInt8}

/-- Reading succeeds exactly where there is a file that may be read. -/
theorem readAt_eq_ok_iff {place : List String} :
    tree.readAt place = .ok bytes
      ↔ tree.node? place = some (.file bytes) ∧ place ∉ tree.unreadable := by
  rw [readAt, ← List.contains_iff_mem]
  cases tree.node? place with
  | none => exact iff_of_false nofun fun h => nomatch h.1
  | some node =>
      cases node with
      | folder => exact iff_of_false nofun fun h => nomatch h.1
      | file found =>
          cases tree.unreadable.contains place with
          | true => exact iff_of_false nofun fun h => h.2 rfl
          | false =>
              rw [Option.some.injEq, FileNode.file.injEq]
              exact ⟨fun h => ⟨Except.ok.inj h, Bool.false_ne_true⟩,
                fun h => congrArg Except.ok h.1⟩

/-- **READING**: the bytes of a file can be read exactly if the path leads
    to it and it may be read. -/
theorem read_eq_ok_iff :
    tree.read path = .ok bytes
      ↔ tree.nodeAt? path = some (.file bytes)
        ∧ tree.mayRead path = true := by
  rw [read, nodeAt?, mayRead]
  cases tree.resolve path with
  | error e => exact iff_of_false nofun fun h => nomatch h.1
  | ok place =>
      show tree.readAt place = .ok bytes
        ↔ tree.node? place = some (.file bytes)
          ∧ (!tree.unreadable.contains place) = true
      rw [readAt_eq_ok_iff, Bool.not_eq_true', ← Bool.not_eq_true,
        List.contains_iff_mem]

/-- A path leads to a file that may be read exactly if some bytes can be
    read there. -/
theorem isReadable_iff :
    tree.isReadable path = true ↔ ∃ bytes, tree.read path = .ok bytes := by
  simp only [isReadable, read_eq_ok_iff, Bool.and_eq_true, exists_and_right]
  refine and_congr_left' ?_
  rw [isFile]
  split
  · rename_i bytes hbytes
    exact iff_of_true rfl ⟨bytes, hbytes⟩
  · rename_i hnone
    exact iff_of_false Bool.false_ne_true fun ⟨bytes, hbytes⟩ =>
      hnone bytes hbytes

end FileTree

/-- Reading a file gives its text and tells nothing, or it gives nothing and
    tells why in one warning. -/
theorem sourceAt_of_read {tree : FileTree} {path : String}
    {bytes : List UInt8} (h : tree.read (Path.parse path) = .ok bytes) :
    (∃ text, 0 ∉ bytes ∧ Text.encode text = bytes
        ∧ sourceAt tree path = ⟨some text, []⟩)
      ∨ (0 ∈ bytes ∨ ∀ text, Text.encode text ≠ bytes)
        ∧ ∃ reason : String, sourceAt tree path
          = ⟨none, [⟨.warning, s!"Skipping {path} - {reason}"⟩]⟩ := by
  simp only [sourceAt, h]
  by_cases hnull : 0 ∈ bytes
  · rw [if_pos (List.contains_iff_mem.mpr hnull)]
    exact .inr ⟨.inl hnull, _, rfl⟩
  · rw [if_neg (mt List.contains_iff_mem.mp hnull)]
    cases hdecode : Text.decode bytes with
    | ok text => exact .inl ⟨text, hnull, Text.decode_eq_ok_iff.mp hdecode, rfl⟩
    | error fault =>
        refine .inr ⟨.inr fun text htext => ?_, _, rfl⟩
        exact nomatch hdecode.symm.trans (Text.decode_eq_ok_iff.mpr htext)

/-- A file that holds a null byte, or is the form of no text, is not
    read. -/
theorem value_sourceAt_eq_none {tree : FileTree} {path : String}
    {bytes : List UInt8} (h : tree.read (Path.parse path) = .ok bytes)
    (hbytes : 0 ∈ bytes ∨ ∀ text, Text.encode text ≠ bytes) :
    (sourceAt tree path).value = none := by
  rcases sourceAt_of_read h with ⟨text, hnull, hform, _⟩ | ⟨_, reason, hsource⟩
  · rcases hbytes with hmem | hno
    · exact absurd hmem hnull
    · exact absurd hform (hno text)
  · rw [hsource]

namespace Review

/-- Why a path that is given to a review comes to nothing. -/
inductive Skipped (input : ReviewInput) (path : String) : Prop where
  /-- No language has its extension. -/
  | unsupported (h : (Path.parse path).language? = none)
  /-- The configuration ignores it. -/
  | ignored (h : input.config.ignores input.project (Path.parse path) = true)
  /-- Nothing is there. -/
  | missing (h : input.tree.nodeAt? (Path.parse path) = none)
  /-- A folder is there. -/
  | folder (h : input.tree.nodeAt? (Path.parse path) = some .folder)
  /-- What is there may not be read. -/
  | unreadable (h : input.tree.mayRead (Path.parse path) = false)
  /-- The file holds a null byte. -/
  | binary {bytes : List UInt8}
      (h : input.tree.nodeAt? (Path.parse path) = some (.file bytes))
      (hnull : 0 ∈ bytes)
  /-- The file is the UTF-8 form of no text. -/
  | undecodable {bytes : List UInt8}
      (h : input.tree.nodeAt? (Path.parse path) = some (.file bytes))
      (hform : ∀ text, Text.encode text ≠ bytes)

variable {input : ReviewInput} {path : String}

/-- A path that shows no reason before it is read can be read. -/
theorem exists_read_of_check {tree : FileTree} {config : Config}
    {project path : Path} {c : Candidate}
    (h : (Candidate.check tree config project path).value = some c) :
    path.language? ≠ none ∧ ¬ config.ignores project path = true
      ∧ ∃ bytes, tree.read path = .ok bytes := by
  unfold Candidate.check at h
  split at h
  · exact nomatch h
  · rename_i language hlanguage
    split at h
    · exact nomatch h
    · rename_i hignored
      split at h
      · rename_i hfile
        rw [hlanguage]
        exact ⟨Option.some_ne_none _, hignored,
          FileTree.isReadable_iff.mp hfile⟩
      · exact nomatch h

/-- A skipped path leads to no analysis. -/
theorem analysisAt?_of_skipped (h : Skipped input path) :
    analysisAt? input (Path.parse path).posix = none := by
  rw [analysisAt?, Path.parse_posix_parse]
  cases hcheck : (Candidate.check input.tree input.config input.project
      (Path.parse path)).value with
  | none => rfl
  | some c =>
      obtain ⟨hlanguage, hignored, bytes, hread⟩ := exists_read_of_check hcheck
      obtain ⟨hbytes, hmay⟩ := FileTree.read_eq_ok_iff.mp hread
      -- only what a file holds can still stop it
      have hbad : 0 ∈ bytes ∨ ∀ text, Text.encode text ≠ bytes := by
        cases h with
        | unsupported h => exact absurd h hlanguage
        | ignored h => exact absurd h hignored
        | missing h => exact nomatch h.symm.trans hbytes
        | folder h => exact nomatch h.symm.trans hbytes
        | unreadable h => exact nomatch h.symm.trans hmay
        | binary h hnull =>
            cases h.symm.trans hbytes
            exact .inl hnull
        | undecodable h hform =>
            cases h.symm.trans hbytes
            exact .inr hform
      have hpath : Path.parse c.path = Path.parse path := by
        rw [Candidate.path_of_check hcheck, Path.parse_posix_parse]
      have hsource : (sourceAt input.tree c.path).value = none :=
        value_sourceAt_eq_none (hpath ▸ hread) hbad
      rw [Option.bind_some, value_analyse, value_subject?, hsource]
      rfl

/-- No review reports anything about a skipped path. -/
theorem parse_file_ne_of_skipped (h : Skipped input path)
    {paths : List String} {f : Finding}
    (hf : f ∈ (review input paths).value.allFindings) :
    Path.parse f.file ≠ Path.parse path := by
  obtain ⟨r, hr, hfound⟩ := List.mem_flatMap.mp (mem_produced_of_mem_review hf)
  obtain ⟨_, _, hreported⟩ := reported_of_mem_analyses hr hfound
  have hanalysis := analysisAt?_of_mem_analyses hr
  obtain ⟨language, hof⟩ := exists_isAnalysis hanalysis
  intro hsame
  have hpath : r.subject.path = (Path.parse path).posix := by
    rw [← hsame, hreported.located.file_eq, ← hof.path_eq]
  rw [hpath, analysisAt?_of_skipped h] at hanalysis
  exact nomatch hanalysis

/-- Only paths that lead to an analysis count. -/
theorem analyses_eq_filter (input : ReviewInput) (paths : List String) :
    analyses input paths
      = ((Candidate.normal paths).filter fun path =>
          (analysisAt? input path).isSome).eraseDups.filterMap
            (analysisAt? input) := by
  rw [analyses_eq, eraseDups_filter, List.filterMap_filter]
  refine List.filterMap_congr ?_
  intro path _
  cases analysisAt? input path with
  | none => rfl
  | some r => rfl

/-- Without skipped paths, the analyses are the same. -/
theorem analyses_of_thinned {paths kept : List String}
    (h : Thinned (Skipped input) paths kept) :
    analyses input paths = analyses input kept := by
  have hnormal := h.map fun path => (Path.parse path).posix
  rw [analyses_eq_filter, analyses_eq_filter, Candidate.normal,
    Candidate.normal, hnormal.filter_eq]
  rintro _ ⟨path, hpath, rfl⟩
  rw [analysisAt?_of_skipped hpath]
  rfl

end Review

/-- A review is the aggregate of its analyses, also when there are none. -/
theorem value_review_eq_aggregate (input : ReviewInput) (paths : List String) :
    (review input paths).value
      = (Review.aggregate input (Review.analyses input paths)).value := by
  rw [value_review]
  split
  · rename_i hnone
    rw [Review.analyses, List.isEmpty_iff.mp hnone]
    rfl
  · rfl

/-- **SKIPPED PATHS**: a review gives the same result without some of the
    paths that it skips. -/
theorem review_of_thinned {input : ReviewInput} {paths kept : List String}
    (h : Thinned (Review.Skipped input) paths kept) :
    (review input paths).value = (review input kept).value := by
  rw [value_review_eq_aggregate, value_review_eq_aggregate,
    Review.analyses_of_thinned h]

/-- A project with a page, and with all that a review skips. -/
def mixedInput : ReviewInput where
  tree := {
    files := [(["gallery.erb"],
        -- `<img>`
        [60, 105, 109, 103, 62]),
      (["notes.txt"], [104, 105]), (["vendor", "gallery.erb"], [104, 105]),
      (["blob.rb"], [112, 0]), (["latin.rb"], [233, 10]),
      (["secret.rb"], [112, 10])]
    emptyFolders := [["lib.rb"]]
    unreadable := [["secret.rb"]] }

/-- A file that is not UTF-8 is skipped. -/
theorem skipped_latin : Review.Skipped mixedInput "latin.rb" := by
  have hfile : mixedInput.tree.nodeAt? (Path.parse "latin.rb")
      = some (.file [233, 10]) := by decide
  refine .undecodable hfile ?_
  intro text htext
  have hdecode : Text.decode [233, 10]
      = .error ⟨0, 233, 0, .invalidContinuation⟩ := by decide
  exact nomatch hdecode.symm.trans (Text.decode_eq_ok_iff.mpr htext)

/-- A file that holds a zero byte is no text, and skipped. -/
theorem skipped_blob : Review.Skipped mixedInput "blob.rb" := by
  have hfile : mixedInput.tree.nodeAt? (Path.parse "blob.rb")
      = some (.file [112, 0]) := by decide
  exact .binary hfile (by decide)

/-- Two ways to write one page stay of paths that are skipped for every
    reason, and nothing stays of the skipped ones alone. -/
theorem review_mixed_without_skipped :
    (review mixedInput ["notes.txt", "gallery.erb", "vendor/gallery.erb",
          "gone.rb", "./gallery.erb", "lib.rb", "secret.rb", "blob.rb",
          "latin.rb"]).value
        = (review mixedInput ["gallery.erb", "./gallery.erb"]).value
      ∧ (review mixedInput ["latin.rb", "blob.rb", "lib.rb"]).value
        = ReviewResult.empty := by
  have hfolder : Review.Skipped mixedInput "lib.rb" := .folder (by decide)
  constructor
  · refine review_of_thinned (.drop (.unsupported (by decide)) (.keep _
      (.drop (.ignored (by decide)) (.drop (.missing (by decide)) (.keep _ ?_)))))
    exact .drop hfolder (.drop (.unreadable (by decide))
      (.drop skipped_blob (.drop skipped_latin .nil)))
  · have hnothing : Thinned (Review.Skipped mixedInput)
        ["latin.rb", "blob.rb", "lib.rb"] [] :=
      .drop skipped_latin (.drop skipped_blob (.drop hfolder .nil))
    exact (review_of_thinned hnothing).trans rfl

end CodeReview
