import CodeReview.Proofs.Skipping
import Mathlib.Data.List.Nodup
import Mathlib.Data.List.TakeWhile
import Mathlib.Data.String.Basic

/-! # Which paths are reviewed

    A path is given in many spellings, may come again, and may be refused
    for several reasons.  `Candidate.reference` says what comes of a list
    of paths without following them one by one: the first occurrence of
    each normal path, as far as it has a supported suffix, is not ignored
    and leads to a file that can be read.  The candidates are exactly these
    (`value_select_eq_reference`); since normal paths stay as they are when
    they are read again, the candidates of candidates are themselves.  It
    is not enough that a file exists: it may be closed to the reader, or
    the path may be too long to be looked up (`select_locked`). -/

namespace CodeReview

/-! ## First occurrences -/

/-- The elements of a list that repeat none before their place. -/
def unrepeated {α : Type} [DecidableEq α] (xs : List α) : List α :=
  (xs.zipIdx.filter fun entry => entry.1 ∉ xs.take entry.2).map Prod.fst

/-- Copies are dropped in favour of the first occurrence. -/
theorem eraseDups_eq_unrepeated {α : Type} [DecidableEq α]
    (xs : List α) : xs.eraseDups = unrepeated xs := by
  induction xs using List.reverseRecOn with
  | nil => rfl
  | append_singleton xs x ih =>
      have hfront : (xs.zipIdx.filter fun entry =>
            entry.1 ∉ (xs ++ [x]).take entry.2)
          = xs.zipIdx.filter fun entry => entry.1 ∉ xs.take entry.2 := by
        refine List.filter_congr ?_
        intro entry hentry
        have hlt := List.snd_lt_of_mem_zipIdx hentry
        rw [List.take_append_of_le_length (by omega)]
      have hlast : (xs ++ [x]).take xs.length = xs := List.take_left
      rw [unrepeated, List.zipIdx_append, List.filter_append, hfront,
        List.map_append, ← unrepeated, ← ih]
      by_cases hx : x ∈ xs
      · rw [eraseDups_concat_of_mem hx]
        simp [hlast, hx]
      · rw [eraseDups_concat_of_not_mem hx]
        simp [hlast, hx]

/-! ## Supported suffixes -/

namespace Path

/-- Whether a name ends with a suffix that is not all of it. -/
def hasSuffix (name suffix : String) : Bool :=
  suffix.toList.isSuffixOf name.toList && suffix.length < name.length

/-- A text is cut before its last dot. -/
theorem exists_cut_of_dot {text : Text} (h : '.' ∈ text) :
    ∃ stem ending, text = stem ++ '.' :: ending ∧ '.' ∉ ending := by
  obtain ⟨front, back, hcut, hfree⟩ :=
    List.eq_append_cons_of_mem (List.mem_reverse.mpr h)
  refine ⟨back.reverse, front.reverse, ?_, ?_⟩
  · have hreverse := congrArg List.reverse hcut
    rw [List.reverse_reverse] at hreverse
    simpa using hreverse
  · rwa [List.mem_reverse]

/-- A name without dots has none from the back either. -/
theorem bne_dot_of_mem_reverse {text : Text} (h : '.' ∉ text) :
    ∀ c ∈ text.reverse, (c != '.') = true := by
  intro c hc
  refine bne_iff_ne.mpr ?_
  rintro rfl
  exact h (List.mem_reverse.mp hc)

/-- What follows the last dot of a text. -/
theorem takeWhile_reverse_dot (stem : Text) {ending : Text}
    (h : '.' ∉ ending) :
    ((stem ++ '.' :: ending).reverse.takeWhile (· != '.')).reverse
      = ending := by
  rw [List.reverse_append, List.reverse_cons, List.append_assoc,
    List.takeWhile_append_of_pos (bne_dot_of_mem_reverse h),
    List.singleton_append, List.takeWhile_cons_of_neg (by decide),
    List.append_nil, List.reverse_reverse]

/-- The extension of a name with a dot, and of one without. -/
theorem extension_of_cut {stem ending : Text} (h : '.' ∉ ending) :
    extension (String.ofList (stem ++ '.' :: ending))
      = if stem = [] ∨ ending = [] then ""
        else String.ofList ('.' :: ending) := by
  have hlength : (stem ++ '.' :: ending).length - ending.length
      = stem.length + 1 := by
    simp only [List.length_append, List.length_cons]
    omega
  simp only [extension, String.toList_ofList, takeWhile_reverse_dot stem h,
    String.length_ofList, hlength]
  cases stem with
  | nil => simp
  | cons c stem => cases ending <;> simp

/-- A name without dots has no suffix. -/
theorem extension_of_not_mem {text : Text} (h : '.' ∉ text) :
    extension (String.ofList text) = "" := by
  have htake : (text.reverse.takeWhile (· != '.')).reverse = text := by
    rw [List.takeWhile_eq_self_iff.mpr (bne_dot_of_mem_reverse h),
      List.reverse_reverse]
  simp [extension, htake]

/-- **SUFFIXES**: a name has an extension of the table exactly if it ends
    with it and something stands before it. -/
theorem extension_beq_eq_hasSuffix {suffix : String} {language : Language}
    (h : (suffix, language) ∈ Language.extensions) (name : String) :
    (extension name == suffix) = hasSuffix name suffix := by
  -- a suffix of the table is a dot and letters
  obtain ⟨letters, hsuffix, hne, hdot⟩ : ∃ letters : Text,
      suffix = String.ofList ('.' :: letters) ∧ letters ≠ []
        ∧ '.' ∉ letters := by
    have hall : ∀ entry ∈ Language.extensions,
        entry.1 = String.ofList ('.' :: entry.1.toList.tail)
          ∧ entry.1.toList.tail ≠ [] ∧ '.' ∉ entry.1.toList.tail := by
      decide
    exact ⟨_, hall _ h⟩
  obtain ⟨text, rfl⟩ : ∃ text, name = String.ofList text :=
    ⟨name.toList, String.ofList_toList.symm⟩
  rw [hsuffix, Bool.eq_iff_iff, beq_iff_eq, hasSuffix, Bool.and_eq_true,
    List.isSuffixOf_iff_suffix, decide_eq_true_eq, String.toList_ofList,
    String.toList_ofList, String.length_ofList, String.length_ofList]
  by_cases hmem : '.' ∈ text
  · obtain ⟨stem, ending, rfl, hending⟩ := exists_cut_of_dot hmem
    rw [extension_of_cut hending]
    constructor
    · intro heq
      split at heq
      · exact nomatch String.ofList_inj.mp heq
      · rename_i hcut
        obtain ⟨hstem, _⟩ := not_or.mp hcut
        obtain ⟨_, rfl⟩ := List.cons.inj (String.ofList_inj.mp heq)
        refine ⟨List.suffix_append _ _, ?_⟩
        have := List.length_pos_iff.mpr hstem
        simp only [List.length_append]
        omega
    · rintro ⟨⟨front, hfront⟩, hlt⟩
      -- both endings are what follows the last dot
      have hsame : ending = letters := by
        have hlast := takeWhile_reverse_dot stem hending
        rw [← hfront, takeWhile_reverse_dot front hdot] at hlast
        exact hlast.symm
      subst hsame
      rw [if_neg]
      rintro (rfl | hnil)
      · exact absurd hlt (Nat.lt_irrefl _)
      · exact hne hnil
  · rw [extension_of_not_mem hmem]
    constructor
    · intro heq
      exact nomatch String.ofList_inj.mp heq
    · rintro ⟨⟨front, rfl⟩, _⟩
      exact absurd (List.mem_append_right front List.mem_cons_self) hmem

/-- The language of the first suffix of the table that a path's name has,
    in any case. -/
def supported? (path : Path) : Option Language :=
  Language.extensions.findSome? fun entry =>
    if hasSuffix (Text.lower path.name) entry.1 then some entry.2 else none

/-- Cutting a name before its last dot finds the same language as asking for
    each suffix of the table. -/
theorem language?_eq_supported? (path : Path) :
    path.language? = path.supported? := by
  have hfind : ∀ table : List (String × Language),
      table ⊆ Language.extensions →
      table.lookup (extension (Text.lower path.name))
        = table.findSome? fun entry =>
            if hasSuffix (Text.lower path.name) entry.1 then some entry.2
            else none := by
    intro table
    induction table with
    | nil => intro _; rfl
    | cons entry table ih =>
        intro hsub
        obtain ⟨suffix, language⟩ := entry
        rw [List.lookup_cons, List.findSome?_cons,
          extension_beq_eq_hasSuffix (hsub List.mem_cons_self),
          ih fun e he => hsub (List.mem_cons_of_mem _ he)]
        cases hasSuffix (Text.lower path.name) suffix with
        | true => rfl
        | false => rfl
  exact hfind _ (List.Subset.refl _)

end Path

/-! ## Candidates -/

namespace Candidate

/-- The candidate of a path in normal form, given which paths lead to a
    file that counts. -/
def counted? (counts : Path → Bool) (config : Config) (project : Path)
    (path : String) : Option Candidate :=
  if config.ignores project (Path.parse path) = false
      ∧ counts (Path.parse path) = true then
    (Path.parse path).supported?.map fun language => ⟨path, language⟩
  else none

/-- The first occurrence of each normal path that has a supported suffix, is
    not ignored and leads to a file that counts. -/
def firstCounted (counts : Path → Bool) (config : Config) (project : Path)
    (paths : List String) : List Candidate :=
  (unrepeated (normal paths)).filterMap (counted? counts config project)

/-- The candidate of a path in normal form. -/
def reviewed? (tree : FileTree) : Config → Path → String → Option Candidate :=
  counted? tree.isReadable

/-- The candidates among some paths: the files that count are those that
    can be read. -/
def reference (tree : FileTree) :
    Config → Path → List String → List Candidate :=
  firstCounted tree.isReadable

variable {tree : FileTree} {config : Config} {project : Path}

/-- The first occurrences are what is left without copies. -/
theorem reference_eq (paths : List String) :
    reference tree config project paths
      = (normal paths).eraseDups.filterMap (reviewed? tree config project) := by
  rw [eraseDups_eq_unrepeated]
  rfl

/-- A path becomes a candidate if it is not ignored, leads to a file that
    can be read and has a supported suffix; the order of these tests only
    decides what is logged. -/
theorem value_check (path : Path) :
    (check tree config project path).value
      = if config.ignores project path = false
            ∧ tree.isReadable path = true then
          path.language?.map fun language => ⟨path.posix, language⟩
        else none := by
  unfold check
  cases path.language? with
  | none =>
      rw [Option.map_none, ite_self]
      rfl
  | some language =>
      cases config.ignores project path with
      | true => rfl
      | false =>
          cases tree.isReadable path with
          | true => rfl
          | false => rfl

/-- A path in normal form stays as it is when it is read again. -/
theorem posix_parse_of_mem_normal {paths : List String} {path : String}
    (h : path ∈ normal paths) : (Path.parse path).posix = path := by
  obtain ⟨given, _, rfl⟩ := List.mem_map.mp h
  rw [Path.parse_posix_parse]

/-- **CANDIDATES**: what is selected among some paths is the reference. -/
theorem value_select_eq_reference (paths : List String) :
    (select tree config project paths).value
      = reference tree config project paths := by
  rw [value_select, reference_eq]
  refine List.filterMap_congr ?_
  intro path hpath
  have hnormal : path ∈ normal paths := List.mem_eraseDups.mp hpath
  rw [value_check, reviewed?, counted?, posix_parse_of_mem_normal hnormal,
    Path.language?_eq_supported?]

/-- A candidate has the path that it was made from. -/
theorem path_of_reviewed? {path : String} {c : Candidate}
    (h : reviewed? tree config project path = some c) : c.path = path := by
  rw [reviewed?, counted?] at h
  split at h
  · obtain ⟨language, _, rfl⟩ := Option.map_eq_some_iff.mp h
    rfl
  · exact nomatch h

/-- The paths of candidates are those that have one. -/
theorem map_path_filterMap (paths : List String) :
    (paths.filterMap (reviewed? tree config project)).map path
      = paths.filter fun p => (reviewed? tree config project p).isSome := by
  induction paths with
  | nil => rfl
  | cons p paths ih =>
      cases hp : reviewed? tree config project p with
      | none =>
          rw [List.filterMap_cons_none hp, List.filter_cons_of_neg (by simp [hp]),
            ih]
      | some c =>
          rw [List.filterMap_cons_some hp, List.filter_cons_of_pos (by simp [hp]),
            List.map_cons, ih, path_of_reviewed? hp]

/-- Candidates can be chosen by their paths. -/
theorem filterMap_filter_path (keep : String → Bool) (paths : List String) :
    (paths.filter keep).filterMap (reviewed? tree config project)
      = (paths.filterMap (reviewed? tree config project)).filter
          fun c => keep c.path := by
  rw [List.filterMap_filter, List.filter_filterMap]
  refine List.filterMap_congr ?_
  intro p _
  cases hp : reviewed? tree config project p with
  | none => exact ite_self none
  | some c => rw [Option.filter_some, path_of_reviewed? hp]

/-- The candidates of two lists are those of the first and those of the
    second that are not among the first paths. -/
theorem reference_append (xs ys : List String) :
    reference tree config project (xs ++ ys)
      = reference tree config project xs
        ++ (reference tree config project ys).filter
            (fun c => c.path ∉ normal xs) := by
  have hnormal : normal (xs ++ ys) = normal xs ++ normal ys :=
    List.map_append
  have hnew : (normal ys).removeAll (normal xs)
      = (normal ys).filter fun path => path ∉ normal xs := by
    refine List.filter_congr ?_
    intro path _
    rw [Bool.eq_iff_iff]
    simp
  rw [reference_eq, reference_eq, reference_eq, hnormal,
    List.eraseDups_append, hnew, eraseDups_filter, List.filterMap_append,
    filterMap_filter_path]

/-- The paths of the candidates are the distinct normal paths that pass on
    their own. -/
theorem map_path_reference (paths : List String) :
    (reference tree config project paths).map path
      = (normal paths).eraseDups.filter fun p =>
          (reviewed? tree config project p).isSome := by
  rw [reference_eq, map_path_filterMap]

/-- No two candidates have the same path. -/
theorem nodup_reference (paths : List String) :
    ((reference tree config project paths).map path).Nodup := by
  rw [map_path_reference]
  exact List.filter_sublist.nodup (nodup_eraseDups _)

/-- The candidates of candidates are themselves. -/
theorem reference_reference (paths : List String) :
    reference tree config project
        ((reference tree config project paths).map path)
      = reference tree config project paths := by
  have hnodup : ((reference tree config project paths).map path).Nodup :=
    nodup_reference paths
  -- the paths of candidates are normal already
  have hnormal : normal ((reference tree config project paths).map path)
      = (reference tree config project paths).map path := by
    refine (List.map_congr_left ?_).trans (List.map_id _)
    intro p hp
    rw [map_path_reference] at hp
    exact posix_parse_of_mem_normal
      (List.mem_eraseDups.mp (List.mem_filter.mp hp).1)
  have houter : reference tree config project
        ((reference tree config project paths).map path)
      = ((reference tree config project paths).map path).filterMap
          (reviewed? tree config project) := by
    rw [reference_eq, hnormal, eraseDups_eq_self hnodup]
  rw [houter, map_path_reference, List.filterMap_filter, reference_eq]
  refine List.filterMap_congr ?_
  intro p _
  cases hp : reviewed? tree config project p <;> simp

/-- **SELECTION**: the candidates among some paths are the first occurrences
    of the normal paths that have a supported suffix, are not ignored and
    lead to a file that can be read.  So no path comes twice, further paths add what is new
    of their own candidates, the candidates of candidates are themselves,
    and normal paths are normal. -/
theorem select_reference (tree : FileTree) (config : Config) (project : Path)
    (xs ys : List String) :
    let found := fun paths => (select tree config project paths).value
    found xs = reference tree config project xs
      ∧ ((found xs).map path).Nodup
      ∧ found (xs ++ ys)
        = found xs ++ (found ys).filter (fun c => c.path ∉ normal xs)
      ∧ found ((found xs).map path) = found xs
      ∧ normal (normal xs) = normal xs := by
  intro found
  have hfound : found = reference tree config project :=
    funext value_select_eq_reference
  rw [hfound]
  refine ⟨rfl, nodup_reference xs, reference_append xs ys,
    reference_reference xs, ?_⟩
  refine (List.map_congr_left ?_).trans (List.map_id _)
  intro path hpath
  exact posix_parse_of_mem_normal hpath

/-- Odd spellings, and the paths they are taken for. -/
example : normal ["", ".", "//x", "///x", "..", "a//./b/", "/", "//"]
    = [".", ".", "//x", "/x", "..", "a/b", "/", "//"] := by
  decide

end Candidate

/-! ## Files that exist but are not selected -/

namespace FileTree

variable {tree : FileTree} {path : Path}

/-- Whether the components of a path lead to a file, whoever may read it. -/
def holds (tree : FileTree) (path : Path) : Bool :=
  match tree.locate path with
  | .ok place => (tree.files.lookup place).isSome
  | .error _ => false

/-- A path that is too long leads to no file that can be read. -/
theorem isReadable_of_long (h : maxPathLength < path.posix.utf8ByteSize) :
    tree.isReadable path = false := by
  have hresolve : tree.resolve path = .error .nameTooLong := by
    rw [resolve, if_pos h]
  rw [isReadable, isFile, nodeAt?, hresolve]
  rfl

end FileTree

namespace Candidate

/-- A page that may be read and one that may not, beside a folder. -/
def lockedTree : FileTree where
  files := [(["page.rb"], [112, 10]), (["locked.rb"], [112, 10]),
    (["lib", "cart.rb"], [112, 10])]
  unreadable := [["locked.rb"]]

/-- A configuration that ignores nothing. -/
def ignoringNothing : Config := { ignoreDirs := [] }

/-- The page that may not be read. -/
def lockedPath : Path := ⟨.relative, ["locked.rb"]⟩

/-- A way to the other page that leads into the folder and out of it
    again, for more than 4095 bytes. -/
def windingPath : Path :=
  ⟨.relative, (List.replicate 600 ["lib", ".."]).flatten ++ ["page.rb"]⟩

/-- The winding path is in normal form: folders are left only when the path
    is followed. -/
theorem parse_windingPath : Path.parse windingPath.posix = windingPath := by
  refine Path.parse_posix fun name hname => ?_
  rw [windingPath, List.mem_append, List.mem_flatten] at hname
  rcases hname with ⟨pair, hpair, hname⟩ | hname
  · rw [List.eq_of_mem_replicate hpair] at hname
    simp only [List.mem_cons, List.not_mem_nil, or_false] at hname
    rcases hname with rfl | rfl
    · exact ⟨by decide, by decide⟩
    · exact ⟨by decide, by decide⟩
  · rw [List.mem_singleton.mp hname]
    exact ⟨by decide, by decide⟩

/-- The winding path is too long to be looked up. -/
theorem isReadable_windingPath : lockedTree.isReadable windingPath = false := by
  refine FileTree.isReadable_of_long ?_
  rw [Path.posix, String.utf8ByteSize_ofList]
  decide +kernel

/-- Followed component by component, the winding path leads to a file. -/
theorem holds_windingPath : lockedTree.holds windingPath = true := by
  decide +kernel

/-- Both paths have a supported suffix, so all depends on which files
    count. -/
theorem counted?_locked (counts : Path → Bool) {path : Path}
    (h : path = lockedPath ∨ path = windingPath) :
    counted? counts ignoringNothing lockedTree.home path.posix
      = if counts path = true then some ⟨path.posix, .ruby⟩ else none := by
  have hparse : Path.parse path.posix = path := by
    rcases h with rfl | rfl
    · decide
    · exact parse_windingPath
  have hignores : ignoringNothing.ignores lockedTree.home path = false := by
    rw [Config.ignores]
    cases path.withinProject? lockedTree.home with
    | none => rfl
    | some inner => rfl
  have hlanguage : path.supported? = some .ruby := by
    rcases h with rfl | rfl
    · decide
    · decide +kernel
  simp only [counted?, hparse, hignores, hlanguage, true_and, Option.map_some]

/-- The two paths as a review is given them. -/
def lockedPaths : List String := [lockedPath, windingPath].map Path.posix

/-- The two paths are in normal form and differ, so both count. -/
theorem eraseDups_normal_lockedPaths :
    (normal lockedPaths).eraseDups = lockedPaths := by
  have hlocked : Path.parse lockedPath.posix = lockedPath := by decide
  have hnormal : normal lockedPaths = lockedPaths := by
    rw [normal, lockedPaths, List.map_map]
    refine List.map_congr_left fun path hpath => ?_
    rcases List.mem_cons.mp hpath with rfl | hpath
    · exact congrArg Path.posix hlocked
    · rw [List.mem_singleton.mp hpath]
      exact congrArg Path.posix parse_windingPath
  rw [hnormal]
  refine eraseDups_eq_self (List.Nodup.map_on ?_ ?_)
  · -- paths that are read back from the same text are the same
    have hparse : ∀ path ∈ [lockedPath, windingPath],
        Path.parse path.posix = path := by
      intro path hpath
      rcases List.mem_cons.mp hpath with rfl | hpath
      · exact hlocked
      · rw [List.mem_singleton.mp hpath]
        exact parse_windingPath
    intro path hpath path' hpath' heq
    rw [← hparse path hpath, heq, hparse path' hpath']
  · decide +kernel

/-- **EXISTING FILES**: a file with a supported suffix that is not ignored
    need not be selected: it may be closed to the reader, or its path may
    be too long. -/
theorem select_locked :
    (select lockedTree ignoringNothing lockedTree.home lockedPaths).value = []
      ∧ firstCounted lockedTree.holds ignoringNothing lockedTree.home lockedPaths
        = lockedPaths.map (⟨·, .ruby⟩) := by
  have hclosed : lockedTree.isReadable lockedPath = false := by decide
  have hexists : lockedTree.holds lockedPath = true := by decide
  constructor
  · rw [value_select_eq_reference, reference_eq, eraseDups_normal_lockedPaths,
      lockedPaths, List.map_cons, List.map_cons, List.map_nil,
      List.filterMap_cons_none, List.filterMap_cons_none, List.filterMap_nil]
    · rw [reviewed?, counted?_locked _ (.inr rfl), isReadable_windingPath]
      exact if_neg Bool.false_ne_true
    · rw [reviewed?, counted?_locked _ (.inl rfl), hclosed]
      exact if_neg Bool.false_ne_true
  · have hsome := counted?_locked lockedTree.holds (.inl rfl)
    have hsome' := counted?_locked lockedTree.holds (.inr rfl)
    rw [if_pos hexists] at hsome
    rw [if_pos holds_windingPath] at hsome'
    rw [firstCounted, ← eraseDups_eq_unrepeated, eraseDups_normal_lockedPaths,
      lockedPaths, List.map_cons, List.map_cons, List.map_nil,
      List.filterMap_cons_some hsome, List.filterMap_cons_some hsome',
      List.filterMap_nil, List.map_cons, List.map_cons, List.map_nil]

end Candidate

end CodeReview
