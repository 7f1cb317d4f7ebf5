import CodeReview.Detector.Basic
import CodeReview.Proofs.NormalPath
import CodeReview.Proofs.Scanning
import CodeReview.Review.Candidate
import Mathlib.Data.List.Infix

/-! # Folders of a path

    Whether a path lies in a folder is asked of its text: the folder is
    looked for between slashes.  Cutting both texts at their slashes turns
    the question into one about components (`occurs_slashed_iff`): a text
    between slashes stands in a path exactly if its pieces follow one
    another among the pieces of the path, before the last one.  The last
    piece is what follows the last slash, so a file is never taken for a
    folder, and pieces are compared whole, so neither is a name that only
    contains that of the folder. -/

namespace CodeReview

namespace Text

/-! ## Fragments of a text -/

theorem occurs_iff_isInfix {fragment text : Text} :
    occurs fragment text = true ↔ fragment <:+: text := by
  induction text with
  | nil => rw [occurs, List.isEmpty_iff, List.infix_nil]
  | cons c rest ih =>
      rw [occurs, Bool.or_eq_true, List.isPrefixOf_iff_prefix, ih,
        List.infix_cons_iff]

theorem join_append (sep : Text) {front back : List Text} (hfront : front ≠ [])
    (hback : back ≠ []) :
    join sep (front ++ back) = join sep front ++ (sep ++ join sep back) := by
  induction front with
  | nil => exact absurd rfl hfront
  | cons piece front ih =>
      cases front with
      | nil =>
          rw [List.singleton_append, join_cons _ _ hback, List.append_assoc]
          rfl
      | cons next front =>
          rw [List.cons_append, join_cons _ _ (List.append_ne_nil_of_left_ne_nil
            (List.cons_ne_nil next front) back), ih (List.cons_ne_nil _ _),
            join_cons _ _ (List.cons_ne_nil next front)]
          simp only [List.append_assoc]

/-- Every separator in front of a text cuts off an empty piece. -/
theorem splitOn_replicate_append (sep : Char) (n : Nat) (text : Text) :
    splitOn sep (List.replicate n sep ++ text)
      = List.replicate n [] ++ splitOn sep text := by
  induction n with
  | zero => rfl
  | succ n ih =>
      rw [List.replicate_succ, List.cons_append, splitOn, if_pos rfl, ih]
      rfl

/-- **BETWEEN SLASHES**: a text between slashes stands in another one,
    behind its first slash, if its pieces follow one another among the
    pieces of the other before the last one. -/
theorem occurs_slashed_iff {folder text : Text} :
    occurs (Path.slashed folder) ('/' :: text) = true
      ↔ splitOn '/' folder <:+: (splitOn '/' text).dropLast := by
  have hwhole : splitOn '/' ('/' :: text) = [] :: splitOn '/' text := by
    rw [splitOn, if_pos rfl]
  rw [occurs_iff_isInfix]
  constructor
  · rintro ⟨front, back, hcut⟩
    have hcut' : '/' :: text = front ++ '/' :: (folder ++ '/' :: back) := by
      rw [← hcut, Path.slashed]
      simp
    rw [hcut', splitOn_append_sep, splitOn_append_sep] at hwhole
    -- the first piece is the empty one before the slash that was added
    obtain ⟨piece, pieces, hfront⟩ :=
      List.exists_cons_of_ne_nil (splitOn_ne_nil '/' front)
    rw [hfront, List.cons_append] at hwhole
    obtain ⟨_, hpieces⟩ := List.cons.inj hwhole
    refine ⟨pieces, (splitOn '/' back).dropLast, ?_⟩
    rw [← hpieces, ← List.append_assoc,
      List.dropLast_append_of_ne_nil (splitOn_ne_nil '/' back)]
  · rintro ⟨front, back, hcut⟩
    obtain ⟨last, hsplit⟩ : ∃ last, splitOn '/' text
        = front ++ (splitOn '/' folder ++ (back ++ [last])) := by
      refine ⟨(splitOn '/' text).getLast (splitOn_ne_nil '/' text), ?_⟩
      rw [← List.append_assoc, ← List.append_assoc, hcut,
        List.dropLast_concat_getLast]
    have htext : '/' :: text = join ['/'] ([] :: splitOn '/' text) := by
      rw [← hwhole, join_splitOn]
    rw [htext, hsplit, ← List.cons_append, join_append ['/']
      (List.cons_ne_nil _ _) (List.append_ne_nil_of_left_ne_nil
        (splitOn_ne_nil '/' folder) _), join_append ['/']
      (splitOn_ne_nil '/' folder) (by simp), join_splitOn, Path.slashed]
    exact ⟨join ['/'] ([] :: front), join ['/'] (back ++ [last]), by simp⟩

end Text

namespace Path

open Text

/-! ## Pieces of a path -/

/-- The pieces of a path before its last one are its folders, behind an
    empty piece for each slash of its root. -/
theorem dropLast_splitOn_toText (s : String) :
    (splitOn '/' (parse s).toText).dropLast
      = List.replicate (slashes (parse s).root) []
        ++ (parse s).folders.map String.toList := by
  have hproper := proper_of_mem_parse (s := s)
  generalize parse s = path at hproper
  obtain ⟨root, components⟩ := path
  rw [toText, folders]
  split
  · -- the empty relative path has one piece, a dot
    rename_i hroot hcomponents
    cases hroot
    cases hcomponents
    rfl
  · show (splitOn '/' (root.text.toList
        ++ join ['/'] (components.map String.toList))).dropLast = _
    rw [text_eq_replicate, splitOn_replicate_append,
      List.dropLast_append_of_ne_nil (splitOn_ne_nil '/' _)]
    cases components with
    | nil => rfl
    | cons name rest =>
        rw [splitOn_join (by simp), List.map_dropLast]
        intro piece hpiece
        obtain ⟨name, hname, rfl⟩ := List.mem_map.mp hpiece
        exact (hproper name hname).no_slash

/-- A name is a folder of a path if it stands in it between slashes. -/
theorem hasFolder_iff {s folder : String} (hne : folder ≠ "")
    (hslash : '/' ∉ folder.toList) :
    (parse s).hasFolder folder = true ↔ folder ∈ (parse s).folders := by
  have hempty : folder.toList ≠ [] := by
    intro h
    exact hne (String.toList_eq_nil_iff.mp h)
  rw [hasFolder, occurs_slashed_iff, splitOn_of_not_mem hslash,
    dropLast_splitOn_toText, List.singleton_infix_iff, List.mem_append,
    List.mem_map]
  constructor
  · rintro (hroot | ⟨name, hname, heq⟩)
    · exact absurd (List.eq_of_mem_replicate hroot) hempty
    · rwa [← String.toList_inj.mp heq]
  · intro hfolder
    exact .inr ⟨folder, hfolder, rfl⟩

end Path

/-! ## Rules for folders -/

/-- The folders that a rule names, one inside the other. -/
def ruleFolders (rule : String) : List String :=
  (Text.splitOn '/' (stripSlashes rule.toList)).map String.ofList

/-- Texts follow one another among some names if their names do. -/
theorem infix_map_toList_iff {pieces : List Text} {names : List String} :
    pieces <:+: names.map String.toList
      ↔ pieces.map String.ofList <:+: names := by
  constructor
  · intro h
    have hnames := h.map String.ofList
    rwa [List.map_map, List.map_congr_left (g := id) (by simp),
      List.map_id] at hnames
  · intro h
    have hpieces := h.map String.toList
    rwa [List.map_map, List.map_congr_left (g := id) (by simp),
      List.map_id] at hpieces

/-- A folder at the very start of a path stands between slashes, too. -/
theorem ignoresFolder_eq (rule : String) (posix : Text) :
    ignoresFolder rule posix
      = (!(stripSlashes rule.toList).isEmpty
        && Text.occurs (Path.slashed (stripSlashes rule.toList))
            ('/' :: posix)) := by
  have hstart : (stripSlashes rule.toList ++ ['/']).isPrefixOf posix = true →
      Text.occurs (Path.slashed (stripSlashes rule.toList)) ('/' :: posix)
        = true := by
    intro h
    rw [Text.occurs_iff_isInfix]
    exact ((List.prefix_cons_inj '/').mpr
      (List.isPrefixOf_iff_prefix.mp h)).isInfix
  rw [ignoresFolder]
  congr 1
  rw [Bool.eq_iff_iff, Bool.or_eq_true]
  exact ⟨fun h => h.elim hstart id, .inr⟩

theorem ignoresFolder_iff {rule s : String}
    (h : (Path.parse s).root = .relative) :
    ignoresFolder rule (Path.parse s).toText = true
      ↔ stripSlashes rule.toList ≠ []
        ∧ ruleFolders rule <:+: (Path.parse s).folders := by
  rw [ignoresFolder_eq, Bool.and_eq_true, Text.occurs_slashed_iff,
    Path.dropLast_splitOn_toText, h, ruleFolders, ← infix_map_toList_iff]
  simp [Path.slashes]

/-- **FOLDERS BY COMPONENTS**: a relative path is ignored exactly if its
    last component is a name to ignore, or the folders of some rule follow
    one another among its own; and a file is in a folder of some name
    exactly if the name is one of the folders of its path. -/
theorem folders_by_component :
    (∀ (config : Config) (project : Path) (path : String),
      (Path.parse path).root = .relative →
      (config.ignores project (Path.parse path) = true
        ↔ (Path.parse path).name ∈ config.ignoreFiles
          ∨ ∃ rule ∈ config.ignoreDirs, stripSlashes rule.toList ≠ []
            ∧ ruleFolders rule <:+: (Path.parse path).folders))
      ∧ ∀ (subject : Subject) (folder : String),
        folder ≠ "" → '/' ∉ folder.toList →
        (subject.inFolder folder = true
          ↔ folder ∈ (Path.parse subject.path).folders) := by
  constructor
  · intro config project path hrelative
    have hinner : (Path.parse path).withinProject? project
        = some (Path.parse path) := by
      rw [Path.withinProject?, Path.isAbsolute, hrelative]
      rfl
    rw [Config.ignores, hinner, Bool.or_eq_true, List.contains_iff_mem,
      List.any_eq_true]
    simp only [ignoresFolder_iff hrelative]
  · intro subject folder hne hslash
    exact Path.hasFolder_iff hne hslash

/-- A rule for nested folders finds them behind a part of themselves, but
    not where a name only ends like the first of them or the last one is a
    file. -/
theorem folders_nestedRule :
    let config : Config := { ignoreDirs := ["/lib/old/core//"] }
    config.ignores ⟨.slash, []⟩ (Path.parse "./app/lib/old//lib/old/core/x.rb")
        = true
      ∧ ¬ config.ignores ⟨.slash, []⟩ (Path.parse "mylib/old/lib/old/core")
        = true
      ∧ ∀ subject : Subject, subject.path = "//lib/../old/x.rb" →
        subject.inFolder ".." = true ∧ ¬ subject.inFolder "x.rb" = true := by
  intro config
  refine ⟨?_, ?_, ?_⟩
  · refine (folders_by_component.1 config _ _ rfl).mpr (.inr ?_)
    exact ⟨"/lib/old/core//", List.mem_singleton_self _, by decide,
      ["app", "lib", "old"], [], by decide⟩
  · rw [folders_by_component.1 config _ _ rfl]
    decide
  · intro subject hpath
    rw [folders_by_component.2 subject ".." (by decide) (by decide),
      folders_by_component.2 subject "x.rb" (by decide) (by decide), hpath]
    decide

end CodeReview
