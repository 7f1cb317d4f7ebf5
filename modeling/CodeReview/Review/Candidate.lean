import CodeReview.Config.Basic
import CodeReview.FileTree
import CodeReview.Log

/-! # Candidates

    Which of the paths given to a review are reviewed: those of a known
    language that are not ignored and that lead to a file that may be read,
    each once. -/

namespace CodeReview

/-- A text without slashes at its ends. -/
def stripSlashes (text : Text) : Text :=
  Text.dropRight (· == '/') (text.dropWhile (· == '/'))

/-- Whether a rule for folders applies to a path within the project: the
    rule's folders stand one after the other somewhere before the path's
    last component. -/
def ignoresFolder (rule : String) (posix : Text) : Bool :=
  let folder := stripSlashes rule.toList
  !folder.isEmpty
    && ((folder ++ ['/']).isPrefixOf posix
      || Text.occurs (Path.slashed folder) ('/' :: posix))

/-- Whether the configuration ignores a path. -/
def Config.ignores (config : Config) (project path : Path) : Bool :=
  config.ignoreFiles.contains path.name
    || match path.withinProject? project with
       | none => false
       | some inner =>
           config.ignoreDirs.any fun rule => ignoresFolder rule inner.toText

/-- A file to be reviewed. -/
structure Candidate where
  path : String
  language : Language
deriving DecidableEq, Repr

namespace Candidate

/-- The folder that paths from a root are compared with. -/
def defaultProject : Path := ({} : FileTree).home

/-- The candidate of a path in normal form, or the reason why there is
    none. -/
def check (tree : FileTree) (config : Config) (project : Path) (path : Path) :
    Logged (Option Candidate) :=
  match path.language? with
  | none => do
      .emit .debug s!"Skipping {path.posix} - unsupported file type"
      return none
  | some language =>
      if config.ignores project path then do
        .emit .debug s!"Skipping {path.posix} - ignored by configuration"
        return none
      else if tree.isReadable path then pure (some ⟨path.posix, language⟩)
      else do
        .emit .warning s!"Skipping {path.posix} - missing or unreadable"
        return none

/-- The candidates among some paths, in order.  A path that is given again
    counts once. -/
def select (tree : FileTree) (config : Config) (project : Path)
    (paths : List String) : Logged (List Candidate) := do
  let normal := ((paths.map fun p => (Path.parse p).posix).eraseDups).map Path.parse
  let checked ← normal.mapM (check tree config project)
  return checked.filterMap id

end Candidate

end CodeReview
