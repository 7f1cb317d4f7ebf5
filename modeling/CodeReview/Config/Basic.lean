/-! # Configuration

    The thresholds and ignore rules of a review. -/

namespace CodeReview

/-- Names in increasing order, each once. -/
def nameSet (names : List String) : List String :=
  (names.mergeSort fun a b => decide (a ≤ b)).eraseDups

/-- The folders that are ignored unless said otherwise. -/
def defaultIgnoreDirs : List String :=
  [".git", "coverage", "dist", "log", "node_modules", "public", "tmp",
   "vendor"]

/-- Thresholds and ignore rules. -/
structure Config where
  maxLineLength : Nat := 100
  maxMethodLength : Nat := 25
  maxFileSize : Nat := 300
  complexityThreshold : Nat := 10
  displayLimit : Nat := 5
  ignoreDirs : List String := defaultIgnoreDirs
  ignoreFiles : List String := []
deriving DecidableEq, Repr

namespace Config

/-- The same configuration with further names to ignore. -/
def ignoring (config : Config) (dirs files : List String) : Config :=
  { config with
    ignoreDirs := nameSet (config.ignoreDirs ++ dirs)
    ignoreFiles := nameSet (config.ignoreFiles ++ files) }

end Config

end CodeReview
