import CodeReview.Log
import CodeReview.Result.Basic

/-! # Aggregation

    Collects the findings of files into one result.  Of findings with the
    same key only the first is kept; the findings of a category are ordered
    by severity, and among equals by the order they came in. -/

namespace CodeReview

/-- The findings collected so far, the number of copies that were dropped,
    and the observations. -/
structure Aggregator where
  kept : List Finding := []
  dropped : Nat := 0
  positives : List String := []

namespace Aggregator

/-- Whether a finding with this key was kept. -/
def hasKey (a : Aggregator) (key : Finding.Key) : Bool :=
  (a.kept.map Finding.key).contains key

/-- Adds a finding, unless one with its key is there already. -/
def addOne (a : Aggregator) (f : Finding) : Aggregator :=
  if a.hasKey f.key then { a with dropped := a.dropped + 1 }
  else { a with kept := a.kept ++ [f] }

/-- Adds the findings of a file. -/
def add (a : Aggregator) (findings : List Finding) : Aggregator :=
  findings.foldl addOne a

/-- How many of some findings are new. -/
def newCount (a : Aggregator) (findings : List Finding) : Nat :=
  (a.add findings).kept.length - a.kept.length

/-- Whether a finding of one of some categories was kept. -/
def hasCategory (a : Aggregator) (categories : List Category) : Bool :=
  a.kept.any fun f => categories.contains f.category

/-- Sets the observations, each once. -/
def setPositives (a : Aggregator) (notes : List String) : Aggregator :=
  { a with positives := notes.eraseDups }

/-- Findings by severity, the most severe first. -/
def sortBySeverity (findings : List Finding) : List Finding :=
  findings.mergeSort fun f g => f.severity.rank ≤ g.severity.rank

/-- The findings of each category that has any. -/
def buckets (findings : List Finding) : List (Category × List Finding) :=
  Category.all.filterMap fun category =>
    match findings.filter (·.category = category) with
    | [] => none
    | bucket => some (category, sortBySeverity bucket)

/-- The number of findings of each severity. -/
def countSeverities (findings : List Finding) : List (Severity × Int) :=
  Severity.all.map fun severity =>
    (severity, (findings.countP (·.severity = severity) : Int))

/-- The result so far. -/
def freeze (a : Aggregator) : ReviewResult :=
  ⟨buckets a.kept, countSeverities a.kept, a.positives⟩

/-- What is logged when the result is taken. -/
def freezeLog (a : Aggregator) : List LogEntry :=
  if a.dropped = 0 then []
  else [⟨.debug, s!"Dropped {a.dropped} duplicate finding(s)"⟩]

end Aggregator

/-- Several results as one. -/
def ReviewResult.merge (results : List ReviewResult) : ReviewResult :=
  let collected := results.foldl (fun a r => a.add r.allFindings) ({} : Aggregator)
  (collected.setPositives (results.flatMap (·.positives))).freeze

end CodeReview
