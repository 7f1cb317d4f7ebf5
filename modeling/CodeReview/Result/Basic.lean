import CodeReview.Finding

/-! # Results

    The outcome of a review: findings by category, their number by
    severity, and encouraging observations. -/

namespace CodeReview

/-- The outcome of a review. -/
structure ReviewResult where
  findings : List (Category × List Finding)
  counts : List (Severity × Int)
  positives : List String
deriving DecidableEq, Repr

namespace ReviewResult

/-- All severities at zero. -/
def zeroCounts : List (Severity × Int) := Severity.all.map (·, 0)

/-- The result of a review without files. -/
def empty : ReviewResult := ⟨[], zeroCounts, []⟩

/-- The number of findings. -/
def total (r : ReviewResult) : Int := (r.counts.map (·.2)).foldr (· + ·) 0

/-- The number of findings of a severity, if it is given. -/
def count? (r : ReviewResult) (severity : Severity) : Option Int :=
  r.counts.lookup severity

/-- Whether there is a critical finding. -/
def isFailing (r : ReviewResult) : Bool := 0 < (r.count? .critical).getD 0

/-- The findings of a category. -/
def bucket (r : ReviewResult) (category : Category) : List Finding :=
  (r.findings.lookup category).getD []

/-- Every finding, category by category. -/
def allFindings (r : ReviewResult) : List Finding :=
  Category.all.flatMap r.bucket

/-- Every finding of a severity. -/
def bySeverity (r : ReviewResult) (severity : Severity) : List Finding :=
  r.allFindings.filter (·.severity = severity)

end ReviewResult

end CodeReview
