import CodeReview.Json.Printer
import CodeReview.Report.Markdown

/-! # The machine-readable report

    All findings and the exact numbers, as JSON. -/

namespace CodeReview.Report

/-- The name of the list of a severity. -/
def listName : Severity → String
  | .critical => "critical"
  | .warning => "warnings"
  | .suggestion => "suggestions"

/-- A finding without its severity, which its list tells. -/
def issue (f : Finding) : Json :=
  .obj [("file", .str f.file), ("line", .ofOption .ofNat f.line),
    ("category", .str f.category.name), ("message", .str f.message),
    ("suggestion", .str f.suggestion)]

/-- The lists of findings, one for each severity. -/
def issues (r : ReviewResult) : Json :=
  .obj (Severity.all.map fun severity =>
    (listName severity, .arr ((r.bySeverity severity).map issue)))

/-- The report as a value. -/
def machineValue (r : ReviewResult) : Except Error Json := do
  let critical ← countOf r .critical
  let warnings ← countOf r .warning
  let suggestions ← countOf r .suggestion
  return .obj
    [("summary", .obj
        [("total", .int r.total), ("critical", .int critical),
         ("warnings", .int warnings), ("suggestions", .int suggestions)]),
     ("issues", issues r)]

/-- The report as text. -/
def machine (r : ReviewResult) : Except Error String := do
  let value ← machineValue r
  if value.integers.any Text.isLong then throw .numberTooLong
  return value.render .report

end CodeReview.Report
