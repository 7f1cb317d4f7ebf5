import CodeReview.Result.Display
import CodeReview.Text.Integer

/-! # The Markdown report

    A report for readers: an overall impression, the findings by category,
    further observations and a summary. -/

namespace CodeReview.Report

/-- The heading of a category. -/
def heading : Category → String
  | .security => "🔒 Security Concerns"
  | .performance => "⚡ Performance Optimizations"
  | .cleanCode => "🧹 Clean Code Suggestions"
  | .accessibility => "♿ Accessibility Improvements"
  | .maintainability => "🔧 Maintainability Notes"
  | .bestPractice => "📋 Best Practice Suggestions"
  | .style => "🎨 Style Notes"
  | .naming => "🏷️ Naming Conventions"
  | .structural => "🏗️ Structural Concerns"

/-- The label of a severity. -/
def label : Severity → String
  | .critical => "Critical"
  | .warning => "Warning"
  | .suggestion => "Suggestion"

/-- Why a report cannot be written. -/
inductive Error where
  /-- The result lacks the number of findings of a severity. -/
  | missingCount (severity : Severity)
  /-- There is no such format. -/
  | unknownFormat (name : String)
  /-- A number has too many digits to be written. -/
  | numberTooLong
deriving DecidableEq, Repr

/-- The number of findings of a severity. -/
def countOf (r : ReviewResult) (severity : Severity) : Except Error Int :=
  match r.count? severity with
  | some n => .ok n
  | none => .error (.missingCount severity)

/-- A number as text. -/
def numeral (n : Int) : Except Error String :=
  if Text.isLong n then .error .numberTooLong else .ok (toString n)

/-- Where a finding is. -/
def location (f : Finding) : String :=
  match f.line with
  | some line => s!"**Line {line}:**"
  | none => "**File:**"

/-- The lines on one finding. -/
def findingLines (number : Nat) (f : Finding) : List String :=
  [s!"### {number}. {label f.severity} in `{f.file}`",
   s!"{location f} {f.message}",
   ""]
    ++ if f.suggestion.isEmpty then []
       else [s!"**Suggestion:** {f.suggestion}", ""]

/-- The lines on findings that are numbered from a number on. -/
def numberedLines (number : Nat) : List Finding → List String
  | [] => []
  | f :: rest => findingLines number f ++ numberedLines (number + 1) rest

/-- The lines on findings that are not shown. -/
def hiddenLines (s : DisplaySection) : List String :=
  if s.hidden = 0 then []
  else [s!"*... and {s.hidden} more {s.severity.name}(s)*", ""]

/-- The lines on the sections of a category, numbered through. -/
def sectionLines (number : Nat) : List DisplaySection → List String
  | [] => []
  | s :: rest =>
      numberedLines number s.shown ++ hiddenLines s
        ++ sectionLines (number + s.shown.length) rest

/-- The lines on a category. -/
def categoryLines (r : ReviewResult) (limit : Int) (category : Category) :
    List String :=
  match DisplaySection.ofCategory r limit category with
  | [] => []
  | sections => [s!"## {heading category}", ""] ++ sectionLines 1 sections

/-- The first lines: an observation, and the numbers. -/
def impressionLines (r : ReviewResult) : Except Error (List String) := do
  let greeting :=
    match r.positives with
    | [] => []
    | note :: _ => [s!"Hey there! Thanks for the PR. {note}", ""]
  let numbers ←
    if r.total = 0 then
      pure "Everything looks solid! No major issues found. 🎉"
    else do
      let total ← numeral r.total
      let critical ← numeral (← countOf r .critical)
      let warnings ← numeral (← countOf r .warning)
      let suggestions ← numeral (← countOf r .suggestion)
      pure (s!"Found {total} potential improvement(s): "
        ++ s!"{critical} critical, {warnings} warning(s), "
        ++ s!"{suggestions} suggestion(s).")
  return ["# Automated Code Review 🤖", "", "## Overall Impression"] ++ greeting
    ++ [numbers, ""]

/-- The lines on all observations but the first. -/
def positiveLines (r : ReviewResult) : List String :=
  match r.positives.drop 1 with
  | [] => []
  | notes =>
      ["## What's Working Well"] ++ notes.map (fun note => s!"- {note}") ++ [""]

/-- The closing lines. -/
def summaryLines (r : ReviewResult) : List String :=
  if r.total = 0 then []
  else
    ["## Summary",
     if r.isFailing then
       "Critical issues were found; please address them before merging."
     else
       "These suggestions will help make the code more secure, performant and maintainable.",
     ""]

/-- Whether the line of a finding has too many digits to be written. -/
def hasLongLine (f : Finding) : Bool := f.line.any fun line => Text.isLong line

/-- The lines of the report; at most `limit` findings a section. -/
def markdownLines (r : ReviewResult) (limit : Int) :
    Except Error (List String) := do
  let impression ← impressionLines r
  if (DisplaySection.all r limit).any (·.shown.any hasLongLine) then
    throw .numberTooLong
  return impression ++ Category.all.flatMap (categoryLines r limit)
    ++ positiveLines r ++ summaryLines r
    ++ ["---", "*Generated by RuleLens 🤖*"]

/-- The Markdown report. -/
def markdown (r : ReviewResult) (limit : Int) : Except Error String := do
  let lines ← markdownLines r limit
  return String.intercalate "\n" lines

end CodeReview.Report
