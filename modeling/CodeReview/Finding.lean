import CodeReview.Text.Blank

/-! # Findings

    What a review reports: where, which family of concern, how severe, what
    is wrong and how to address it. -/

namespace CodeReview

/-- How severe a finding is, the most severe first. -/
inductive Severity where
  | critical
  | warning
  | suggestion
deriving DecidableEq, Repr

namespace Severity

/-- Every severity, the most severe first. -/
def all : List Severity := [.critical, .warning, .suggestion]

/-- The name of a severity. -/
def name : Severity → String
  | .critical => "critical"
  | .warning => "warning"
  | .suggestion => "suggestion"

/-- The severity with a name. -/
def ofName? (s : String) : Option Severity := all.find? (·.name == s)

/-- The place of a severity in the order. -/
def rank : Severity → Nat
  | .critical => 0
  | .warning => 1
  | .suggestion => 2

/-- A severity is found by its name. -/
theorem ofName?_name (severity : Severity) :
    ofName? severity.name = some severity := by
  cases severity <;> decide

/-- Every severity is listed. -/
theorem mem_all (severity : Severity) : severity ∈ all := by
  cases severity <;> decide

end Severity

/-- The family of concern that a finding belongs to. -/
inductive Category where
  | security
  | performance
  | cleanCode
  | accessibility
  | maintainability
  | bestPractice
  | style
  | naming
  | structural
deriving DecidableEq, Repr

namespace Category

/-- Every category, in the order of a report. -/
def all : List Category :=
  [.security, .performance, .cleanCode, .accessibility, .maintainability,
   .bestPractice, .style, .naming, .structural]

/-- The name of a category. -/
def name : Category → String
  | .security => "security"
  | .performance => "performance"
  | .cleanCode => "clean_code"
  | .accessibility => "accessibility"
  | .maintainability => "maintainability"
  | .bestPractice => "best_practice"
  | .style => "style"
  | .naming => "naming"
  | .structural => "structural"

/-- The category with a name. -/
def ofName? (s : String) : Option Category := all.find? (·.name == s)

/-- A category is found by its name. -/
theorem ofName?_name (category : Category) :
    ofName? category.name = some category := by
  cases category <;> decide

/-- Every category is listed. -/
theorem mem_all (category : Category) : category ∈ all := by
  cases category <;> decide

end Category

/-- One observation about a file.  A finding without a line is about the
    file as a whole. -/
structure Finding where
  file : String
  line : Option Nat
  category : Category
  severity : Severity
  message : String
  suggestion : String
deriving DecidableEq, Repr

namespace Finding

/-- What makes two findings the same observation. -/
abbrev Key := String × Option Nat × String

/-- The identity of a finding. -/
def key (f : Finding) : Key := (f.file, f.line, f.message)

/-- What can be wrong with the parts of a finding. -/
inductive Flaw where
  | lineZero
  | emptyMessage
  | blankMessage
deriving DecidableEq, Repr

/-- The wording of a flaw. -/
def Flaw.message : Flaw → String
  | .lineZero => "Input should be greater than or equal to 1"
  | .emptyMessage => "String should have at least 1 character"
  | .blankMessage => "Value error, message must not be blank"

/-- What is wrong with a message, if anything. -/
def messageFlaw? (message : String) : Option Flaw :=
  if message.isEmpty then some .emptyMessage
  else if Text.isAllBlank message.toList then some .blankMessage
  else none

/-- What is wrong with a line number, if anything. -/
def lineFlaw? (line : Option Nat) : Option Flaw :=
  if line = some 0 then some .lineZero else none

/-- The finding itself, if its line counts from one and its message is not
    blank. -/
def checked (f : Finding) : Except Flaw Finding :=
  match lineFlaw? f.line, messageFlaw? f.message with
  | some flaw, _ => .error flaw
  | none, some flaw => .error flaw
  | none, none => .ok f

end Finding

end CodeReview
