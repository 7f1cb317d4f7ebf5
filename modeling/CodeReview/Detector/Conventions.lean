import CodeReview.Detector.Basic

/-! # Conventions of Rails code

    Models without validations, controllers and migrations that do too
    much, texts for users in the code, and missing comments. -/

namespace CodeReview.Detector

open Pattern

/-- The actions of a RESTful controller. -/
def restfulActions : List String :=
  ["index", "show", "new", "create", "edit", "update", "destroy"]

/-- A line that ends the public part of a class. -/
def visibilitySection : Pattern :=
  edge .textStart ++ blanks ++ texts ["private", "protected"] ++ blanks
    ++ edge .textEnd

/-- The head of a model class. -/
def modelClass : Pattern :=
  text "class" ++ someBlanks ++ many1 wordChar ++ blanks ++ char '<' ++ blanks
    ++ texts ["ApplicationRecord", "ActiveRecord::Base"] ++ wordEdge

/-- A validation. -/
def validations : Pattern :=
  wordEdge ++ text "validate" ++ opt (char 's') ++ wordEdge
    ||| wordEdge ++ text "validates_" ++ many1 wordChar

/-- A write to the database. -/
def databaseWrite : Pattern :=
  char '.' ++ texts ["save", "update", "destroy", "create"] ++ wordEdge

/-- A trace of error handling. -/
def errorHandling : Pattern :=
  anyOf (["rescue", "rescue_from", "begin", "errors"].map fun word =>
    wordEdge ++ text word ++ wordEdge)

/-- Application code in a migration. -/
def migrationCode : Pattern :=
  text "ActiveRecord::Base.transaction"
    ||| wordEdge ++ text "find_each" ++ wordEdge
    ||| text ".create!" ||| text ".save!" ||| text ".update!"

/-- A string that looks like a sentence. -/
def sentenceString : Pattern :=
  char '"' ++ group 1 (one Char.isUpper ++ atLeast 10 (noneOf "\"\n"))
    ++ char '"'

/-- A line that is a comment. -/
def commentLine : Pattern := edge .textStart ++ blanks ++ char '#'

/-- A model that validates nothing. -/
def modelWithoutValidations : Detector where
  name := "detect_model_without_validations"
  findings := fun s => .ok <|
    if !s.inFolder "models" || s.inFolder "concerns" || s.isTest
        || validations.occursIn s.content then []
    else
      (s.firstLine modelClass).toList.map fun line =>
        s.findingAt .bestPractice .warning
          "Rails model may be missing validations"
          "Consider adding appropriate validations to ensure data integrity"
          (some line)

/-- The blocks before the first line that ends the public part. -/
def publicBlocks (s : Subject) : List Block :=
  match (s.lineNumbers visibilitySection.startsIn).head? with
  | none => s.blocks
  | some cutoff => s.blocks.filter fun block => block.startLine < cutoff

/-- The public methods of a controller that are not RESTful. -/
def customActions (s : Subject) : List String :=
  ((publicBlocks s).map (·.name)).filter fun name =>
    !restfulActions.contains name && name.toList.head? != some '_'

/-- Actions beyond the RESTful ones. -/
def nonRestfulActions (s : Subject) : List Finding :=
  match customActions s with
  | [] => []
  | custom =>
      let names := String.intercalate ", " custom
      [s.finding .bestPractice .suggestion
        s!"Controller has non-RESTful actions: {names}"
        "Consider using RESTful actions or moving custom logic to service objects"]

/-- Writes outside a transaction. -/
def missingTransaction (s : Subject) : List Finding :=
  if s.mentions "transaction" then []
  else
    (s.firstLine databaseWrite).toList.map fun line =>
      s.findingAt .bestPractice .warning
        "Controller performs database operations without a transaction"
        "Consider wrapping related database operations in ActiveRecord::Base.transaction blocks"
        (some line)

/-- No trace of error handling. -/
def missingErrorHandling (s : Subject) : List Finding :=
  if errorHandling.occursIn s.content then []
  else
    [s.finding .bestPractice .warning
      "Controller lacks visible error handling"
      "Add proper error handling with rescue blocks or rescue_from callbacks"]

/-- Controllers that break the conventions. -/
def controllerConventions : Detector where
  name := "detect_controller_conventions"
  findings := fun s => .ok <|
    if !s.inFolder "controllers" || s.isTest then []
    else nonRestfulActions s ++ missingTransaction s ++ missingErrorHandling s

/-- Migrations with application code. -/
def migrationAppCode : Detector where
  name := "detect_migration_app_code"
  findings := fun s => .ok <|
    if !s.inFolder "migrate" then []
    else
      (s.firstLine migrationCode).toList.map fun line =>
        s.findingAt .bestPractice .warning
          "Migration may contain application code"
          "Keep application code out of migrations; use SQL for simple changes"
          (some line)

/-- Many sentences in the code. -/
def hardcodedStrings : Detector where
  name := "detect_hardcoded_strings"
  findings := fun s => .ok <|
    let count := sentenceString.count s.content
    if s.isTest || count ≤ 3 then []
    else
      [s.finding .bestPractice .suggestion
        s!"Found {count} potentially hardcoded user-facing strings"
        "Consider using I18n.t() for user-facing strings"]

/-- Much code and few comments. -/
def sparseDocumentation : Detector where
  name := "detect_sparse_documentation"
  findings := fun s => .ok <|
    let comments := s.lines.countP commentLine.startsIn
    let code := s.lines.countP fun line =>
      !Text.isAllBlank line && !commentLine.startsIn line
    if code ≤ 50 || 3 ≤ comments then []
    else
      [s.finding .maintainability .suggestion
        "Large file with minimal comments or documentation"
        "Add comments explaining complex business logic and method purposes"]

end CodeReview.Detector
