import CodeReview.Block.Complexity
import CodeReview.Detector.Basic

/-! # Size and complexity

    Files, lines and methods that are too long, methods that branch too
    much, and conditions with many operators. -/

namespace CodeReview.Detector

/-- A file with too many lines. -/
def fileSize : Detector where
  name := "detect_file_size"
  findings := fun s => .ok <|
    let count := s.lines.length
    let limit := s.config.maxFileSize
    if count ≤ limit then []
    else
      [s.finding .structural .warning
        s!"File has {count} lines (max recommended: {limit})"
        "Consider splitting this file into smaller, more focused modules"]

/-- A line with too many characters. -/
def longLines : Detector where
  name := "detect_long_lines"
  findings := fun s => .ok <|
    let limit := s.config.maxLineLength
    s.lines.zipIdx.filterMap fun (line, i) =>
      if limit < line.length then
        some (s.findingAt .style .suggestion
          s!"Line exceeds {limit} characters ({line.length})"
          "Break this line into multiple lines for better readability"
          (some (i + 1)))
      else none

/-- What to do about a long method. -/
def longBlockAdvice (s : Subject) : String :=
  if s.inFolder "controllers" then
    "Extract logic to service objects or model methods to keep controllers skinny"
  else "Consider breaking this method into smaller, focused methods"

/-- A method with too many lines. -/
def longBlocks : Detector where
  name := "detect_long_blocks"
  findings := fun s => .ok <|
    let limit := s.config.maxMethodLength
    (s.blocks.filter fun block => limit < block.lineCount).map fun block =>
      s.findingAt .structural .warning
        s!"Method '{block.name}' has {block.lineCount} lines (max recommended: {limit})"
        (longBlockAdvice s) (some block.startLine)

/-- A method with too many branches. -/
def complexBlocks : Detector where
  name := "detect_complex_blocks"
  findings := fun s => .ok <|
    let threshold := s.config.complexityThreshold
    s.blocks.filterMap fun block =>
      let score := Complexity.estimate s.language block.body
      if Complexity.isHigh score threshold then
        some (s.findingAt .maintainability .warning
          s!"Method '{block.name}' has high complexity (score {score}, threshold {threshold})"
          "Refactor complex methods into smaller, focused methods"
          (some block.startLine))
      else none

/-- A line with more than two logical operators. -/
def complexConditionals : Detector where
  name := "detect_complex_conditionals"
  findings := fun s => .ok <|
    (s.lineNumbers fun line => 2 < Complexity.logicalOperator.count line).map
      fun line =>
        s.findingAt .cleanCode .suggestion
          "Complex conditional logic can be hard to understand"
          "Consider extracting conditions into well-named methods"
          (some line)

end CodeReview.Detector
