import CodeReview.Language
import CodeReview.Pattern.Search

/-! # Complexity

    A rough cyclomatic complexity: one, plus the branch words, plus the
    logical operators. -/

namespace CodeReview.Complexity

open Pattern

/-- The logical operators. -/
def logicalOperator : Pattern := text "&&" ||| text "||"

/-- The branch words of Ruby. -/
def rubyBranch : Pattern :=
  wordEdge
    ++ texts ["if", "elsif", "unless", "while", "until", "for", "when",
        "rescue"]
    ++ wordEdge ++ notAhead (oneOf "?!:")

/-- The branch words of JavaScript. -/
def scriptBranch : Pattern :=
  wordEdge ++ texts ["if", "while", "for", "case", "catch"] ++ wordEdge

/-- The branch words of a language; Ruby's where it has none of its
    own. -/
def branch : Option Language → Pattern
  | some .javascript => scriptBranch
  | some .vue => scriptBranch
  | _ => rubyBranch

/-- The branch points of a text. -/
def branchPoints (language : Option Language) (body : Text) : Nat :=
  (branch language).count body + logicalOperator.count body

/-- The complexity of a text. -/
def estimate (language : Option Language) (body : Text) : Nat :=
  1 + branchPoints language body

/-- Whether a complexity is above a threshold. -/
def isHigh (score : Nat) (threshold : Int) : Bool := threshold < score

end CodeReview.Complexity
