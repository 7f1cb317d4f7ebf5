import CodeReview.Report.Machine
import CodeReview.Text.Quoted

/-! # Reports

    The formats of a report, and the comment on a pull request, which
    starts with a mark that later runs recognise. -/

namespace CodeReview.Report

/-- The wording of an error; a missing number is named by its severity. -/
def Error.message : Error → String
  | .missingCount severity => Text.quote severity.name
  | .unknownFormat name => s!"Unknown output format: {Text.quote name}"
  | .numberTooLong =>
      s!"Exceeds the limit ({Text.maxDigits} digits) for integer string "
        ++ "conversion; use sys.set_int_max_str_digits() to increase the limit"

/-- The formats of a report. -/
inductive Format where
  | markdown
  | json
  | github
deriving DecidableEq, Repr

namespace Format

/-- Every format. -/
def all : List Format := [.markdown, .json, .github]

/-- The name of a format. -/
def name : Format → String
  | .markdown => "markdown"
  | .json => "json"
  | .github => "github"

/-- The format with a name. -/
def ofName? (s : String) : Option Format := all.find? (·.name == s)

end Format

/-- The first line of the comment on a pull request. -/
def marker (pr : Int) : String := s!"<!-- Automated review for PR #{pr} -->"

/-- The comment on a pull request. -/
def comment (r : ReviewResult) (pr : Option Int) (limit : Int) :
    Except Error String := do
  let body ← markdown r limit
  return match pr with
    | none => body
    | some pr => marker pr ++ "\n" ++ body

/-- The report in a format. -/
def render (r : ReviewResult) (format : Format) (pr : Option Int)
    (limit : Int) : Except Error String :=
  match format with
  | .markdown => markdown r limit
  | .json => machine r
  | .github => comment r pr limit

/-- The report in a format that is given by name. -/
def renderNamed (r : ReviewResult) (format : String) (pr : Option Int)
    (limit : Int) : Except Error String :=
  match Format.ofName? format with
  | some format => render r format pr limit
  | none => .error (.unknownFormat format)

end CodeReview.Report
