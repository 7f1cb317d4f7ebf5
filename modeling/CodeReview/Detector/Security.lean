import CodeReview.Detector.Basic

/-! # Security of server code

    Disabled request-forgery protection, interpolation in queries, and
    request parameters used without a list of permitted ones. -/

namespace CodeReview.Detector

open Pattern

/-- A statement that turns off the protection against request forgery. -/
def forgeryProtectionOff : Pattern :=
  text "skip_before_action" ++ someBlanks ++ text ":verify_authenticity_token"
    ||| text "skip_forgery_protection"

/-- The methods that take a piece of SQL. -/
def queryMethods : List String :=
  ["where", "find_by_sql", "execute", "exec_query", "select_all", "joins",
   "order", "group", "having", "pluck", "delete_all", "update_all",
   "count_by_sql"]

/-- A query method whose string argument interpolates a value. -/
def queryInterpolation : Pattern :=
  char '.' ++ texts queryMethods ++ char '(' ++ blanks
    ++ (char '"' ||| char '%' ++ opt (char 'Q') ++ oneOf "\x7b([")
    ++ few (noneOf "\n") ++ char '#' ++ char '{'

/-- A request parameter other than the identifier. -/
def rawParameter : Pattern :=
  wordEdge ++ text "params[:" ++ notAhead (text "id]") ++ many1 wordChar
    ++ char ']'

/-- A list of permitted request parameters. -/
def permittedParameters : Pattern :=
  wordEdge ++ text "params.require(" ||| text ".permit("

/-- Disabled protection against request forgery. -/
def csrfDisabled : Detector where
  name := "detect_csrf_disabled"
  findings := fun s => .ok <|
    (s.linesWith forgeryProtectionOff).map fun line =>
      s.findingAt .security .critical
        "Request-forgery (CSRF) protection is disabled"
        "Remove skip_before_action or use protect_from_forgery with: :exception"
        (some line)

/-- Values interpolated into SQL. -/
def sqlInterpolation : Detector where
  name := "detect_sql_interpolation"
  findings := fun s => .ok <|
    (s.linesWith queryInterpolation).map fun line =>
      s.findingAt .security .critical
        "String interpolation in SQL query can lead to SQL injection"
        "Use parameterized queries or ActiveRecord methods with placeholders"
        (some line)

/-- Request parameters used where none are permitted explicitly. -/
def unpermittedParams : Detector where
  name := "detect_unpermitted_params"
  findings := fun s => .ok <|
    if permittedParameters.occursIn s.content then []
    else
      (s.firstLine rawParameter).toList.map fun line =>
        s.findingAt .security .warning
          "Direct parameter access without strong parameters can lead to mass assignment"
          "Use strong parameters with params.require().permit()"
          (some line)

end CodeReview.Detector
