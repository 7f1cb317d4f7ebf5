import CodeReview.Config.Field

/-! # Configuration from the environment

    A variable sets the field it is named for, unless it is blank; an
    explicit setting overrides it. -/

namespace CodeReview

/-- The environment variables of a run. -/
abbrev Environment := List (String × String)

namespace Config

/-- What the names of the variables start with. -/
def variableStart : String := "RULELENS_"

/-- The variable that sets a field. -/
def Field.variableName (field : Field) : String :=
  variableStart ++ field.name.toUpper

/-- The names in a list with commas, without blanks around them. -/
def splitNames (raw : String) : List String :=
  (((Text.splitOn ',' raw.toList).map Text.trim).filter (· != [])).map
    String.ofList

section Sources

variable {V : Type} [Setting V]

/-- The value that a variable gives a field. -/
def Field.ofVariable (field : Field) (raw : String) : Logged (Option V) :=
  if Text.isAllBlank raw.toList then pure none
  else if field.isNumber then
    match Text.readInteger? raw with
    | some n => pure (some (Setting.ofInt n))
    | none => do
        .emit .warning
          s!"{field.variableName}={Text.quote raw} is not an integer, using default"
        return none
  else pure (some (Setting.ofNames (splitNames raw)))

/-- The values that the environment gives, field by field. -/
def environmentValues (environment : Environment) :
    Logged (List (String × V)) := do
  let values ← Field.all.mapM fun field =>
    match environment.lookup field.variableName with
    | none => (pure none : Logged (Option (String × V)))
    | some raw => do
        let value ← field.ofVariable raw
        return value.map (field.name, ·)
  return values.filterMap id

/-- Sets a value in an ordered mapping: in its old place, or at the end. -/
def put {α : Type} (values : List (String × α)) (name : String) (value : α) :
    List (String × α) :=
  if values.any (·.1 == name) then
    values.map fun entry => if entry.1 == name then (name, value) else entry
  else values ++ [(name, value)]

/-- The environment's values with explicit settings over them. -/
def override (values settings : List (String × V)) : List (String × V) :=
  (settings.filter fun setting => Setting.isGiven setting.2).foldl
    (fun values setting => put values setting.1 setting.2) values

/-- The configuration from the environment and explicit settings. -/
def load (environment : Environment) (settings : List (String × V)) :
    Logged Config := do
  let values ← environmentValues environment
  ofMapping (override values settings)

end Sources

end Config

end CodeReview
