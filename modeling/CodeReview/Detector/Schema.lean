import CodeReview.Detector.Basic

/-! # GraphQL schemas

    The definitions of a schema and their members, and what is missing from
    them: descriptions, non-null identifiers, pagination, and a convention
    for validation errors. -/

namespace CodeReview.Detector

open Pattern

/-! ## Definitions -/

/-- The head of a definition, with its kind and its name. -/
def definitionHead : Pattern :=
  edge .lineStart ++ spaces ++ opt (text "extend" ++ someSpaces)
    ++ group 1 (texts ["type", "input", "interface", "enum"]) ++ someSpaces
    ++ group 2 (many1 wordChar) ++ many (noneOf "\x7b\n") ++ char '{'

/-- A definition: its kind, its name, the line it starts on, and the lines
    between its braces. -/
structure Definition where
  kind : String
  name : String
  line : Nat
  body : List Text

/-- The definitions of a schema. -/
def definitions (s : Subject) : Except DetectorFault (List Definition) :=
  let profiles := s.lines.map BlockMarks.script.profile
  (s.allMatches definitionHead).mapM fun (line, m) => do
    let last ← blockEnd profiles (line - 1)
    return { kind := m.name 1, name := m.name 2, line
             body := (s.lines.drop line).take (last - line) }

/-! ## Members -/

/-- A field. -/
def schemaField : Pattern :=
  edge .textStart ++ blanks ++ group 1 (many1 wordChar) ++ blanks ++ oneOf "(:"

/-- A value of an enumeration. -/
def enumValue : Pattern :=
  edge .textStart ++ blanks ++ one (fun c => c.isUpper || c == '_')
    ++ many (one fun c => c.isUpper || c.isDigit || c == '_') ++ blanks
    ++ opt (char '@' ++ many (noneOf "\n")) ++ edge .textEnd

/-- What a member of a definition looks like. -/
def memberPattern (kind : String) : Pattern :=
  if kind == "enum" then enumValue else schemaField

/-- What starts and ends a description over several lines. -/
def descriptionMark : Text := ['"', '"', '"']

/-- Whether a line starts or ends a description over several lines. -/
def togglesDescription (stripped : Text) : Bool :=
  descriptionMark.isPrefixOf stripped && Text.occurrences descriptionMark stripped == 1

/-- How many parentheses a line leaves open. -/
def parenBalance (line : Text) : Int :=
  (line.count '(' : Int) - line.count ')'

/-- The members among the lines of a body that follow a number of others,
    with their indexes.  `parens` is the number of open parentheses and
    `inside` whether the lines are part of a description. -/
def membersFrom (pattern : Pattern) (index : Nat) (parens : Int)
    (inside : Bool) : List Text → List (Nat × Text)
  | [] => []
  | line :: rest =>
      let stripped := Text.trim line
      if togglesDescription stripped then
        membersFrom pattern (index + 1) parens (!inside) rest
      else if inside || stripped.isEmpty || stripped.head? == some '#' then
        membersFrom pattern (index + 1) parens inside rest
      else
        let others :=
          membersFrom pattern (index + 1) (parens + parenBalance line) inside rest
        if parens == 0 && pattern.startsIn line then (index, line) :: others
        else others

/-- The members of a definition outside of argument lists. -/
def Definition.members (d : Definition) : List (Nat × Text) :=
  membersFrom (memberPattern d.kind) 0 0 false d.body

/-! ## Detectors -/

/-- Whether a line is the end of a description. -/
def isDescription (line : Text) : Bool :=
  let stripped := Text.trim line
  stripped.head? == some '"' || stripped.getLast? == some '"'

/-- Whether the last line before a member that is not blank is a
    description. -/
def isDescribed (d : Definition) (index : Nat) : Bool :=
  isDescription
    (((d.body.take index).reverse.find? fun line => !Text.isAllBlank line).getD [])

/-- Members without descriptions. -/
def undocumentedFields : Detector where
  name := "detect_undocumented_fields"
  findings := fun s => do
    let found ← definitions s
    return found.filterMap fun d =>
      let missing := d.members.countP fun (index, _) => !isDescribed d index
      let noun := if d.kind == "enum" then "value(s)" else "field(s)"
      if missing = 0 then none
      else
        some (s.findingAt .maintainability .suggestion
          s!"{Text.capitalize d.kind} '{d.name}' has {missing} {noun} without descriptions"
          "Add descriptions using \"\"\" block strings \"\"\" for types and fields"
          (some d.line))

/-- An argument list. -/
def argumentList : Pattern := char '(' ++ many (noneOf ")") ++ char ')'

/-- An identifier that may be null. -/
def nullableId : Pattern :=
  edge .textStart ++ blanks ++ group 1 (many1 wordChar) ++ blanks
    ++ opt argumentList ++ blanks ++ char ':' ++ blanks ++ text "ID" ++ wordEdge
    ++ notAhead (blanks ++ char '!')

/-- Identifiers that may be null. -/
def nullableIds : Detector where
  name := "detect_nullable_ids"
  findings := fun s => .ok <|
    s.lines.zipIdx.filterMap fun (line, i) =>
      (nullableId.matchStart line).map fun m =>
        s.findingAt .bestPractice .warning
          s!"Field '{m.name 1}' is a nullable ID"
          "Make identifier fields non-nullable with the ID! type"
          (some (i + 1))

/-- A field that returns a list, with its arguments and its item type. -/
def listField : Pattern :=
  edge .textStart ++ blanks ++ group 1 (many1 wordChar) ++ blanks
    ++ opt (group 2 argumentList) ++ blanks ++ char ':' ++ blanks ++ char '['
    ++ blanks ++ group 3 (many1 wordChar)

/-- An argument that limits a list. -/
def paginationArgument : Pattern :=
  wordEdge
    ++ texts ["first", "last", "limit", "offset", "after", "before", "page",
        "perPage", "per_page", "pageSize"]
    ++ blanks ++ char ':'

/-- Whether a list is a connection or takes an argument that limits it. -/
def isPaginated (m : Match) : Bool :=
  "Connection".toList.isSuffixOf (m.group 3)
    || paginationArgument.occursIn (m.group 2)

/-- The lists of one definition that are returned whole. -/
def unpaginatedListsOf (s : Subject) (d : Definition) : List Finding :=
  d.members.filterMap fun (index, line) =>
    match listField.matchStart line with
    | none => none
    | some m =>
        if isPaginated m then none
        else
          some (s.findingAt .performance .suggestion
            s!"Query '{m.name 1}' returns a list without pagination"
            "Implement Relay-style connections or limit/offset pagination for lists"
            (some (d.line + index + 1)))

/-- Queries that return whole lists. -/
def unpaginatedLists : Detector where
  name := "detect_unpaginated_lists"
  findings := fun s => do
    let found ← definitions s
    return (found.filter fun d => d.kind == "type" && d.name == "Query").flatMap
      (unpaginatedListsOf s)

/-- A convention for validation errors. -/
def validationConvention : Pattern :=
  text "ValidationError" ||| text "UserError"
    ||| wordEdge ++ text "errors" ++ blanks ++ char ':'

/-- Input types in a schema without a convention for validation errors. -/
def inputValidation : Detector where
  name := "detect_input_validation"
  findings := fun s =>
    if validationConvention.occursIn s.content then .ok []
    else do
      let found ← definitions s
      return (found.filter fun d => d.kind == "input").map fun d =>
        s.findingAt .bestPractice .warning
          s!"Input type '{d.name}' has no validation-error convention"
          "Return a ValidationError/UserError payload for invalid input"
          (some d.line)

end CodeReview.Detector
