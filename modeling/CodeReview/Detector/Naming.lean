import CodeReview.Detector.Basic

/-! # Naming conventions

    Classes and modules in CamelCase, methods and variables in snake_case,
    constants in SCREAMING_SNAKE_CASE. -/

namespace CodeReview.Detector

open Pattern

/-- A name in CamelCase. -/
def camelCase : Pattern :=
  edge .textStart ++ one Char.isUpper
    ++ many (one fun c => c.isAlpha || c.isDigit) ++ edge .textEnd

/-- A name in snake_case. -/
def snakeCase : Pattern :=
  edge .textStart ++ one (fun c => c.isLower || c == '_')
    ++ many (one fun c => c.isLower || c.isDigit || c == '_') ++ edge .textEnd

/-- A name in SCREAMING_SNAKE_CASE. -/
def screamingSnakeCase : Pattern :=
  edge .textStart ++ one Char.isUpper
    ++ many (one fun c => c.isUpper || c.isDigit || c == '_') ++ edge .textEnd

/-- An equals sign that assigns. -/
def assignSign : Pattern := char '=' ++ notAhead (oneOf "=~>")

/-- The head of a Ruby class or module. -/
def rubyClass : Pattern :=
  edge .lineStart ++ spaces ++ group 1 (texts ["class", "module"]) ++ someSpaces
    ++ group 2 (one (fun c => c.isAlpha || c == '_')
        ++ many (one fun c => Text.isWord c || c == ':'))

/-- The assignment of a Ruby constant, with its value. -/
def rubyConstant : Pattern :=
  edge .lineStart ++ spaces ++ group 1 (one Char.isUpper ++ many wordChar)
    ++ spaces ++ assignSign ++ spaces ++ group 2 (many (noneOf "\n"))
    ++ edge .lineEnd

/-- A value that makes a class, so that its constant is a class name. -/
def rubyClassFactory : Pattern :=
  edge .textStart ++ texts ["Struct", "Class", "Module", "Data"] ++ char '.'
    ++ texts ["new", "define"] ++ wordEdge

/-- The assignment of a Ruby variable. -/
def rubyLocal : Pattern :=
  edge .lineStart ++ spaces
    ++ group 1 (one (fun c => c.isLower || c == '_') ++ many wordChar)
    ++ spaces ++ assignSign

/-- The head of a JavaScript class. -/
def scriptClass : Pattern :=
  edge .lineStart ++ spaces ++ opt (text "export" ++ someSpaces)
    ++ opt (text "default" ++ someSpaces) ++ text "class" ++ someSpaces
    ++ group 1 (one (fun c => c.isAlpha || c == '_' || c == '$')
        ++ many (one fun c => Text.isWord c || c == '$'))

/-- Whether every part of a qualified name is in CamelCase. -/
def isCamelCasePath (fullName : Text) : Bool :=
  (Text.splitAround [':', ':'] fullName).all fun part =>
    part.isEmpty || camelCase.startsIn part

/-- Classes and modules that are not in CamelCase. -/
def rubyClassNaming (s : Subject) : List Finding :=
  (s.allMatches rubyClass).filterMap fun (line, m) =>
    if isCamelCasePath (m.group 2) then none
    else
      some (s.findingAt .naming .warning
        s!"{Text.capitalize (m.name 1)} name '{m.name 2}' doesn't follow CamelCase convention"
        "Use CamelCase for class and module names" (some line))

/-- Whether a method name is in snake_case, apart from a final mark.  The
    names of operators are left alone. -/
def isSnakeCaseMethod (name : String) : Bool :=
  let stem := Text.dropRight (fun c => c == '?' || c == '!' || c == '=') name.toList
  !stem.any Text.isWord || snakeCase.startsIn stem

/-- Methods that are not in snake_case. -/
def rubyMethodNaming (s : Subject) : List Finding :=
  (s.blocks.filter fun block => !isSnakeCaseMethod block.name).map fun block =>
    s.findingAt .naming .warning
      s!"Method name '{block.name}' doesn't follow snake_case convention"
      "Use snake_case for method and variable names" (some block.startLine)

/-- Constants that are not in SCREAMING_SNAKE_CASE, unless they name a
    class. -/
def rubyConstantNaming (s : Subject) : List Finding :=
  (s.allMatches rubyConstant).filterMap fun (line, m) =>
    if rubyClassFactory.startsIn (Text.trim (m.group 2))
        || screamingSnakeCase.startsIn (m.group 1) then none
    else
      some (s.findingAt .naming .warning
        s!"Constant name '{m.name 1}' doesn't follow SCREAMING_SNAKE_CASE convention"
        "Use SCREAMING_SNAKE_CASE for constants" (some line))

/-- Variables that are not in snake_case. -/
def rubyVariableNaming (s : Subject) : List Finding :=
  (s.allMatches rubyLocal).filterMap fun (line, m) =>
    if snakeCase.startsIn (m.group 1) then none
    else
      some (s.findingAt .naming .warning
        s!"Variable name '{m.name 1}' doesn't follow snake_case convention"
        "Use snake_case for method and variable names" (some line))

/-- Ruby names that break the conventions: classes, then methods, then
    constants, then variables. -/
def rubyNaming : Detector where
  name := "detect_ruby_naming"
  findings := fun s => .ok <|
    rubyClassNaming s ++ rubyMethodNaming s ++ rubyConstantNaming s
      ++ rubyVariableNaming s

/-- JavaScript classes that are not in CamelCase. -/
def scriptClassNaming : Detector where
  name := "detect_js_class_naming"
  findings := fun s => .ok <|
    (s.allMatches scriptClass).filterMap fun (line, m) =>
      if camelCase.startsIn (m.group 1) then none
      else
        some (s.findingAt .naming .warning
          s!"Class name '{m.name 1}' doesn't follow CamelCase convention"
          "Use CamelCase for class names" (some line))

end CodeReview.Detector
