import CodeReview.Detector.Basic

/-! # Client scripts

    Old-fashioned declarations and functions, promise chains, leftovers of
    debugging, direct access to the document, and too many hooks. -/

namespace CodeReview.Detector

open Pattern

/-- A `var` declaration. -/
def varDeclaration : Pattern :=
  (edge .textStart ||| oneOf ";\x7b(" ||| blank) ++ text "var" ++ someBlanks
    ++ one fun c => c.isAlpha || c == '_' || c == '$'

/-- A step of a promise chain. -/
def promiseStep : Pattern := text ".then("

/-- An asynchronous function or a wait. -/
def asyncAwait : Pattern :=
  wordEdge ++ text "async" ++ wordEdge ||| wordEdge ++ text "await" ++ wordEdge

/-- A call of the console, with its method. -/
def consoleCall : Pattern :=
  wordEdge ++ text "console."
    ++ group 1 (texts ["log", "debug", "info", "warn", "error", "trace"])
    ++ char '('

/-- A statement that stops in the debugger. -/
def debuggerStatement : Pattern :=
  edge .lineStart ++ blanks ++ text "debugger" ++ wordEdge

/-- A function expression. -/
def functionExpression : Pattern :=
  wordEdge ++ text "function" ++ blanks ++ char '('

/-- An access to the document or the window. -/
def domAccess : Pattern :=
  wordEdge ++ texts ["document", "window"] ++ char '.' ++ many1 wordChar

/-- A call of a hook. -/
def hookCall (hook : String) : Pattern :=
  wordEdge ++ text hook ++ blanks ++ char '('

/-- A finding about the first match of a pattern, if there is one. -/
def firstMatchFinding (s : Subject) (p : Pattern) (category : Category)
    (severity : Severity) (message suggestion : String) : List Finding :=
  (s.firstLine p).toList.map fun line =>
    s.findingAt category severity message suggestion (some line)

/-- Declarations with `var`. -/
def varDeclarations : Detector where
  name := "detect_var_declarations"
  findings := fun s => .ok <|
    (s.linesWith varDeclaration).map fun line =>
      s.findingAt .style .suggestion
        "Using var instead of let/const"
        "Prefer let and const over var for block scoping"
        (some line)

/-- Promise chains in a file without asynchronous functions. -/
def promiseChains : Detector where
  name := "detect_promise_chains"
  findings := fun s => .ok <|
    if asyncAwait.occursIn s.content then []
    else
      firstMatchFinding s promiseStep .bestPractice .suggestion
        "Using promise chains without async/await"
        "Consider using async/await for more readable asynchronous code"

/-- Leftovers of debugging. -/
def debugStatements : Detector where
  name := "detect_debug_statements"
  findings := fun s => .ok <|
    if s.isTest then []
    else
      (s.allMatches consoleCall).map (fun (line, m) =>
          s.findingAt .bestPractice .warning
            s!"Found console.{m.name 1}() statement"
            "Remove debug statements before committing or use a logger library"
            (some line))
        ++ (s.allMatches debuggerStatement).map fun (line, _) =>
            s.findingAt .bestPractice .warning
              "Found debugger statement"
              "Remove debugger statements before committing"
              (some line)

/-- Function expressions in a file without arrow functions. -/
def legacyFunctions : Detector where
  name := "detect_legacy_functions"
  findings := fun s => .ok <|
    if s.mentions "=>" then []
    else
      firstMatchFinding s functionExpression .style .suggestion
        "Using function expressions without arrow functions"
        "Consider arrow functions for more concise syntax and lexical this binding"

/-- Direct access to the document. -/
def domAccesses : Detector where
  name := "detect_dom_access"
  findings := fun s => .ok <|
    firstMatchFinding s domAccess .bestPractice .warning
      "Direct DOM manipulation detected"
      "Use framework-specific methods (refs, bindings) instead of document/window access"

/-- Too many state variables or effects. -/
def hookOveruse : Detector where
  name := "detect_hook_overuse"
  findings := fun s => .ok <|
    let states := (hookCall "useState").count s.content
    let effects := (hookCall "useEffect").count s.content
    (if states ≤ 5 then []
      else
        [s.finding .maintainability .suggestion
          s!"Component has {states} state variables"
          "Consider breaking this component into smaller ones or using useReducer"])
    ++ (if effects ≤ 3 then []
      else
        [s.finding .maintainability .suggestion
          s!"Component has {effects} useEffect hooks"
          "Multiple effects may indicate the component has too many responsibilities"])

end CodeReview.Detector
