import CodeReview.Language
import CodeReview.Pattern.Search

/-! # What marks blocks

    How each language marks units (methods and functions), and what opens
    and closes a nested block on a line.  Words and braces inside strings
    and comments count like any other text. -/

namespace CodeReview

/-- The constructs that open a nested block. -/
inductive Opener where
  | defWord
  | classWord
  | moduleWord
  | beginWord
  | caseWord
  | doWord
  | ifWord
  | unlessWord
  | whileWord
  | untilWord
  | forWord
  | brace
deriving DecidableEq, Repr

namespace Opener

/-- The text that opens the block. -/
def text : Opener → String
  | .defWord => "def"
  | .classWord => "class"
  | .moduleWord => "module"
  | .beginWord => "begin"
  | .caseWord => "case"
  | .doWord => "do"
  | .ifWord => "if"
  | .unlessWord => "unless"
  | .whileWord => "while"
  | .untilWord => "until"
  | .forWord => "for"
  | .brace => "\x7b"

/-- The text that closes the block. -/
def closer : Opener → String
  | .brace => "\x7d"
  | _ => "end"

end Opener

/-- How a language marks blocks on a line. -/
structure BlockMarks where
  /-- The name of the unit that a line opens. -/
  unitName : Text → Option String
  /-- The openers that count on a line, kind by kind. -/
  openers : Text → List Opener
  /-- The number of closers on a line. -/
  closers : Text → Nat
  /-- Whether a unit that starts on the line also ends there. -/
  isOneLiner : Text → Bool

namespace BlockMarks

open Pattern

/-- As many copies of a kind as a pattern matches on a line. -/
def occurrences (line : Text) (kind : Opener) (p : Pattern) : List Opener :=
  List.replicate (p.count line) kind

/-- The name in the first group of the first pattern that matches and does
    not give an excluded name. -/
def firstName (patterns : List Pattern) (excluded : List String)
    (line : Text) : Option String :=
  patterns.findSome? fun p =>
    match p.matchStart line with
    | none => none
    | some m => if excluded.contains (m.name 1) then none else some (m.name 1)

/-! ## Ruby -/

/-- A whole word that is neither a method call, a symbol nor a key. -/
def rubyWord (word : String) : Pattern :=
  notAfter (fun c => Text.isWord c || c == '.' || c == ':')
    ++ text word ++ wordEdge ++ notAhead (oneOf "?!:")

/-- Where a statement can start. -/
def rubyStatementStart : Pattern :=
  edge .textStart ++ blanks
    ||| oneOf "=([,;" ++ blanks
    ||| text "||" ++ blanks
    ||| text "&&" ++ blanks

/-- A word at the start of a statement; behind one it is a modifier and
    opens nothing. -/
def rubyStatementWord (word : String) : Pattern :=
  rubyStatementStart ++ text word ++ wordEdge ++ notAhead (oneOf "?!:")

/-- The words that open a block wherever they stand. -/
def rubyWordOpeners : List Opener :=
  [.defWord, .classWord, .moduleWord, .beginWord, .caseWord, .doWord]

/-- The words that open a block at the start of a statement. -/
def rubyStatementOpeners : List Opener :=
  [.ifWord, .unlessWord, .whileWord, .untilWord, .forWord]

/-- A line that starts with a loop word, to which a later `do` belongs. -/
def rubyLoopStart : Pattern :=
  edge .textStart ++ blanks ++ texts ["while", "until", "for"] ++ wordEdge

/-- A method whose body is a single expression after an equals sign. -/
def rubyEndlessDef : Pattern :=
  edge .textStart ++ blanks
    ++ opt (texts ["private", "protected", "public"] ++ someBlanks)
    ++ text "def" ++ someBlanks
    ++ many1 (one fun c => Text.isWord c || c == '.' || c == '?' || c == '!')
    ++ (char '(' ++ many (noneOf ")") ++ char ')' ++ blanks ||| someBlanks)
    ++ char '=' ++ notAhead (oneOf "=~>(")

/-- The head of a method, with its name. -/
def rubyUnit : Pattern :=
  edge .textStart ++ blanks
    ++ opt (texts ["private", "protected", "public", "module_function"]
        ++ someBlanks)
    ++ text "def" ++ someBlanks ++ opt (text "self.")
    ++ group 1 (many1 (one fun c =>
        !(Text.isBlank c || c == '(' || c == ';')))

/-- Every opener on a line, before any is discounted. -/
def rubyRawOpeners (line : Text) : List Opener :=
  rubyWordOpeners.flatMap (fun kind => occurrences line kind (rubyWord kind.text))
    ++ rubyStatementOpeners.flatMap fun kind =>
        occurrences line kind (rubyStatementWord kind.text)

/-- The openers that count on a line: the `do` of a loop belongs to the
    loop word, and an endless method opens nothing. -/
def rubyOpeners (line : Text) : List Opener :=
  let found := rubyRawOpeners line
  let found :=
    if rubyLoopStart.startsIn line then found.erase .doWord else found
  if rubyEndlessDef.startsIn line then found.erase .defWord else found

/-- How Ruby marks blocks. -/
def ruby : BlockMarks where
  unitName := firstName [rubyUnit] []
  openers := rubyOpeners
  closers := (rubyWord "end").count
  isOneLiner := rubyEndlessDef.startsIn

/-! ## JavaScript -/

/-- An identifier. -/
def scriptName : Pattern :=
  one (fun c => c.isAlpha || c == '_' || c == '$')
    ++ many (one fun c => Text.isWord c || c == '$')

/-- A parameter list without nested parentheses. -/
def scriptParameters : Pattern := char '(' ++ many (noneOf "()") ++ char ')'

/-- `function name(` -/
def scriptFunction : Pattern :=
  edge .textStart ++ blanks ++ opt (text "export" ++ someBlanks)
    ++ opt (text "default" ++ someBlanks) ++ opt (text "async" ++ someBlanks)
    ++ text "function" ++ blanks ++ opt (char '*') ++ blanks
    ++ group 1 scriptName ++ blanks ++ char '('

/-- `const name = function`, or an arrow function in its place. -/
def scriptBinding : Pattern :=
  edge .textStart ++ blanks ++ opt (text "export" ++ someBlanks)
    ++ texts ["const", "let", "var"] ++ someBlanks ++ group 1 scriptName
    ++ blanks ++ char '=' ++ blanks ++ opt (text "async" ++ someBlanks)
    ++ (text "function" ++ wordEdge
        ||| scriptParameters ++ blanks ++ text "=>"
        ||| scriptName ++ blanks ++ text "=>")

/-- `name: function` -/
def scriptProperty : Pattern :=
  edge .textStart ++ blanks ++ group 1 scriptName ++ blanks ++ char ':'
    ++ blanks ++ opt (text "async" ++ someBlanks) ++ text "function" ++ wordEdge

/-- `name(parameters)` and an opening brace. -/
def scriptMethod : Pattern :=
  edge .textStart ++ blanks ++ opt (text "async" ++ someBlanks)
    ++ opt (text "static" ++ someBlanks)
    ++ opt (text "get" ++ someBlanks ||| text "set" ++ someBlanks)
    ++ group 1 scriptName ++ blanks ++ scriptParameters ++ blanks ++ char '{'

/-- Words that are followed by parentheses and a brace but name no
    method. -/
def scriptExcludedNames : List String :=
  ["if", "for", "while", "switch", "catch", "function", "return", "with",
   "else"]

/-- An arrow with an expression behind it. -/
def scriptExpressionArrow : Pattern :=
  text "=>" ++ blanks ++ one fun c => !(Text.isBlank c || c == '{')

/-- Whether a unit on this line is one statement: no brace is opened, and
    the line has an expression arrow or ends in a semicolon. -/
def scriptIsOneLiner (line : Text) : Bool :=
  !line.contains '{'
    && (scriptExpressionArrow.occursIn line || Text.endsWith ';' line)

/-- How JavaScript marks blocks. -/
def script : BlockMarks where
  unitName := firstName
    [scriptFunction, scriptBinding, scriptProperty, scriptMethod]
    scriptExcludedNames
  openers := fun line => occurrences line .brace (char '{')
  closers := (char '}').count
  isOneLiner := scriptIsOneLiner

/-- The languages whose blocks are scanned, and how they mark them. -/
def ofLanguage? : Language → Option BlockMarks
  | .ruby => some ruby
  | .javascript => some script
  | .vue => some script
  | .graphql => none
  | .template => none

end BlockMarks

end CodeReview
