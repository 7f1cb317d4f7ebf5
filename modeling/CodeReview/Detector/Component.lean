import CodeReview.Detector.Markup

/-! # Single-file components

    Lists without keys, properties without types, global styles, the
    sections of a component, and the names of its events. -/

namespace CodeReview.Detector

open Pattern

/-- The binding of a key. -/
def keyBinding : Pattern :=
  (edge .textStart ||| blank) ++ texts [":key", "v-bind:key", "key"] ++ blanks
    ++ char '='

/-- A list directive. -/
def listDirective : Pattern :=
  notAfter (fun c => Text.isWord c || c == ':' || c == '-')
    ++ text "v-for" ++ blanks ++ char '='

/-- Properties declared by opening a bracket of some kind. -/
def propsOpening (bracket : Char) : Pattern :=
  wordEdge ++ text "props" ++ blanks ++ char ':' ++ blanks ++ char bracket
    ||| wordEdge ++ text "defineProps(" ++ blanks ++ char bracket

/-- The type or the necessity of a property. -/
def propMetadata : Pattern :=
  wordEdge ++ text "type" ++ blanks ++ char ':'
    ||| wordEdge ++ text "required" ++ blanks ++ char ':'
    ||| char ':' ++ blanks ++ opt (char '[') ++ blanks
        ++ texts ["String", "Number", "Boolean", "Array", "Object", "Function",
            "Date", "Symbol"]
        ++ wordEdge

/-- A style section, with its attributes. -/
def styleTag : Pattern :=
  text "<style" ++ wordEdge ++ group 1 (many (noneOf ">")) ++ char '>'

/-- The attributes of a style section that does not leak. -/
def containedStyle : Pattern :=
  wordEdge ++ texts ["scoped", "module"] ++ wordEdge

/-- The emission of an event, with its name. -/
def emission : Pattern :=
  (text "$emit" ||| wordEdge ++ text "emit") ++ char '(' ++ blanks ++ quoteChar
    ++ group 1 (many1 (noneOf "'\"")) ++ quoteChar

/-- The name of an event in kebab-case, or the update of a property. -/
def conventionalEvent : Pattern :=
  let small := one fun c => c.isLower || c.isDigit
  edge .textStart
    ++ (one Char.isLower ++ many small ++ many (char '-' ++ many1 small)
        ||| text "update:" ++ one Char.isAlpha
            ++ many (one fun c => Text.isWord c || c == '-'))
    ++ edge .textEnd

/-- The head of the data function. -/
def dataFunction : Pattern :=
  wordEdge ++ text "data" ++ blanks ++ char '(' ++ blanks ++ char ')' ++ blanks
    ++ char '{'

/-- Event handling by hand. -/
def manualEventHandling : Pattern :=
  char '.' ++ texts ["preventDefault", "stopPropagation"] ++ char '(' ++ blanks
    ++ char ')'

/-- An event modifier. -/
def eventModifier : Pattern :=
  oneOf "@:" ++ many1 (one fun c => Text.isWord c || c == '-') ++ char '.'
    ++ texts ["prevent", "stop"] ++ wordEdge

/-- The most lines that a template should have. -/
def maxTemplateLines : Nat := 100

/-- Lists whose items have no key. -/
def unkeyedLists : Detector where
  name := "detect_unkeyed_lists"
  findings := fun s => .ok <|
    (tags s).filterMap fun tag =>
      match listDirective.search tag.attrs with
      | none => none
      | some m =>
          if keyBinding.occursIn tag.attrs then none
          else
            some (s.findingAt .bestPractice .critical
              "v-for directive used without a :key attribute"
              "Always bind a stable unique :key with v-for to keep component state and rendering correct"
              (some (s.lineOf (tag.attrsOffset + m.start))))

/-- The line where properties are declared without types: in a list, or in
    an object that holds no type. -/
def untypedPropsLine (s : Subject) : Except DetectorFault (Option Nat) :=
  match s.firstLine (propsOpening '[') with
  | some line => .ok (some line)
  | none =>
      match s.firstLine (propsOpening '{') with
      | none => .ok none
      | some line => do
          let start := line - 1
          let last ← blockEnd (s.lines.map BlockMarks.script.profile) start
          let declaration := (s.lines.drop start).take (last + 1 - start)
          return if propMetadata.occursIn (Text.unlines declaration) then none
            else some line

/-- Properties without types. -/
def untypedProps : Detector where
  name := "detect_untyped_props"
  findings := fun s => do
    let found ← untypedPropsLine s
    return found.toList.map fun line =>
      s.findingAt .bestPractice .warning
        "Props are declared without type or required metadata"
        "Define prop types and required status for better component documentation and error prevention"
        (some line)

/-- Styles that leak to other components. -/
def unscopedStyles : Detector where
  name := "detect_unscoped_styles"
  findings := fun s => .ok <|
    (s.allMatches styleTag).filterMap fun (line, m) =>
      if containedStyle.occursIn (m.group 1) then none
      else
        some (s.findingAt .style .suggestion
          "Component uses global styles instead of scoped styles"
          "Use <style scoped> to prevent CSS leaking to other components"
          (some line))

/-- A component without a template or a script. -/
def missingSection (s : Subject) : List Finding :=
  findingIf (!s.mentions "<template" || !s.mentions "<script")
    (s.finding .structural .warning
      "Component is missing a <template> or <script> section"
      "Ensure the component has both <template> and <script> sections")

/-- A template with too many lines between its first and its last tag. -/
def largeTemplate (s : Subject) : List Finding :=
  let startsWith (mark : String) (line : Text) : Bool := mark.toList.isPrefixOf line
  match (s.lineNumbers (startsWith "<template")).head?,
      (s.lineNumbers (startsWith "</template>")).getLast? with
  | some first, some last =>
      let size := last - first - 1
      findingIf (first < last && maxTemplateLines < size)
        (s.findingAt .structural .warning
          s!"Component template is very large ({size} lines)"
          "Break large components into smaller, focused components"
          (some first))
  | _, _ => []

/-- Data without anything computed from it. -/
def missingComputed (s : Subject) : List Finding :=
  findingIf
    (dataFunction.occursIn s.content && s.mentions "return \x7b"
      && !s.mentions "computed")
    (s.findingAt .bestPractice .suggestion
      "Component uses data() but no computed properties for derived data"
      "Use computed properties for data that depends on other data"
      (s.firstLine dataFunction))

/-- The sections of a component. -/
def componentStructure : Detector where
  name := "detect_component_structure"
  findings := fun s =>
    .ok (missingSection s ++ largeTemplate s ++ missingComputed s)

/-- Events whose names break the convention. -/
def unconventionalEvents (s : Subject) : List Finding :=
  (s.allMatches emission).filterMap fun (line, m) =>
    if conventionalEvent.startsIn (m.group 1) then none
    else
      some (s.findingAt .naming .suggestion
        s!"Custom event '{m.name 1}' does not follow kebab-case naming"
        "Use kebab-case event names, or the update:<prop> form for v-model support"
        (some line))

/-- Event handling by hand where no modifier is used. -/
def manualEvents (s : Subject) : List Finding :=
  if eventModifier.occursIn s.content then []
  else
    (s.firstLine manualEventHandling).toList.map fun line =>
      s.findingAt .bestPractice .suggestion
        "Manual event handling instead of event modifiers"
        "Use event modifiers like .prevent, .stop, .once for cleaner code"
        (some line)

/-- The names and the handling of events. -/
def eventConventions : Detector where
  name := "detect_event_conventions"
  findings := fun s => .ok (unconventionalEvents s ++ manualEvents s)

end CodeReview.Detector
