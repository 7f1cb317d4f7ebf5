import CodeReview.Detector.Basic

/-! # Markup and accessibility

    The tags of a document, and what makes elements hard to use without a
    mouse or a screen. -/

namespace CodeReview.Detector

open Pattern

/-! ## Tags -/

/-- A group in braces, with groups in braces at most one level down. -/
def braceGroup : Pattern :=
  char '{'
    ++ many (noneOf "\x7b\x7d"
        ||| char '{' ++ many (noneOf "\x7b\x7d") ++ char '}')
    ++ char '}'

/-- One part of the attributes of a tag: a quoted string, a group in braces
    or any other character that does not end the tag. -/
def attributePart : Pattern :=
  char '"' ++ many (noneOf "\"") ++ char '"'
    ||| char '\'' ++ many (noneOf "'") ++ char '\''
    ||| braceGroup
    ||| noneOf "<>\"'\x7b\x7d"

/-- A tag, with its name and its attributes. -/
def tagPattern : Pattern :=
  char '<'
    ++ group 1 (one Char.isAlpha
        ++ many (one fun c => Text.isWord c || c == '.' || c == ':' || c == '-'))
    ++ group 2 (many attributePart) ++ char '>'

/-- A tag of a document: its name, the text of its attributes, the line it
    starts on, and where its attributes start. -/
structure Tag where
  name : String
  attrs : Text
  line : Nat
  attrsOffset : Nat

/-- The tags of a file. -/
def tags (s : Subject) : List Tag :=
  (s.allMatches tagPattern).map fun (line, m) =>
    { name := m.name 1, attrs := m.group 2, line, attrsOffset := m.groupStart 2 }

/-! ## Accessibility of elements -/

/-- The elements that are interactive by themselves. -/
def nativeInteractive : List String :=
  ["a", "button", "input", "select", "textarea", "label", "summary", "option",
   "details"]

/-- What introduces an event handler. -/
def handlerIntro : Pattern :=
  char '@' ||| textAnyCase "v-on:" ||| wordEdge ++ textAnyCase "on"

/-- A handler of one of some events. -/
def handlerOf (events : List String) : Pattern :=
  handlerIntro ++ textsAnyCase events ++ wordEdge

/-- A handler of clicks or keys. -/
def clickOrKeyHandler : Pattern :=
  handlerOf ["click", "keypress", "keydown", "keyup"]

/-- A handler of the mouse. -/
def mouseHandler : Pattern :=
  handlerOf ["click", "dblclick", "mousedown", "mouseup"]

/-- A handler of keys. -/
def keyHandler : Pattern :=
  handlerIntro ++ textAnyCase "key" ++ textsAnyCase ["down", "up", "press"]
    ++ wordEdge

/-- An attribute for assistive technology. -/
def ariaAttribute : Pattern :=
  wordEdge ++ text "aria-" ||| wordEdge ++ text "role" ++ blanks ++ char '='

/-- An alternative text. -/
def altAttribute : Pattern := wordEdge ++ text "alt" ++ blanks ++ char '='

/-- The type of an input that needs no label. -/
def unlabelledInputType : Pattern :=
  wordEdge ++ textAnyCase "type" ++ blanks ++ char '=' ++ blanks ++ quoteChar
    ++ textsAnyCase ["hidden", "submit", "button", "reset", "image"]
    ++ quoteChar

/-- A label for assistive technology. -/
def ariaLabel : Pattern :=
  wordEdge ++ text "aria-label" ++ opt (text "ledby") ++ blanks ++ char '='

/-- The identifier of an element. -/
def elementId : Pattern :=
  notAfter (fun c => Text.isWord c || c == ':' || c == '-')
    ++ text "id" ++ blanks ++ char '=' ++ blanks ++ quoteChar
    ++ group 1 (many1 (noneOf "\"'")) ++ quoteChar

/-- A label for the element with an identifier. -/
def labelFor (id : String) : Pattern :=
  (wordEdge ++ text "for" ||| text "htmlFor") ++ blanks ++ char '=' ++ blanks
    ++ quoteChar ++ text id ++ quoteChar

/-- Whether a form element needs no label or has one. -/
def isLabelled (s : Subject) (element : String) (attrs : Text) : Bool :=
  (element == "input" && unlabelledInputType.occursIn attrs)
    || ariaLabel.occursIn attrs
    || match elementId.search attrs with
       | none => false
       | some m => (labelFor (m.name 1)).occursIn s.content

/-- A finding if a condition holds. -/
def findingIf (condition : Bool) (finding : Finding) : List Finding :=
  if condition then [finding] else []

/-- The accessibility problems of one tag. -/
def tagFindings (s : Subject) (tag : Tag) : List Finding :=
  let element := Text.lower tag.name
  let isNative := nativeInteractive.contains element
  let report (message suggestion : String) : Finding :=
    s.findingAt .accessibility .warning message suggestion (some tag.line)
  findingIf
      (!isNative && clickOrKeyHandler.occursIn tag.attrs
        && !ariaAttribute.occursIn tag.attrs)
      (report
        s!"Interactive <{tag.name}> element has event handlers but no ARIA attributes"
        "Add a role and aria-label (or use a native <button>) so screen readers can announce it")
    ++ findingIf
      (!isNative && mouseHandler.occursIn tag.attrs
        && !keyHandler.occursIn tag.attrs)
      (report
        s!"Mouse-only handler on <{tag.name}> without a keyboard equivalent"
        "Add keydown/keypress handlers to ensure keyboard accessibility")
    ++ findingIf (element == "img" && !altAttribute.occursIn tag.attrs)
      (report "Image is missing alternative text"
        "Add a meaningful alt attribute (alt=\"\" for decorative images)")
    ++ findingIf
      (["input", "select", "textarea"].contains element
        && !isLabelled s element tag.attrs)
      (report s!"<{tag.name}> element has no associated label"
        "Add a <label for=...> or an aria-label attribute")

/-- Elements that are hard to use. -/
def markupAccessibility : Detector where
  name := "detect_markup_accessibility"
  findings := fun s => .ok ((tags s).flatMap (tagFindings s))

/-! ## Accessibility of scripts -/

/-- A call that registers a listener for one of some events. -/
def listenerOf (events : Pattern) : Pattern :=
  text "addEventListener(" ++ blanks ++ quoteChar ++ events ++ quoteChar

/-- A listener for the mouse. -/
def mouseListener : Pattern := listenerOf (texts ["click", "dblclick", "mousedown"])

/-- A listener for keys. -/
def keyListener : Pattern :=
  listenerOf (text "key" ++ texts ["down", "up", "press"])

/-- A call that moves the focus. -/
def focusCall : Pattern :=
  char '.' ++ texts ["focus", "blur"] ++ char '(' ++ blanks ++ char ')'

/-- Scripts that handle the mouse but no keys, or move the focus without a
    tab order. -/
def scriptAccessibility : Detector where
  name := "detect_script_accessibility"
  findings := fun s => .ok <|
    (if keyListener.occursIn s.content then []
      else
        (s.firstLine mouseListener).toList.map fun line =>
          s.findingAt .accessibility .warning
            "Mouse event listener without a keyboard equivalent"
            "Register keydown/keypress listeners alongside mouse listeners"
            (some line))
    ++ (if (textAnyCase "tabindex").occursIn s.content then []
      else
        (s.firstLine focusCall).toList.map fun line =>
          s.findingAt .accessibility .warning
            "Custom focus management without proper tabindex"
            "Ensure elements that receive focus have appropriate tabindex values"
            (some line))

end CodeReview.Detector
