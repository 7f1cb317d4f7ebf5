import CodeReview.Language
import CodeReview.Text.Lower

/-! # Paths

    A path is a root and a list of components.  Reading a path drops empty
    components and single dots and keeps double dots; exactly two leading
    slashes are a root of their own. -/

namespace CodeReview

/-- Where a path starts. -/
inductive PathRoot where
  | relative
  | slash
  | doubleSlash
deriving DecidableEq, Repr

/-- The text of a root. -/
def PathRoot.text : PathRoot → String
  | .relative => ""
  | .slash => "/"
  | .doubleSlash => "//"

/-- Why a text is no path. -/
inductive PathFault where
  | embeddedNull
deriving DecidableEq, Repr

/-- The wording of a fault. -/
def PathFault.message : PathFault → String
  | .embeddedNull => "embedded null byte"

/-- A path in normal form. -/
structure Path where
  root : PathRoot
  components : List String
deriving DecidableEq, Repr

namespace Path

/-- The root that a number of leading slashes announces. -/
def rootOf (slashes : Nat) : PathRoot :=
  match slashes with
  | 0 => .relative
  | 2 => .doubleSlash
  | _ => .slash

/-- Whether a piece between slashes counts as a component. -/
def isComponent (piece : Text) : Bool := piece != [] && piece != ['.']

/-- Reads a path. -/
def parse (s : String) : Path where
  root := rootOf (s.toList.takeWhile (· == '/')).length
  components :=
    ((Text.splitOn '/' s.toList).filter isComponent).map String.ofList

/-- Reads a path, unless the text holds a null character. -/
def read (s : String) : Except PathFault Path :=
  if s.toList.contains '\x00' then .error .embeddedNull else .ok (parse s)

/-- The text of a path; an empty relative path is a single dot. -/
def toText (path : Path) : Text :=
  match path.root, path.components with
  | .relative, [] => ['.']
  | root, components =>
      root.text.toList ++ Text.join ['/'] (components.map String.toList)

/-- The text of a path, as a name. -/
def posix (path : Path) : String := String.ofList path.toText

/-- The last component. -/
def name (path : Path) : String := path.components.getLast?.getD ""

/-- All components but the last. -/
def folders (path : Path) : List String := path.components.dropLast

/-- Whether the path starts at a root. -/
def isAbsolute (path : Path) : Bool := path.root != .relative

/-- The extension of a file name: from its last dot on, unless that is the
    first or the last character. -/
def extension (fileName : String) : String :=
  let ending := (fileName.toList.reverse.takeWhile (· != '.')).reverse
  let stem := fileName.length - ending.length
  if ending.isEmpty || stem ≤ 1 then "" else String.ofList ('.' :: ending)

/-- The language that a path's extension announces, in any case. -/
def language? (path : Path) : Option Language :=
  Language.ofExtension? (extension (Text.lower path.name))

/-- The endings of the names of test files. -/
def testEndings : List String :=
  ["_spec.rb", "_test.rb", ".spec.js", ".test.js", ".spec.jsx", ".test.jsx"]

/-- The folders that hold test files. -/
def testFolders : List String := ["spec", "test", "tests", "__tests__"]

/-- Whether a path looks like a test file. -/
def isTest (path : Path) : Bool :=
  testEndings.any (fun ending =>
      ending.toList.isSuffixOf (Text.lower path.name).toList)
    || path.folders.any testFolders.contains

/-- A text between slashes. -/
def slashed (fragment : Text) : Text := '/' :: fragment ++ ['/']

/-- Whether a fragment stands between slashes in the path's text; for a
    single name, whether it is one of the path's folders. -/
def hasFolder (path : Path) (fragment : String) : Bool :=
  Text.occurs (slashed fragment.toList) ('/' :: path.toText)

/-- The rest of a list behind an initial part, if it starts with that. -/
def after? : (start components : List String) → Option (List String)
  | [], components => some components
  | _ :: _, [] => none
  | s :: start, c :: components =>
      if s = c then after? start components else none

/-- The path as seen from a folder; nothing if it does not lie beneath
    it. -/
def relativeTo? (path folder : Path) : Option Path :=
  if path.root = folder.root then
    (after? folder.components path.components).map (⟨.relative, ·⟩)
  else none

/-- The path as seen from the project's folder; nothing if it lies
    elsewhere. -/
def withinProject? (path project : Path) : Option Path :=
  if path.isAbsolute then path.relativeTo? project else some path

end Path

end CodeReview
