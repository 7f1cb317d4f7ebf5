import CodeReview.Path
import CodeReview.Text.Quoted

/-! # File trees

    The files of a project as a value: a list of files, each with the
    folders it lies in, folders that may be empty, and the files that may
    not be read.  A path is followed component by component from the
    project's folder; nothing is known of what lies elsewhere. -/

namespace CodeReview

/-- The files and folders of a project. -/
structure FileTree where
  files : List (List String × List UInt8) := []
  emptyFolders : List (List String) := []
  /-- The places of files that may not be read. -/
  unreadable : List (List String) := []
  /-- The project's folder. -/
  home : Path := ⟨.slash, ["work", "project"]⟩

/-- Why a file cannot be accessed. -/
inductive AccessError where
  | missing
  | notFolder
  | isFolder
  | nameTooLong
deriving DecidableEq, Repr

namespace AccessError

/-- The number of an error. -/
def number : AccessError → Nat
  | .missing => 2
  | .notFolder => 20
  | .isFolder => 21
  | .nameTooLong => 36

/-- The wording of an error. -/
def text : AccessError → String
  | .missing => "No such file or directory"
  | .notFolder => "Not a directory"
  | .isFolder => "Is a directory"
  | .nameTooLong => "File name too long"

/-- The full wording of an error with a number about a path. -/
def wording (number : Nat) (text : String) (path : Path) : String :=
  s!"[Errno {number}] {text}: {Text.quote path.posix}"

end AccessError

/-- Why a file cannot be read: it cannot be accessed, or this is not
    permitted. -/
inductive ReadError where
  | access (e : AccessError)
  | notPermitted
deriving DecidableEq, Repr

/-- The full wording of an error about a path. -/
def ReadError.message (e : ReadError) (path : Path) : String :=
  match e with
  | .access e => AccessError.wording e.number e.text path
  | .notPermitted => AccessError.wording 13 "Permission denied" path

/-- What stands at a place of a tree. -/
inductive FileNode where
  | file (bytes : List UInt8)
  | folder
deriving DecidableEq

namespace FileTree

/-- What stands at a place that is given by names from the project's
    folder. -/
def node? (tree : FileTree) (place : List String) : Option FileNode :=
  match tree.files.lookup place with
  | some bytes => some (.file bytes)
  | none =>
      if place.isEmpty || tree.files.any (fun file => place.isPrefixOf file.1)
          || tree.emptyFolders.any place.isPrefixOf then
        some .folder
      else none

/-- The longest name, in bytes. -/
def maxNameLength : Nat := 255

/-- The longest path, in bytes. -/
def maxPathLength : Nat := 4095

/-- Why nothing is found outside of the project: no name leads anywhere,
    but one that is too long is refused first. -/
def outside : List String → AccessError
  | [] => .missing
  | name :: rest =>
      if name = ".." then outside rest
      else if maxNameLength < name.utf8ByteSize then .nameTooLong
      else .missing

/-- Follows the components of a path from a folder.  Double dots lead up,
    but nothing is found out of the project. -/
def follow (tree : FileTree) (here : List String) :
    List String → Except AccessError (List String)
  | [] => .ok here
  | name :: rest =>
      if name = ".." then
        if here.isEmpty then .error (outside rest) else follow tree here.dropLast rest
      else if maxNameLength < name.utf8ByteSize then .error .nameTooLong
      else
        match tree.node? (here ++ [name]) with
        | none => .error .missing
        | some .folder => follow tree (here ++ [name]) rest
        | some (.file _) =>
            if rest.isEmpty then .ok (here ++ [name]) else .error .notFolder

/-- The place that the components of a path lead to.  A path from a root
    leads into the project if it starts with the project's folder. -/
def locate (tree : FileTree) (path : Path) : Except AccessError (List String) :=
  if path.isAbsolute then
    match Path.after? tree.home.components path.components with
    | some inner => tree.follow [] inner
    | none => .error (outside path.components)
  else tree.follow [] path.components

/-- The place that a path leads to, unless it is too long to be looked
    up. -/
def resolve (tree : FileTree) (path : Path) : Except AccessError (List String) :=
  if maxPathLength < path.posix.utf8ByteSize then .error .nameTooLong
  else tree.locate path

/-- What stands at the place that a path leads to. -/
def nodeAt? (tree : FileTree) (path : Path) : Option FileNode :=
  match tree.resolve path with
  | .ok place => tree.node? place
  | .error _ => none

/-- Whether a path leads to a file. -/
def isFile (tree : FileTree) (path : Path) : Bool :=
  match tree.nodeAt? path with
  | some (.file _) => true
  | _ => false

/-- Whether a path leads to a folder. -/
def isFolder (tree : FileTree) (path : Path) : Bool :=
  tree.nodeAt? path == some .folder

/-- Whether what a path leads to may be read. -/
def mayRead (tree : FileTree) (path : Path) : Bool :=
  match tree.resolve path with
  | .ok place => !tree.unreadable.contains place
  | .error _ => false

/-- Whether a path leads to a file that may be read. -/
def isReadable (tree : FileTree) (path : Path) : Bool :=
  tree.isFile path && tree.mayRead path

/-- The bytes of the file at a place. -/
def readAt (tree : FileTree) (place : List String) : Except ReadError (List UInt8) :=
  match tree.node? place with
  | some (.file bytes) =>
      if tree.unreadable.contains place then .error .notPermitted else .ok bytes
  | some .folder => .error (.access .isFolder)
  | none => .error (.access .missing)

/-- The bytes of the file that a path leads to. -/
def read (tree : FileTree) (path : Path) : Except ReadError (List UInt8) := do
  tree.readAt (← (tree.resolve path).mapError .access)

/-- The place of a file that is to be written: its folder must exist, and
    no folder may stand there. -/
def writePlace (tree : FileTree) (path : Path) :
    Except AccessError (List String) :=
  match path.components.getLast? with
  | none => .error .isFolder
  | some name => do
      if maxPathLength < path.posix.utf8ByteSize then throw .nameTooLong
      let parent ← tree.resolve { path with components := path.components.dropLast }
      match tree.node? parent with
      | some .folder =>
          if name = ".." then throw .isFolder
          else if maxNameLength < name.utf8ByteSize then throw .nameTooLong
          else
            match tree.node? (parent ++ [name]) with
            | some .folder => throw .isFolder
            | _ => return parent ++ [name]
      | _ => throw .notFolder

/-- The order of paths: component by component. -/
def placeLE : List String → List String → Bool
  | [], _ => true
  | _ :: _, [] => false
  | a :: as, b :: bs => if a = b then placeLE as bs else a < b

/-- The files beneath the folder that a path leads to, as paths that start
    with it, in order. -/
def filesBeneath (tree : FileTree) (path : Path) : List Path :=
  match tree.resolve path with
  | .error _ => []
  | .ok place =>
      let found := tree.files.filterMap fun file => Path.after? place file.1
      ((found.filter (· != [])).mergeSort placeLE).map fun rest =>
        { path with components := path.components ++ rest }

end FileTree

end CodeReview
