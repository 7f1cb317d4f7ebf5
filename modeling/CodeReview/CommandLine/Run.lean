import CodeReview.CommandLine.Options
import CodeReview.Diff.Reader
import CodeReview.PullRequest.Comment
import CodeReview.PullRequest.Fetch
import CodeReview.Report.Basic
import CodeReview.Review.Basic
import CodeReview.Text.Terminal

/-! # Running a command

    A run is a function of its command line and its surroundings.  It
    yields an exit status and a trace of everything it printed, wrote,
    requested and logged. -/

namespace CodeReview.CommandLine

/-- What a run finds around it. -/
structure Surroundings where
  tree : FileTree
  /-- The folder that paths from a root are compared with. -/
  project : Path := tree.home
  environment : Environment := []
  /-- The text on the standard input. -/
  input : Text := []
  /-- The server's replies, one to each request. -/
  replies : Nat → HttpReply
  comments : CommentServer := {}
  /-- How the command line reads a number. -/
  readNumber : String → Option Int :=
    fun text => (Text.looseInteger text.toList).toOption
  /-- What the command line tells about its commands. -/
  help : HelpTopic → String := fun _ => ""

/-- The command that some arguments give. -/
def Surroundings.command? (s : Surroundings) (args : List String) :
    Option Command :=
  Command.read? s.readNumber args

/-- Why a review is not completed. -/
inductive Failure where
  | unknownFormat (name : String)
  | incompletePull
  | inaccessible (e : AccessError)
  | badDiffPath (fault : PathFault)
  | unreadableDiff (source : String) (e : ReadError)
  | undecodableDiff (fault : Text.Utf8Fault)
  | diff (e : DiffError)
  | fetch (e : FetchError)
  | report (e : Report.Error)
  | post (e : PostError)

namespace Failure

/-- The log entry about a failure that a run foresees; a failed connection
    and a path that cannot be looked up or written to are not foreseen. -/
def entry? : Failure → Option LogEntry
  | .unknownFormat name =>
      let formats := String.intercalate ", " (Report.Format.all.map (·.name))
      some ⟨.error, s!"Unknown format {Text.quote name} (choose from {formats})"⟩
  | .incompletePull => some ⟨.error, "--pr and --post need both --repo and --pr"⟩
  | .inaccessible _ => none
  | .badDiffPath fault => foreseen fault.message
  | .unreadableDiff source e => foreseen
      s!"Could not read diff file {source}: {e.message (Path.parse source)}"
  | .undecodableDiff fault => foreseen fault.message
  | .diff e => foreseen e.message
  | .fetch (.fault ⟨.malformed _, message⟩) => foreseen message
  | .fetch (.fault _) => none
  | .fetch (.retry f) => if f.isBadValue then foreseen f.message else none
  | .fetch e => foreseen e.message
  | .report e => foreseen e.message
  | .post (.lost ⟨.malformed _, message⟩) => foreseen message
  | .post (.lost _) => none
  | .post e => foreseen e.message
where
  /-- The entry about a failure after the options were accepted. -/
  foreseen (message : String) : Option LogEntry := some ⟨.error, s!"❌ {message}"⟩

end Failure

/-- How a run ends. -/
inductive ExitStatus where
  /-- Nothing critical was found. -/
  | passed
  /-- Something critical was found. -/
  | failing
  /-- The command line was refused, or a foreseen failure occurred. -/
  | refused
  /-- A failure occurred that was not foreseen. -/
  | crashed (cause : Failure)

/-- The exit code of a run. -/
def ExitStatus.code : ExitStatus → Nat
  | .passed => 0
  | .failing => 1
  | .refused => 2
  | .crashed _ => 1

/-- A step of a run, which may fail. -/
abbrev Step := ExceptT Failure Traced

namespace Step

/-- A step that only logs. -/
def logged {α : Type} (x : Logged α) : Step α := ExceptT.lift (Traced.ofLogged x)

/-- A step that does one thing. -/
def perform (event : Event) : Step Unit := ExceptT.lift (Traced.perform event)

/-- A step with failures of another kind. -/
def within {ε α : Type} (failure : ε → Failure) (x : ExceptT ε Traced α) : Step α :=
  ExceptT.mk (Except.mapError failure <$> x.run)

/-- A step that does nothing but yield or fail. -/
def ofExcept {ε α : Type} (failure : ε → Failure) (x : Except ε α) : Step α :=
  MonadExcept.ofExcept (x.mapError failure)

end Step

/-- An option that is given and not empty. -/
def nonEmpty (value : Option String) : Option String := value.filter (· != "")

namespace ReviewOptions

/-- The source of the diff, if there is one. -/
def diffSource? (o : ReviewOptions) : Option String := nonEmpty o.diff

/-- The repository, if one is named. -/
def repository? (o : ReviewOptions) : Option String := nonEmpty o.repository

/-- The pull request, if it is given in full. -/
def pullRequest? (o : ReviewOptions) : Option PullRequest := do
  return ⟨← o.repository?, ← o.pull⟩

/-- Refuses an unknown format, and a pull request that is asked for but not
    given in full. -/
def format (o : ReviewOptions) : Except Failure Report.Format :=
  match Report.Format.ofName? o.formatName with
  | none => .error (.unknownFormat o.formatName)
  | some format =>
      if (o.post || o.pull.isSome) && o.pullRequest?.isNone then .error .incompletePull
      else .ok format

/-- The settings that override the environment. -/
def settings (o : ReviewOptions) : List (String × Json) :=
  o.thresholds.map fun (field, value) => (field.name, Json.ofOption .int value)

/-- The configuration of the review. -/
def config (o : ReviewOptions) (environment : Environment) : Logged Config := do
  let config ← Config.load environment o.settings
  return if o.ignoreDirs.isEmpty && o.ignoreFiles.isEmpty then config
    else config.ignoring o.ignoreDirs o.ignoreFiles

end ReviewOptions

/-- The paths that a path stands for: the files beneath it, if it leads to
    a folder.  A path that is missing stands for itself, but one with a
    name that is too long cannot be looked up. -/
def expand (tree : FileTree) (path : String) : Except AccessError (List String) :=
  let path := Path.parse path
  match tree.resolve path with
  | .error .nameTooLong => .error .nameTooLong
  | _ =>
      .ok (if tree.isFolder path then (tree.filesBeneath path).map (·.posix)
        else [path.posix])

/-- The paths that some paths stand for, in order. -/
def expandAll (tree : FileTree) (paths : List String) :
    Except AccessError (List String) := do
  return (← paths.mapM (expand tree)).flatten

/-- The text of a diff: of the standard input for a dash, else of a
    file. -/
def readDiff (s : Surroundings) (source : String) : Except Failure Text :=
  if source = "-" then .ok (Text.plainNewlines s.input)
  else do
    let path ← (Path.read source).mapError .badDiffPath
    let bytes ← (s.tree.read path).mapError (.unreadableDiff source)
    let text ← (Text.decode bytes).mapError .undecodableDiff
    return Text.plainNewlines text

/-- The paths that a diff leaves in place. -/
def diffPaths (text : Text) : Step (List String) := do
  let paths ← Step.ofExcept .diff (Diff.changedPaths text false)
  Step.logged paths

/-- The paths of the diff that is given, if one is. -/
def givenPaths (s : Surroundings) (o : ReviewOptions) : Step (List String) :=
  match o.diffSource? with
  | none => pure []
  | some source => do
      let text ← Step.ofExcept id (readDiff s source)
      diffPaths text

/-- The paths of the pull request, if one is given. -/
def pullPaths (s : Surroundings) (o : ReviewOptions) : Step (List String) :=
  match o.pullRequest? with
  | none => pure []
  | some pull => do
      Step.logged (.emit .info s!"📥 Fetching PR #{pull.number} from {pull.repository}...")
      let text ← Step.within .fetch (pull.fetchDiff s.environment s.replies)
      diffPaths text

/-- The paths to be reviewed: those that are given, and those of the diff
    and of the pull request.  If nothing at all is given, the current
    folder is taken. -/
def candidates (s : Surroundings) (o : ReviewOptions) : Step (List String) := do
  let named ← Step.ofExcept .inaccessible (expandAll s.tree o.paths)
  let given ← givenPaths s o
  let pulled ← pullPaths s o
  let all := named ++ given ++ pulled
  if all.isEmpty && o.diffSource?.isNone && o.repository?.isNone then
    Step.ofExcept .inaccessible (expand s.tree ".")
  else return all

/-- Writes the report to the output file, or prints it. -/
def deliver (s : Surroundings) (o : ReviewOptions) (report : String) : Step Unit :=
  match o.output with
  | none => Step.perform (.print (Text.printed (report ++ "\n")))
  | some output => do
      let path := Path.parse output
      let place ← Step.ofExcept .inaccessible (s.tree.writePlace path)
      Step.perform (.write place (report ++ "\n"))
      Step.logged (.emit .info s!"Report saved to {path.posix}")

/-- Posts the report as a comment, if that is asked for. -/
def postReport (s : Surroundings) (o : ReviewOptions) (result : ReviewResult)
    (limit : Int) : Step Unit :=
  match o.post, o.pullRequest? with
  | true, some pull => do
      let body ← Step.ofExcept .report
        (Report.render result .github (some pull.number) limit)
      let _ ← Step.within .post (s.comments.post s.environment false
        { pull, body, marker := Report.marker pull.number })
  | _, _ => pure ()

/-- Reviews, reports and posts. -/
def reviewCommand (s : Surroundings) (o : ReviewOptions) : Step ReviewResult := do
  let format ← Step.ofExcept id o.format
  let config ← Step.logged (o.config s.environment)
  let paths ← candidates s o
  let result ← Step.logged (review { tree := s.tree, config, project := s.project } paths)
  let report ← Step.ofExcept .report
    (Report.render result format o.pull config.displayLimit)
  deliver s o report
  postReport s o result config.displayLimit
  return result

/-- A name with blanks behind it, up to a width. -/
def padRight (width : Nat) (name : String) : String :=
  name ++ String.ofList (List.replicate (width - name.length) ' ')

/-- The list of extensions with their languages. -/
def languageList : String :=
  String.join (Language.extensions.map fun (extension, language) =>
    s!"{padRight 10 extension} {language.tag}\n")

/-- The status that a review ends with; a foreseen failure is logged. -/
def statusOf : Except Failure ReviewResult → Traced ExitStatus
  | .ok result => pure (if result.isFailing then .failing else .passed)
  | .error failure =>
      match failure.entry? with
      | none => pure (.crashed failure)
      | some entry => do
          Traced.emit entry.level entry.text
          return .refused

/-- The run with those log entries that are to be shown. -/
def showing {α : Type} (verbose : Bool) (run : Traced α) : Traced α :=
  { run with log := run.log.filter (·.isShown verbose) }

/-- Runs a command line. -/
def run (s : Surroundings) (args : List String) : Traced ExitStatus :=
  match s.command? args with
  | none => pure .refused
  | some (.help topic) => do
      Traced.perform (.print (s.help topic))
      return .passed
  | some .languages => do
      Traced.perform (.print languageList)
      return .passed
  | some (.review o) => showing o.verbose do
      let outcome ← (reviewCommand s o).run
      statusOf outcome

end CodeReview.CommandLine
