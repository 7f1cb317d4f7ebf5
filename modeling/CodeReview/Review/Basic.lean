import CodeReview.Detector.Registry
import CodeReview.Result.Aggregate
import CodeReview.Review.Candidate
import CodeReview.Text.Utf8

/-! # Reviews

    Reads each candidate, runs the detectors of its language over it, and
    aggregates what they find.  A file that cannot be read is skipped with
    a warning; a detector that fails costs only its own findings. -/

namespace CodeReview

/-- The text of a file, unless it cannot be read, is binary or is not
    UTF-8. -/
def sourceAt (tree : FileTree) (path : String) : Logged (Option Text) :=
  let skip (reason : String) : Logged (Option Text) := do
    .emit .warning s!"Skipping {path} - {reason}"
    return none
  match tree.read (Path.parse path) with
  | .error e => skip s!"could not read: {e.message (Path.parse path)}"
  | .ok bytes =>
      if bytes.contains 0 then skip "looks like a binary file"
      else
        match Text.decode bytes with
        | .ok text => pure (some text)
        | .error fault => skip s!"not valid UTF-8: {fault.message}"

/-- The text of a file that is named by any text; a text that is no path
    is a fault. -/
def readSource (tree : FileTree) (path : String) :
    Except PathFault (Logged (Option Text)) := do
  let _ ← Path.read path
  return sourceAt tree path

/-- What a review takes besides the paths. -/
structure ReviewInput where
  tree : FileTree
  config : Config := {}
  project : Path := tree.home
  faults : Faults := {}

/-- The analysis of one file. -/
structure FileReview where
  subject : Subject
  findings : List Finding

namespace Review

/-- The blocks of a file, or none with a warning if the scan is made to
    fail. -/
def scanBlocks (input : ReviewInput) (path : String) (content : Text)
    (language : Option Language) : Logged (List Block) :=
  match input.faults.blockScan with
  | none => pure (Block.scan content language)
  | some failure => do
      .emit .warning s!"Block scan failed for {path}: {failure}"
      return []

/-- Reads a file and finds its blocks. -/
def subject? (input : ReviewInput) (path : String)
    (language : Option Language) : Logged (Option Subject) := do
  match ← sourceAt input.tree path with
  | none => return none
  | some content =>
      let blocks ← scanBlocks input path content language
      return some ⟨path, content, language, blocks, input.config⟩

/-- Analyses one file; nothing if it is skipped. -/
def analyse (input : ReviewInput) (path : String)
    (language : Option Language) : Logged (Option FileReview) := do
  match ← subject? input path language with
  | none => return none
  | some subject =>
      let findings ← detectAll input.faults subject
      .emit .debug s!"   {path}: {findings.length} finding(s)"
      return some ⟨subject, findings⟩

/-- The findings of one file that is named by any text; nothing if it is
    skipped. -/
def file (input : ReviewInput) (path : String) (language : Option Language) :
    Except PathFault (Logged (Option (List Finding))) := do
  let _ ← Path.read path
  return (fun review => review.map (·.findings)) <$> analyse input path language

/-- The categories of which a finding suppresses all observations. -/
def gatingCategories : List Category := [.security, .performance]

/-- The observations about a batch, if it has files and no finding of a
    gating category. -/
def praise (input : ReviewInput) (a : Aggregator) (batch : List Subject) :
    Logged Aggregator :=
  if batch.isEmpty || a.hasCategory gatingCategories then pure a
  else do
    let notes ← praiseAll input.faults batch
    return a.setPositives notes

/-- The number of findings of a severity in a complete result. -/
def countOf (r : ReviewResult) (severity : Severity) : Int :=
  (r.count? severity).getD 0

/-- The result of some analyses. -/
def aggregate (input : ReviewInput) (reviews : List FileReview) :
    Logged ReviewResult := do
  let collected := reviews.foldl (fun a r => a.add r.findings) ({} : Aggregator)
  let collected ← praise input collected (reviews.map (·.subject))
  let result := collected.freeze
  (⟨(), collected.freezeLog⟩ : Logged Unit)
  let critical := countOf result .critical
  let warnings := countOf result .warning
  let suggestions := countOf result .suggestion
  .emit .info (s!"   Found {result.total} issue(s): {critical} critical, "
    ++ s!"{warnings} warning(s), {suggestions} suggestion(s)")
  return result

end Review

/-- Reviews the candidates among some paths. -/
def review (input : ReviewInput) (paths : List String) : Logged ReviewResult := do
  let candidates ← Candidate.select input.tree input.config input.project paths
  if candidates.isEmpty then
    .emit .info "No reviewable files found"
    return .empty
  else
    .emit .info s!"🔍 Reviewing {candidates.length} file(s)..."
    let reviews ← candidates.mapM fun c =>
      Review.analyse input c.path (some c.language)
    Review.aggregate input (reviews.filterMap id)

end CodeReview
