import CodeReview.Detector.Basic

/-! # Performance of database code

    Lookups and writes once per item of an iteration, unbounded loading,
    and tables without indexes. -/

namespace CodeReview.Detector

open Pattern

/-- The methods that iterate. -/
def iterationMethods : List String :=
  ["each", "each_with_index", "each_with_object", "map", "flat_map", "collect",
   "select", "reject", "find_each", "find_in_batches", "in_batches"]

/-- The head of an iteration, up to the word or brace that opens its
    body. -/
def iterationHead : Pattern :=
  char '.' ++ group 1 (texts iterationMethods) ++ wordEdge
    ++ opt (char '(' ++ many (noneOf ")") ++ char ')') ++ blanks
    ++ group 2 (text "do" ++ wordEdge ||| char '{')

/-- A lookup of single records. -/
def perItemLookup : Pattern :=
  char '.'
    ++ (text "find" ||| text "find_by" ||| text "find_by_" ++ many1 wordChar
        ||| text "where" ||| text "pluck" ||| text "exists?")
    ++ ahead true
        (one (fun c => Text.isBlank c || c == '(' || c == '!' || c == '.')
          ||| edge .textEnd)

/-- A write of a single record. -/
def perRowWrite : Pattern :=
  char '.'
    ++ texts ["save", "create", "update", "update_attribute",
        "update_columns", "destroy", "delete"]
    ++ (char '!' ||| wordEdge)

/-- The iterations that load in batches. -/
def batchedIterations : List String :=
  ["find_each", "find_in_batches", "in_batches"]

/-- A call that loads every record. -/
def allRecords : Pattern := text ".all" ++ wordEdge ++ notAhead (char '?')

/-- A call that loads associations in advance. -/
def eagerLoading : Pattern :=
  char '.' ++ texts ["includes", "eager_load", "preload"] ++ char '('

/-- The creation of a table. -/
def tableCreation : Pattern := wordEdge ++ text "create_table" ++ wordEdge

/-- A statement that adds an index. -/
def indexStatement : Pattern :=
  wordEdge ++ text "add_index" ++ wordEdge
    ||| wordEdge ++ text "t.index" ++ wordEdge
    ||| wordEdge ++ text "index:" ++ blanks ++ text "true"

/-- An iteration: the number of its line, the method, and the text of its
    body. -/
structure Iteration where
  line : Nat
  method : String
  body : Text

/-- The last line of the iteration whose head matches on the line at an
    index.  A body in braces that closes on the same line ends there. -/
def iterationEnd (rubyLines scriptLines : List LineProfile) (index : Nat)
    (m : Match) : Except DetectorFault Nat :=
  if (m.group 2).head? == some 'd' then blockEnd rubyLines index
  else if m.after.contains '}' then .ok index
  else blockEnd scriptLines index

/-- The iteration on the line at an index, if its head is there. -/
def iterationOn (lines : List Text) (rubyLines scriptLines : List LineProfile)
    (line : Text) (index : Nat) : Except DetectorFault (Option Iteration) :=
  match iterationHead.search line with
  | none => .ok none
  | some m => do
      let last ← iterationEnd rubyLines scriptLines index m
      return some
        { line := index + 1
          method := m.name 1
          body := Text.unlines
            (m.after :: (lines.drop (index + 1)).take (last - index)) }

/-- The iterations of a file, one for each line with a head. -/
def iterations (s : Subject) : Except DetectorFault (List Iteration) := do
  let rubyLines := s.lines.map BlockMarks.ruby.profile
  let scriptLines := s.lines.map BlockMarks.script.profile
  let found ← s.lines.zipIdx.mapM fun (line, index) =>
    iterationOn s.lines rubyLines scriptLines line index
  return found.filterMap id

/-- Lookups once per item of some iterations. -/
def perItemLookups (s : Subject) (found : List Iteration) : List Finding :=
  (found.filter fun it => perItemLookup.occursIn it.body).map fun it =>
    s.findingAt .performance .warning
      s!"Potential N+1 query: per-item lookup inside .{it.method} iteration"
      "Use includes(), eager_load(), or preload() to avoid N+1 queries"
      (some it.line)

/-- A controller that loads every record and no associations. -/
def eagerLoadingMissing (s : Subject) : List Finding :=
  if s.inFolder "controllers" && !eagerLoading.occursIn s.content then
    (s.firstLine allRecords).toList.map fun line =>
      s.findingAt .performance .warning
        "Using .all without eager loading can cause N+1 query problems"
        "Consider using .includes() to eager load associations"
        (some line)
  else []

/-- Queries once per item. -/
def nPlusOne : Detector where
  name := "detect_n_plus_one"
  findings := fun s => do
    let found ← iterations s
    return perItemLookups s found ++ eagerLoadingMissing s

/-- Tables without any index. -/
def missingIndexes : Detector where
  name := "detect_missing_indexes"
  findings := fun s => .ok <|
    if indexStatement.occursIn s.content then []
    else
      (s.linesWith tableCreation).map fun line =>
        s.findingAt .performance .warning
          "Table is created without adding indexes"
          "Add indexes for foreign keys and frequently queried columns"
          (some line)

/-- Writes once per item of an iteration that does not load in batches. -/
def unbatchedWrites : Detector where
  name := "detect_unbatched_writes"
  findings := fun s => do
    let found ← iterations s
    return (found.filter fun it =>
        !batchedIterations.contains it.method
          && "each".toList.isPrefixOf it.method.toList
          && perRowWrite.occursIn it.body).map fun it =>
      s.findingAt .performance .warning
        s!"Per-row database writes inside .{it.method} can be slow for large datasets"
        "Use .find_each for batched iteration or bulk operations like insert_all/update_all"
        (some it.line)

end CodeReview.Detector
