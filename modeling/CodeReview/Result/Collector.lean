import CodeReview.Result.Aggregate

/-! # Aggregation, step by step

    The work of an aggregator as it is done: a set of the keys that were
    seen, a bucket for each category, made when its first finding comes, and
    counters that go up one by one.  An `Aggregator` is what can be told of
    this from outside. -/

namespace CodeReview

/-- What is at hand while findings are collected. -/
structure Collector where
  /-- The keys of the findings so far, as a set. -/
  seen : List Finding.Key := []
  /-- The findings of each category so far; a category comes in with its
      first finding. -/
  buckets : List (Category × List Finding) := []
  duplicates : Nat := 0
  positives : List String := []

namespace Collector

/-- Puts a finding at the end of the bucket of its category, which is made
    if there is none. -/
def place (f : Finding) : List (Category × List Finding) →
    List (Category × List Finding)
  | [] => [(f.category, [f])]
  | (category, bucket) :: rest =>
      if category = f.category then (category, bucket ++ [f]) :: rest
      else (category, bucket) :: place f rest

/-- Adds a finding, and counts it if it is new. -/
def addOne : Collector × Nat → Finding → Collector × Nat
  | (c, added), f =>
      if c.seen.contains f.key then
        ({ c with duplicates := c.duplicates + 1 }, added)
      else
        ({ c with seen := f.key :: c.seen, buckets := place f c.buckets },
          added + 1)

/-- Adds the findings of a file, and counts those that are new. -/
def addFile (c : Collector) (findings : List Finding) : Collector × Nat :=
  findings.foldl addOne (c, 0)

/-- The findings of a category so far. -/
def bucket (c : Collector) (category : Category) : List Finding :=
  (c.buckets.lookup category).getD []

/-- Whether there is a finding of one of some categories. -/
def hasCategory (c : Collector) (categories : List Category) : Bool :=
  categories.any fun category => !(c.bucket category).isEmpty

/-- Sets the observations, each once. -/
def setPositives (c : Collector) (notes : List String) : Collector :=
  { c with positives := notes.eraseDups }

/-- Adds one to the count of a severity. -/
def countOne (counts : List (Severity × Int)) (f : Finding) :
    List (Severity × Int) :=
  counts.map fun (severity, n) =>
    (severity, if severity = f.severity then n + 1 else n)

/-- The buckets that are not empty, in the order of the categories, each by
    severity. -/
def sortedBuckets (c : Collector) : List (Category × List Finding) :=
  Category.all.filterMap fun category =>
    match c.bucket category with
    | [] => none
    | bucket => some (category, Aggregator.sortBySeverity bucket)

/-- The result so far; the severities are counted bucket by bucket. -/
def freeze (c : Collector) : ReviewResult where
  findings := c.sortedBuckets
  counts :=
    c.sortedBuckets.foldl (fun counts entry => entry.2.foldl countOne counts)
      ReviewResult.zeroCounts
  positives := c.positives

/-- What is logged when the result is taken. -/
def freezeLog (c : Collector) : List LogEntry :=
  if c.duplicates = 0 then []
  else [⟨.debug, s!"Dropped {c.duplicates} duplicate finding(s)"⟩]

end Collector

end CodeReview
