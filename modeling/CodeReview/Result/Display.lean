import CodeReview.Result.Basic

/-! # Display

    The view of a result that a report shows: the findings of a category
    and severity up to a limit, and how many more there are. -/

namespace CodeReview

/-- The findings of one category and severity that are shown, and the
    number of those that are not. -/
structure DisplaySection where
  category : Category
  severity : Severity
  shown : List Finding
  hidden : Nat
deriving DecidableEq, Repr

namespace DisplaySection

/-- The number of findings shown unless said otherwise. -/
def defaultLimit : Int := 5

/-- How many of a number of items a limit leaves; a negative limit takes
    that many from the end. -/
def limited (number : Nat) (limit : Int) : Nat :=
  if limit < 0 then (number + limit).toNat else min number limit.toNat

/-- The section of a category and severity, if it has findings. -/
def of? (r : ReviewResult) (limit : Int) (category : Category)
    (severity : Severity) : Option DisplaySection :=
  match (r.bucket category).filter (·.severity = severity) with
  | [] => none
  | found =>
      let count := limited found.length limit
      some ⟨category, severity, found.take count, found.length - count⟩

/-- The sections of a category. -/
def ofCategory (r : ReviewResult) (limit : Int) (category : Category) :
    List DisplaySection :=
  Severity.all.filterMap (of? r limit category)

/-- The sections of a result, category by category, the most severe
    first. -/
def all (r : ReviewResult) (limit : Int) : List DisplaySection :=
  Category.all.flatMap (ofCategory r limit)

end DisplaySection

end CodeReview
