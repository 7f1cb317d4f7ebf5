import CodeReview.Result.Basic
import CodeReview.Validation

/-! # Checking results

    A result from outside: counts are taken as they are given and need not
    fit the findings. -/

namespace CodeReview.Check

/-- A result. -/
def result (record : Json) : Checked ReviewResult :=
  match record with
  | .obj _ =>
      ReviewResult.mk
        <$> optional record "findings_by_category" []
              (mapping category (tuple finding))
        <*> optional record "counts_by_severity" ReviewResult.zeroCounts
              (mapping severity integer)
        <*> optional record "positives" [] (tuple string)
  | _ => .fault (.recordType "ReviewResult")

end CodeReview.Check
