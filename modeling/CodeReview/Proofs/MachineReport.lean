import CodeReview.Proofs.Frozen
import CodeReview.Report.Machine

/-! # Reading the machine-readable report

    The report drops the severity of a finding and lists findings severity
    by severity.  The readers below take it apart again.  For a frozen
    result the numbers fit the lists, and adding all that is listed, each
    with the severity of its list, to a new aggregator gives the buckets and
    the counts of the result back: the lists rearrange the findings but
    leave each class of them in order. -/

namespace CodeReview

open Finding Aggregator

/-! ## Readers -/

namespace Json

/-- The text that a value is. -/
def text? : Json → Option String
  | str s => some s
  | _ => none

/-- The integer that a value is. -/
def integer? : Json → Option Int
  | int n => some n
  | _ => none

/-- The items of an array. -/
def items? : Json → Option (List Json)
  | arr items => some items
  | _ => none

/-- A line number, or null for none. -/
def line? : Json → Option (Option Nat)
  | null => some none
  | int (.ofNat n) => some (some n)
  | _ => none

end Json

namespace Report

/-- The finding that an issue in the list of a severity stands for. -/
def readIssue? (severity : Severity) (issue : Json) : Option Finding := do
  let file ← (← issue.member? "file").text?
  let line ← (← issue.member? "line").line?
  let category ← Category.ofName? (← (← issue.member? "category").text?)
  let message ← (← issue.member? "message").text?
  let suggestion ← (← issue.member? "suggestion").text?
  return ⟨file, line, category, severity, message, suggestion⟩

/-- A number of the summary. -/
def readNumber? (report : Json) (name : String) : Option Int := do
  let summary ← report.member? "summary"
  (← summary.member? name).integer?

/-- The issues in the list of a severity. -/
def readList? (report : Json) (severity : Severity) : Option (List Json) := do
  let lists ← report.member? "issues"
  (← lists.member? (listName severity)).items?

/-- An issue tells all of its finding but the severity. -/
theorem readIssue?_issue (f : Finding) :
    readIssue? f.severity (issue f) = some f := by
  have hline : (Json.ofOption .ofNat f.line).line? = some f.line := by
    cases f.line with
    | none => rfl
    | some line => rfl
  show (do
    let line ← (Json.ofOption .ofNat f.line).line?
    let category ← Category.ofName? f.category.name
    some (Finding.mk f.file line category f.severity f.message f.suggestion))
      = some f
  rw [hline, Category.ofName?_name]
  rfl

/-- The findings of one severity are read back from their issues; the list
    they stand in says the severity. -/
theorem mapM_readIssue? {severity : Severity} {findings : List Finding}
    (h : ∀ f ∈ findings, f.severity = severity) :
    (findings.map issue).mapM (readIssue? severity) = some findings := by
  induction findings with
  | nil => rfl
  | cons f rest ih =>
      rw [List.forall_mem_cons] at h
      rw [List.map_cons, List.mapM_cons, ih h.2, ← h.1, readIssue?_issue]
      rfl

end Report

/-! ## Frozen results -/

/-- Findings taken severity by severity agree with the whole, class by
    class. -/
theorem ReviewResult.sameClasses_bySeverity (r : ReviewResult) :
    SameClasses (r.bySeverity .critical ++ r.bySeverity .warning
      ++ r.bySeverity .suggestion) r.allFindings := by
  intro category severity
  -- only the list of its own severity holds findings of a class
  have hlist (listed : Severity) :
      (r.bySeverity listed).filter (isIn category severity)
        = if listed = severity then r.allFindings.filter (isIn category severity)
          else [] := by
    rw [ReviewResult.bySeverity, List.filter_filter]
    split
    · rename_i heq
      refine List.filter_congr ?_
      intro f _
      simp [isIn, heq]
    · rename_i hne
      refine List.filter_eq_nil_iff.mpr ?_
      intro f _ hboth
      simp only [isIn, Bool.and_eq_true, decide_eq_true_eq] at hboth
      exact hne (hboth.2.symm.trans hboth.1.2)
  rw [List.filter_append, List.filter_append, hlist, hlist, hlist]
  cases severity with
  | critical => simp
  | warning => simp
  | suggestion => simp

namespace Aggregator

/-- A frozen result has a count for every severity. -/
theorem count?_freeze (a : Aggregator) (severity : Severity) :
    a.freeze.count? severity = some (ReviewResult.number a.kept severity) := by
  rw [freeze_eq]
  cases severity with
  | critical => rfl
  | warning => rfl
  | suggestion => rfl

/-- The count of a severity is the length of its list. -/
theorem length_bySeverity_freeze (a : Aggregator) (severity : Severity) :
    ((a.freeze.bySeverity severity).length : Int)
      = ReviewResult.number a.kept severity := by
  have hperm := (sameClasses_freeze a).perm.filter (·.severity = severity)
  exact congrArg Nat.cast hperm.length_eq

end Aggregator

namespace Report

/-- The report on a frozen result. -/
theorem machineValue_freeze (a : Aggregator) :
    machineValue a.freeze = .ok (.obj
      [("summary", .obj
          [("total", .int a.freeze.total),
           ("critical", .int (ReviewResult.number a.kept .critical)),
           ("warnings", .int (ReviewResult.number a.kept .warning)),
           ("suggestions", .int (ReviewResult.number a.kept .suggestion))]),
       ("issues", issues a.freeze)]) := by
  simp only [machineValue, countOf, count?_freeze]
  rfl

/-- The number of each severity is read back from the report. -/
theorem readNumber?_freeze {a : Aggregator} {report : Json}
    (h : machineValue a.freeze = .ok report) (severity : Severity) :
    readNumber? report (listName severity)
      = some (ReviewResult.number a.kept severity) := by
  rw [machineValue_freeze] at h
  cases h
  cases severity with
  | critical => rfl
  | warning => rfl
  | suggestion => rfl

/-- The total is read back from the report. -/
theorem readNumber?_total_freeze {a : Aggregator} {report : Json}
    (h : machineValue a.freeze = .ok report) :
    readNumber? report "total" = some a.freeze.total := by
  rw [machineValue_freeze] at h
  cases h
  rfl

/-- The list of each severity is read back from the report. -/
theorem readList?_freeze {a : Aggregator} {report : Json}
    (h : machineValue a.freeze = .ok report) (severity : Severity) :
    readList? report severity
      = some ((a.freeze.bySeverity severity).map issue) := by
  rw [machineValue_freeze] at h
  cases h
  cases severity with
  | critical => rfl
  | warning => rfl
  | suggestion => rfl

/-- What is listed, taken up by a new aggregator. -/
theorem rebuilt_freeze {a : Aggregator} (ha : a.Sound) :
    let listed := a.freeze.bySeverity .critical ++ a.freeze.bySeverity .warning
      ++ a.freeze.bySeverity .suggestion
    let rebuilt := (({} : Aggregator).add listed).freeze
    rebuilt.findings = a.freeze.findings
      ∧ rebuilt.counts = a.freeze.counts := by
  intro listed rebuilt
  have hsame : SameClasses listed a.kept :=
    a.freeze.sameClasses_bySeverity.trans (sameClasses_freeze a)
  -- no key is listed twice, so all that is listed is kept
  have hkept : (({} : Aggregator).add listed).kept = listed := by
    rw [kept_add_empty, distinct_eq_self (hsame.nodup_keys ha.nodup_keys)]
  constructor
  · show buckets (({} : Aggregator).add listed).kept = buckets a.kept
    rw [hkept, buckets_congr hsame]
  · show countSeverities (({} : Aggregator).add listed).kept
      = countSeverities a.kept
    rw [hkept, countSeverities_congr hsame]

/-- **NOTHING IS LOST**: a frozen result has a report, whose numbers add up
    and fit its lists; what is listed, taken up by a new aggregator, gives
    the result back. -/
theorem machineValue_lossless (actions : List Action) :
    let r := (ofActions actions).freeze
    ∃ report, machineValue r = .ok report
      ∧ ∃ (number : Severity → Int) (listed : Severity → List Finding),
        readNumber? report "total"
            = some (number .critical + number .warning + number .suggestion)
        ∧ (∀ severity,
          readNumber? report (listName severity) = some (number severity)
            ∧ ∃ items, readList? report severity = some items
              ∧ number severity = items.length
              ∧ items.mapM (readIssue? severity) = some (listed severity))
        ∧ let rebuilt := (({} : Aggregator).add (listed .critical
            ++ listed .warning ++ listed .suggestion)).freeze
          rebuilt.findings = r.findings ∧ rebuilt.counts = r.counts := by
  intro r
  have hreport := machineValue_freeze (ofActions actions)
  -- what is read back are the numbers of what was kept, and the lists
  -- severity by severity
  refine ⟨_, hreport, ReviewResult.number (ofActions actions).kept,
    r.bySeverity, ?_, ?_, rebuilt_freeze (sound_ofActions actions)⟩
  · rw [readNumber?_total_freeze hreport, total_freeze, length_eq_numbers]
  · intro severity
    refine ⟨readNumber?_freeze hreport severity, _,
      readList?_freeze hreport severity, ?_, ?_⟩
    · rw [List.length_map]
      exact (length_bySeverity_freeze _ severity).symm
    · refine mapM_readIssue? ?_
      intro f hf
      exact of_decide_eq_true (List.mem_filter.mp hf).2

end Report

end CodeReview
