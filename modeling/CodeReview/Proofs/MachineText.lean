import CodeReview.Proofs.JsonReading

/-! # The text of the machine-readable report

    The text of a report is read back as the report, whatever characters
    its texts hold.  The one thing that can keep it from being written is a
    number of too many digits, so the numbers of a report are told first:
    the total, the number of each severity, and the lines of the findings
    (`mem_integers_machineValue`). -/

namespace CodeReview.Report

/-! ## What a report holds -/

/-- A report with some numbers of the severities. -/
def report (r : ReviewResult) (number : Severity → Int) : Json :=
  .obj
    [("summary", .obj
        [("total", .int r.total), ("critical", .int (number .critical)),
         ("warnings", .int (number .warning)),
         ("suggestions", .int (number .suggestion))]),
     ("issues", issues r)]

/-- A result with a count for every severity has a report, and its counts
    are in it. -/
theorem machineValue_of_counts {r : ReviewResult} {number : Severity → Int}
    (h : ∀ severity, r.count? severity = some (number severity)) :
    machineValue r = .ok (report r number) := by
  simp only [machineValue, countOf, h]
  rfl

/-- A finding is written exactly: its texts are texts, and its line is an
    integer or missing. -/
theorem exact_issue (f : Finding) : (issue f).Exact := by
  refine .obj ?_
  have hline : (Json.ofOption .ofNat f.line).Exact := by
    cases f.line with
    | none => exact .null
    | some line => exact .int line
  simp [hline, Json.Exact.str]

/-- The findings of all categories are written exactly. -/
theorem exact_issues (r : ReviewResult) : (issues r).Exact := by
  refine .obj ?_
  intro m hm
  obtain ⟨severity, _, rfl⟩ := List.mem_map.mp hm
  refine .arr ?_
  intro item hitem
  obtain ⟨f, _, rfl⟩ := List.mem_map.mp hitem
  exact exact_issue f

/-- All numbers of a report are integers. -/
theorem exact_report (r : ReviewResult) (number : Severity → Int) :
    (report r number).Exact := by
  have hsummary : (Json.obj [("total", .int r.total),
      ("critical", .int (number .critical)),
      ("warnings", .int (number .warning)),
      ("suggestions", .int (number .suggestion))]).Exact := by
    refine .obj ?_
    simp [Json.Exact.int]
  refine .obj ?_
  simp [hsummary, exact_issues r]

/-! ## The numbers of a report -/

/-- The numbers that a report tells: the total, the number of each
    severity, and the lines of the findings. -/
def numbers (r : ReviewResult) : List Int :=
  r.total :: (Severity.all.filterMap r.count?
    ++ r.allFindings.filterMap fun f => f.line.map Int.ofNat)

/-- The only number in a finding is its line. -/
theorem integers_issue (f : Finding) :
    (issue f).integers = (f.line.map Int.ofNat).toList := by
  obtain ⟨file, line, category, severity, message, suggestion⟩ := f
  cases line with
  | none => rfl
  | some line => rfl

/-- The numbers in a list of findings are their lines. -/
theorem integersOfItems_issues (findings : List Finding) :
    Json.integersOfItems (findings.map issue)
      = findings.filterMap fun f => f.line.map Int.ofNat := by
  induction findings with
  | nil => rfl
  | cons f findings ih =>
      rw [List.map_cons, Json.integersOfItems, integers_issue, ih,
        List.filterMap_cons]
      cases f.line with
      | none => rfl
      | some line => rfl

/-- The lists tell the lines of all findings, severity by severity. -/
theorem mem_integers_issues (r : ReviewResult) (n : Int) :
    n ∈ (issues r).integers
      ↔ n ∈ r.allFindings.filterMap fun f => f.line.map Int.ofNat := by
  have hlists : (issues r).integers
      = Severity.all.flatMap fun severity =>
        (r.bySeverity severity).filterMap fun f => f.line.map Int.ofNat := by
    simp [issues, Json.integers, Json.integersOfMembers, Severity.all,
      integersOfItems_issues]
  rw [hlists, List.mem_flatMap, List.mem_filterMap]
  constructor
  · rintro ⟨severity, _, hn⟩
    obtain ⟨f, hf, hline⟩ := List.mem_filterMap.mp hn
    exact ⟨f, (List.mem_filter.mp hf).1, hline⟩
  · rintro ⟨f, hf, hline⟩
    refine ⟨f.severity, Severity.mem_all f.severity, ?_⟩
    refine List.mem_filterMap.mpr ⟨f, List.mem_filter.mpr ⟨hf, ?_⟩, hline⟩
    exact decide_eq_true rfl

/-- The numbers in a report are the counts, the total and the lines. -/
theorem mem_integers_report {r : ReviewResult} {number : Severity → Int}
    (h : ∀ severity, r.count? severity = some (number severity)) (n : Int) :
    n ∈ (report r number).integers ↔ n ∈ numbers r := by
  have hnumbers : numbers r = r.total :: ([number .critical, number .warning,
      number .suggestion]
      ++ r.allFindings.filterMap fun f => f.line.map Int.ofNat) := by
    simp [numbers, Severity.all, h]
  have hreport : (report r number).integers = r.total
      :: ([number .critical, number .warning, number .suggestion]
        ++ (issues r).integers) := by
    simp [report, Json.integers, Json.integersOfMembers]
  rw [hnumbers, hreport, List.mem_cons, List.mem_cons, List.mem_append,
    List.mem_append, mem_integers_issues]

/-! ## The text of a report -/

/-- A report is written unless one of its numbers is too long. -/
theorem machine_eq_if {r : ReviewResult} {value : Json}
    (h : machineValue r = .ok value) :
    machine r = if value.integers.any Text.isLong
      then .error .numberTooLong else .ok (value.render .report) := by
  rw [machine, h]
  rfl

/-- A number that is too long makes the report fail. -/
theorem machine_of_isLong {r : ReviewResult} {number : Severity → Int}
    (h : ∀ severity, r.count? severity = some (number severity)) {n : Int}
    (hn : n ∈ numbers r) (hlong : Text.isLong n = true) :
    machine r = .error .numberTooLong := by
  have hany : (report r number).integers.any Text.isLong = true :=
    List.any_eq_true.mpr ⟨n, (mem_integers_report h n).mpr hn, hlong⟩
  rw [machine_eq_if (machineValue_of_counts h), hany]
  rfl

/-- A report whose numbers are all short enough is written. -/
theorem machine_of_short {r : ReviewResult} {number : Severity → Int}
    (h : ∀ severity, r.count? severity = some (number severity))
    (hshort : ∀ n ∈ numbers r, Text.isLong n = false) :
    machine r = .ok ((report r number).render .report) := by
  have hany : (report r number).integers.any Text.isLong = false := by
    refine List.any_eq_false.mpr ?_
    intro n hn
    rw [hshort n ((mem_integers_report h n).mp hn)]
    exact Bool.false_ne_true
  rw [machine_eq_if (machineValue_of_counts h), hany]
  rfl

/-- **THE TEXT IS THE REPORT**: where each severity has a number, there is a
    report, and its text is read back as that report, whatever its texts
    hold and its numbers are, so long as none of these has too many digits;
    with such a number there is no text. -/
theorem machine_reads_back (r : ReviewResult)
    (h : ∀ severity, ∃ n, r.count? severity = some n) :
    ∃ value, machineValue r = .ok value
      ∧ ((∀ n ∈ numbers r, Text.isLong n = false) →
        ∃ text, machine r = .ok text ∧ Json.read? text = some value)
      ∧ ((∃ n ∈ numbers r, Text.isLong n = true) →
        machine r = .error .numberTooLong) := by
  obtain ⟨number, hnumber⟩ := Classical.axiomOfChoice h
  refine ⟨report r number, machineValue_of_counts hnumber, ?_, ?_⟩
  · intro hshort
    exact ⟨_, machine_of_short hnumber hshort,
      Json.read?_render (exact_report r number)⟩
  · rintro ⟨n, hn, hlong⟩
    exact machine_of_isLong hnumber hn hlong

/-- A result with quotes, backslashes, control characters and characters
    beyond ASCII in its texts, and numbers that do not fit its findings. -/
def quotedResult : ReviewResult :=
  ⟨[(.security, [⟨"app/\"a\\b\".rb", some 7, .security, .critical,
      "tab\tbell\x07\nend\x7f", "naïve → 🤖 \x7b[,:]\x7d"⟩])],
    [(.critical, -12), (.warning, 340), (.suggestion, 0)], []⟩

/-- A result with quotes, control characters and other scripts in its texts
    is read back. -/
theorem machine_quotedResult_reads_back :
    (∀ n ∈ numbers quotedResult, Text.isLong n = false)
      ∧ ∃ value text, machineValue quotedResult = .ok value
        ∧ machine quotedResult = .ok text ∧ Json.read? text = some value := by
  have hshort : ∀ n ∈ numbers quotedResult, Text.isLong n = false := by
    decide
  obtain ⟨value, hvalue, hread, _⟩ := machine_reads_back quotedResult (by
    intro severity
    cases severity with
    | critical => exact ⟨-12, rfl⟩
    | warning => exact ⟨340, rfl⟩
    | suggestion => exact ⟨0, rfl⟩)
  obtain ⟨text, htext, hback⟩ := hread hshort
  exact ⟨hshort, value, text, hvalue, htext, hback⟩

/-- A result whose numbers have no more digits than allowed, but whose total
    has. -/
def wideResult : ReviewResult :=
  ⟨[], [(.critical, (Nat.pow 10 Text.maxDigits : Int) - 1), (.warning, 1),
    (.suggestion, 0)], []⟩

/-- The total of the wide result has one digit more than may be written. -/
theorem total_wideResult :
    wideResult.total = (Nat.pow 10 Text.maxDigits : Int) := by
  show (Nat.pow 10 Text.maxDigits : Int) - 1 + (1 + (0 + 0)) = _
  omega

/-- A number is too long if it is not below the power of ten. -/
theorem isLong_natCast_iff (n : Nat) :
    Text.isLong n = true ↔ Nat.pow 10 Text.maxDigits ≤ n := by
  rw [Text.isLong, decide_eq_true_iff, Int.natAbs_natCast, ← Nat.not_le,
    Nat.length_toDigits_le_iff (by decide) (by decide), Nat.not_lt, Nat.pow_eq]

/-- A result with a number for each severity need not have a text. -/
theorem machine_wideResult :
    (∀ severity, ∃ n, wideResult.count? severity = some n)
      ∧ ∃ value, machineValue wideResult = .ok value
        ∧ ¬ ∃ text, machine wideResult = .ok text
          ∧ Json.read? text = some value := by
  have hcounts : ∀ severity, ∃ n, wideResult.count? severity = some n := by
    intro severity
    cases severity with
    | critical => exact ⟨_, rfl⟩
    | warning => exact ⟨_, rfl⟩
    | suggestion => exact ⟨_, rfl⟩
  obtain ⟨number, hnumber⟩ := Classical.axiomOfChoice hcounts
  have hlong : machine wideResult = .error .numberTooLong := by
    refine machine_of_isLong hnumber (n := wideResult.total)
      List.mem_cons_self ?_
    rw [total_wideResult]
    exact (isLong_natCast_iff _).mpr (Nat.le_refl _)
  refine ⟨hcounts, report wideResult number, machineValue_of_counts hnumber, ?_⟩
  rintro ⟨text, htext, _⟩
  rw [hlong] at htext
  exact nomatch htext

end CodeReview.Report
