import CodeReview.Proofs.DiffLines
import CodeReview.Proofs.MachineReport
import CodeReview.Proofs.MachineText
import CodeReview.Proofs.Sections
import CodeReview.Report.Markdown

/-! # What a report tells about its findings

    A reader of the report finds out about the findings from two kinds of
    lines: the headings, each with a number and the line below it, and the
    lines that tell how many more there are.  `Notice.read` reads both, and
    passes over every other line.  Read back, the lines on some sections
    announce what the sections show, numbered through, and behind each
    section what it hides (`read_sectionLines`); so what a whole report
    tells accounts for every finding (`sum_findings_read`). -/

namespace CodeReview.Report

open DiffLine

/-! ## Reading a report -/

/-- What a report tells about its findings: one of them, by its heading and
    the line below, or the number of those that are left out. -/
inductive Notice where
  | finding (number : Nat) (title : Text) (body : String)
  | more (number : Nat) (kind : Text)
deriving DecidableEq, Repr

namespace Notice

/-- What a heading starts with. -/
def headingMark : String := "### "

/-- What a line on hidden findings starts with. -/
def hiddenMark : String := "*... and "

/-- The number that a line tells behind a mark, and what follows it. -/
def numberBehind? (mark line : String) : Option (Nat × Text) := do
  let (digits, rest) ← digits? (← after? mark line.toList)
  let number ← Text.numeral? digits
  return (number, rest)

/-- What the lines of a report tell about findings, in order. -/
def read : List String → List Notice
  | [] => []
  | line :: rest =>
      match numberBehind? headingMark line, numberBehind? hiddenMark line with
      | some (number, title), _ =>
          finding number title (rest.headD "") :: read rest
      | none, some (number, kind) => more number kind :: read rest
      | none, none => read rest

/-- The number of a heading. -/
def number? : Notice → Option Nat
  | finding number _ _ => some number
  | more _ _ => none

/-- A notice without the number of its heading. -/
def unnumbered : Notice → Notice
  | finding _ title body => finding 0 title body
  | more number kind => more number kind

/-- How many findings a notice is about. -/
def findings : Notice → Nat
  | finding _ _ _ => 1
  | more number _ => number

/-- What a heading tells behind its number. -/
def titleOf (f : Finding) : String := s!". {label f.severity} in `{f.file}`"

/-- The line below a heading. -/
def bodyOf (f : Finding) : String := s!"{location f} {f.message}"

/-- The notice of a finding. -/
def ofFinding (number : Nat) (f : Finding) : Notice :=
  finding number (titleOf f).toList (bodyOf f)

/-- What a line on hidden findings tells behind their number. -/
def kindOf (s : DisplaySection) : String := s!" more {s.severity.name}(s)*"

/-- The notice of the findings that a section hides, if there are any. -/
def ofHidden (s : DisplaySection) : List Notice :=
  if 0 < s.hidden then [more s.hidden (kindOf s).toList] else []

/-- The notices of a section whose findings are numbered from a number
    on. -/
def ofSection (number : Nat) (s : DisplaySection) : List Notice :=
  (s.shown.zipIdx number).map (fun entry => ofFinding entry.2 entry.1)
    ++ ofHidden s

/-- The notices of sections that are numbered through. -/
def ofSections (number : Nat) : List DisplaySection → List Notice
  | [] => []
  | s :: rest => ofSection number s ++ ofSections (number + s.shown.length) rest

/-! ## Lines that tell nothing -/

/-- Whether a line has neither mark. -/
def isPlain (line : String) : Bool :=
  (after? headingMark line.toList).isNone
    && (after? hiddenMark line.toList).isNone

/-- A line with neither mark tells nothing. -/
theorem read_cons_of_isPlain {line : String} (h : isPlain line = true)
    (rest : List String) : read (line :: rest) = read rest := by
  rw [isPlain, Bool.and_eq_true, Option.isNone_iff_eq_none,
    Option.isNone_iff_eq_none] at h
  have hheading : numberBehind? headingMark line = none := by
    rw [numberBehind?, h.1]
    rfl
  have hhidden : numberBehind? hiddenMark line = none := by
    rw [numberBehind?, h.2]
    rfl
  rw [read, hheading, hhidden]

/-- Lines without marks tell nothing. -/
theorem read_append_of_all_isPlain {lines : List String}
    (h : lines.all isPlain = true) (rest : List String) :
    read (lines ++ rest) = read rest := by
  induction lines with
  | nil => rfl
  | cons line lines ih =>
      rw [List.all_cons, Bool.and_eq_true] at h
      rw [List.cons_append, read_cons_of_isPlain h.1, ih h.2]

/-- Whether what starts so has neither mark, whatever follows: neither mark
    begins with the start, nor the start with a mark. -/
def settles (start : String) : Bool :=
  [headingMark, hiddenMark].all fun mark =>
    !mark.toList.isPrefixOf start.toList && !start.toList.isPrefixOf mark.toList

/-- A line that starts without a mark has none, whatever is printed behind
    its start. -/
theorem isPlain_append (start : String) (h : settles start = true)
    (rest : String) : isPlain (start ++ rest) = true := by
  have hnone : ∀ mark ∈ [headingMark, hiddenMark],
      after? mark (start ++ rest).toList = none := by
    intro mark hmark
    have hapart := List.all_eq_true.mp h mark hmark
    simp only [Bool.and_eq_true, Bool.not_eq_true', ← Bool.not_eq_true,
      List.isPrefixOf_iff_prefix] at hapart
    refine Option.eq_none_iff_forall_ne_some.mpr ?_
    intro behind hbehind
    rw [after?, String.toList_append,
      List.isPrefixOf?_eq_some_iff_append_eq] at hbehind
    -- of two starts of one text, one starts with the other
    rcases List.prefix_or_prefix_of_prefix ⟨behind, hbehind⟩
      (List.prefix_append start.toList rest.toList) with hmark | hstart
    · exact hapart.1 hmark
    · exact hapart.2 hstart
  rw [isPlain, hnone headingMark (by simp), hnone hiddenMark (by simp)]
  rfl

private theorem toString_string (s : String) : toString s = s := rfl

/-- The line below a heading starts with its location, so a message that
    looks like a heading is not read as one. -/
theorem isPlain_bodyOf (f : Finding) : isPlain (bodyOf f) = true := by
  rw [bodyOf, location]
  split
  · simp only [toString_string, String.append_assoc]
    exact isPlain_append "**Line " (by decide) _
  · exact isPlain_append "**File:** " (by decide) f.message

/-- The line of a suggestion starts with its own words, whatever the
    suggestion says. -/
theorem isPlain_suggestion (f : Finding) :
    isPlain s!"**Suggestion:** {f.suggestion}" = true :=
  isPlain_append "**Suggestion:** " (by decide) f.suggestion

/-- The heading of a category has one sign less than that of a finding. -/
theorem isPlain_categoryHeading (category : Category) :
    isPlain s!"## {heading category}" = true :=
  isPlain_append "## " (by decide) (heading category)

/-- The section of positive observations tells nothing about findings. -/
theorem all_isPlain_positiveLines (r : ReviewResult) :
    (positiveLines r).all isPlain = true := by
  rw [positiveLines]
  split
  · rfl
  · have hnotes (notes : List String) :
        (notes.map fun note => s!"- {note}").all isPlain = true := by
      refine List.all_eq_true.mpr ?_
      intro line hline
      obtain ⟨note, _, rfl⟩ := List.mem_map.mp hline
      exact isPlain_append "- " (by decide) note
    rw [List.all_append, List.all_append, hnotes]
    decide

/-- The summary tells nothing about single findings. -/
theorem all_isPlain_summaryLines (r : ReviewResult) :
    (summaryLines r).all isPlain = true := by
  rw [summaryLines]
  split
  · rfl
  · cases r.isFailing with
    | true => decide
    | false => decide

/-! ## Lines on findings -/

/-- A number behind a mark is read up to what is no digit. -/
theorem numberBehind?_append (mark : String) (number : Nat) {title : String}
    {c : Char} {rest : Text} (htitle : title.toList = c :: rest)
    (hc : Text.isDecimal c = false) :
    numberBehind? mark (mark ++ toString number ++ title)
      = some (number, title.toList) := by
  have hafter : after? mark (mark ++ toString number ++ title).toList
      = some (Nat.toDigits 10 number ++ c :: rest) := by
    rw [after?, String.toList_append, String.toList_append, htitle,
      List.append_assoc, List.isPrefixOf?_eq_some_iff_append_eq,
      ← Nat.toList_repr]
    rfl
  rw [numberBehind?, hafter, htitle]
  simp only [Option.bind_eq_bind, Option.bind_some, digits?_toDigits number hc,
    Text.numeral?_toDigits]
  rfl

/-- The lines of a finding tell its one notice. -/
theorem read_findingLines (number : Nat) (f : Finding) (rest : List String) :
    read (findingLines number f ++ rest) = ofFinding number f :: read rest := by
  have hheading : numberBehind? headingMark
      s!"### {number}. {label f.severity} in `{f.file}`"
        = some (number, (titleOf f).toList) := by
    have htitle : (titleOf f).toList
        = '.' :: (s!" {label f.severity} in `{f.file}`").toList := by
      simp [titleOf, toString_string]
    have hnumber :=
      numberBehind?_append headingMark number htitle (by decide)
    simpa [headingMark, titleOf, toString_string, String.append_assoc]
      using hnumber
  have hplain : ([bodyOf f, ""] ++ if f.suggestion.isEmpty then []
      else [s!"**Suggestion:** {f.suggestion}", ""]).all isPlain = true := by
    have hempty : isPlain "" = true := by decide
    split
    · simp [isPlain_bodyOf, hempty]
    · simp [isPlain_bodyOf, isPlain_suggestion, hempty]
  have hrest := read_append_of_all_isPlain hplain rest
  rw [findingLines, List.cons_append, List.cons_append, read, hheading]
  exact congrArg _ hrest

/-- The lines of numbered findings tell their notices, numbered in the same
    way. -/
theorem read_numberedLines (findings : List Finding) :
    ∀ (number : Nat) (rest : List String),
      read (numberedLines number findings ++ rest)
        = (findings.zipIdx number).map (fun entry =>
            ofFinding entry.2 entry.1) ++ read rest := by
  induction findings with
  | nil =>
      intro number rest
      rfl
  | cons f findings ih =>
      intro number rest
      rw [numberedLines, List.append_assoc, read_findingLines, ih,
        List.zipIdx_cons, List.map_cons, List.cons_append]

/-- The line on hidden findings tells how many there are, and is missing if
    there are none. -/
theorem read_hiddenLines (s : DisplaySection) (rest : List String) :
    read (hiddenLines s ++ rest) = ofHidden s ++ read rest := by
  have hnumber : numberBehind? hiddenMark
      s!"*... and {s.hidden} more {s.severity.name}(s)*"
        = some (s.hidden, (kindOf s).toList) := by
    have hkind : (kindOf s).toList
        = ' ' :: (s!"more {s.severity.name}(s)*").toList := by
      simp [kindOf, toString_string]
    have hnumber :=
      numberBehind?_append hiddenMark s.hidden hkind (by decide)
    simpa [hiddenMark, kindOf, toString_string, String.append_assoc]
      using hnumber
  have hheading : numberBehind? headingMark
      s!"*... and {s.hidden} more {s.severity.name}(s)*" = none := by
    simp [numberBehind?, headingMark, after?, List.isPrefixOf?, toString_string]
  rw [hiddenLines, ofHidden]
  split
  · rename_i hzero
    rw [if_neg (by omega)]
    rfl
  · rw [if_pos (by omega), List.cons_append, read, hheading, hnumber]
    rfl

/-- **LINES ON SECTIONS**: read back, they announce what each section shows,
    numbered through, and what it hides. -/
theorem read_sectionLines (sections : List DisplaySection) :
    ∀ (number : Nat) (rest : List String),
      read (sectionLines number sections ++ rest)
        = ofSections number sections ++ read rest := by
  induction sections with
  | nil =>
      intro number rest
      rfl
  | cons s sections ih =>
      intro number rest
      rw [sectionLines, List.append_assoc, List.append_assoc,
        read_numberedLines, read_hiddenLines, ih, ofSections, ofSection,
        List.append_assoc, List.append_assoc]

/-- The lines of a category tell the notices of its sections, which start
    again from one. -/
theorem read_categoryLines_append (r : ReviewResult) (limit : Int)
    (category : Category) (rest : List String) :
    read (categoryLines r limit category ++ rest)
      = ofSections 1 (DisplaySection.ofCategory r limit category)
        ++ read rest := by
  rw [categoryLines]
  split
  · rename_i hnil
    rw [hnil]
    rfl
  · have hplain : [s!"## {heading category}", ""].all isPlain = true := by
      rw [List.all_cons, isPlain_categoryHeading]
      decide
    rw [List.append_assoc, read_append_of_all_isPlain hplain,
      read_sectionLines]

/-- The lines of a category on their own tell the notices of its
    sections. -/
theorem read_categoryLines (r : ReviewResult) (limit : Int)
    (category : Category) :
    read (categoryLines r limit category)
      = ofSections 1 (DisplaySection.ofCategory r limit category) := by
  have hread := read_categoryLines_append r limit category []
  rwa [List.append_nil, read, List.append_nil] at hread

/-- Each category is read on its own. -/
theorem read_flatMap_categoryLines (r : ReviewResult) (limit : Int)
    (categories : List Category) (rest : List String) :
    read (categories.flatMap (categoryLines r limit) ++ rest)
      = (categories.flatMap fun category =>
          read (categoryLines r limit category)) ++ read rest := by
  induction categories with
  | nil => rfl
  | cons category categories ih =>
      rw [List.flatMap_cons, List.flatMap_cons, List.append_assoc,
        read_categoryLines_append, ih, read_categoryLines, List.append_assoc]

/-! ## What sections announce -/

/-- The headings of a section are numbered without gaps. -/
theorem filterMap_number?_ofSection (number : Nat) (s : DisplaySection) :
    (ofSection number s).filterMap number?
      = List.range' number s.shown.length := by
  have hshown (findings : List Finding) :
      ((findings.zipIdx number).map fun entry =>
          ofFinding entry.2 entry.1).filterMap number?
        = List.range' number findings.length := by
    rw [List.filterMap_map, ← List.zipIdx_map_snd, ← List.filterMap_eq_map]
    rfl
  have hhidden : (ofHidden s).filterMap number? = [] := by
    rw [ofHidden]
    split
    · rfl
    · rfl
  rw [ofSection, List.filterMap_append, hshown, hhidden, List.append_nil]

/-- The headings are numbered through. -/
theorem filterMap_number?_ofSections (sections : List DisplaySection) :
    ∀ number, (ofSections number sections).filterMap number?
      = List.range' number (sections.map (·.shown.length)).sum := by
  induction sections with
  | nil =>
      intro number
      rfl
  | cons s sections ih =>
      intro number
      rw [ofSections, List.filterMap_append, filterMap_number?_ofSection, ih,
        List.map_cons, List.sum_cons, List.range'_append_1]

/-- But for their numbers, the notices of a section do not depend on the
    others. -/
theorem map_unnumbered_ofSection (number : Nat) (s : DisplaySection) :
    (ofSection number s).map unnumbered
      = s.shown.map (ofFinding 0) ++ ofHidden s := by
  have hhidden : (ofHidden s).map unnumbered = ofHidden s := by
    rw [ofHidden]
    split
    · rfl
    · rfl
  rw [ofSection, List.map_append, hhidden, List.map_map]
  congr 1
  conv_rhs => rw [← List.zipIdx_map_fst number s.shown, List.map_map]
  rfl

/-- Apart from their numbers, the notices of sections are those of each on
    its own. -/
theorem map_unnumbered_ofSections (sections : List DisplaySection) :
    ∀ number, (ofSections number sections).map unnumbered
      = sections.flatMap fun s => s.shown.map (ofFinding 0) ++ ofHidden s := by
  induction sections with
  | nil =>
      intro number
      rfl
  | cons s sections ih =>
      intro number
      rw [ofSections, List.map_append, map_unnumbered_ofSection, ih,
        List.flatMap_cons]

/-- A section tells about all of its findings, shown or hidden. -/
theorem sum_findings_ofSection (number : Nat) (s : DisplaySection) :
    ((ofSection number s).map findings).sum = s.findings := by
  have hshown : (((s.shown.zipIdx number).map fun entry =>
      ofFinding entry.2 entry.1).map findings).sum = s.shown.length := by
    simp [ofFinding, findings, Function.comp_def]
  have hhidden : ((ofHidden s).map findings).sum = s.hidden := by
    rw [ofHidden]
    split
    · rfl
    · exact (Nat.eq_zero_of_not_pos ‹_›).symm
  rw [ofSection, List.map_append, List.sum_append, hshown, hhidden]
  rfl

/-- Sections tell about all of their findings. -/
theorem sum_findings_ofSections (sections : List DisplaySection) :
    ∀ number, ((ofSections number sections).map findings).sum
      = (sections.map DisplaySection.findings).sum := by
  induction sections with
  | nil =>
      intro number
      rfl
  | cons s sections ih =>
      intro number
      rw [ofSections, List.map_append, List.sum_append, sum_findings_ofSection,
        ih, List.map_cons, List.sum_cons]

/-- **NOTHING IS LOST**: what the categories announce accounts for every
    finding. -/
theorem sum_findings_read (r : ReviewResult) (limit : Int) :
    ((Category.all.flatMap fun category =>
        read (categoryLines r limit category)).map findings).sum
      = r.allFindings.length := by
  rw [ReviewResult.allFindings]
  induction Category.all with
  | nil => rfl
  | cons category categories ih =>
      rw [List.flatMap_cons, List.flatMap_cons, List.map_append,
        List.sum_append, List.length_append, ih, read_categoryLines,
        sum_findings_ofSections, DisplaySection.sum_findings_ofCategory]

end Notice

open Notice

/-! ## Reports that can be written -/

/-- Whether all numbers that a report tells can be written: the total, and
    the lines of the findings it shows. -/
def isWritable (r : ReviewResult) (limit : Int) : Bool :=
  !Text.isLong r.total
    && !(DisplaySection.all r limit).any (·.shown.any hasLongLine)

/-- A number below one that can be written can be written. -/
theorem isLong_mono {m n : Nat} (h : m ≤ n) (hn : Text.isLong n = false) :
    Text.isLong m = false := by
  rw [← Bool.not_eq_true, isLong_natCast_iff] at hn ⊢
  exact fun hm => hn (Nat.le_trans hm h)

/-- No severity has more findings than there are in total, so its number can
    be written if the total can. -/
theorem isLong_number_freeze {a : Aggregator}
    (h : Text.isLong a.freeze.total = false) (severity : Severity) :
    Text.isLong (ReviewResult.number a.kept severity) = false := by
  rw [Aggregator.total_freeze] at h
  exact isLong_mono (List.length_filter_le _ _) h

/-- The first lines are plain if the line with the numbers is. -/
theorem all_isPlain_impression (positives : List String) {numbers : String}
    (h : isPlain numbers = true) :
    (["# Automated Code Review 🤖", "", "## Overall Impression"]
      ++ (match positives with
        | [] => []
        | note :: _ => [s!"Hey there! Thanks for the PR. {note}", ""])
      ++ [numbers, ""]).all isPlain = true := by
  have hempty : isPlain "" = true := by decide
  have hgreeting (note : String) :
      isPlain s!"Hey there! Thanks for the PR. {note}" = true :=
    isPlain_append "Hey there! Thanks for the PR. " (by decide) note
  have hfirst : ["# Automated Code Review 🤖", "",
      "## Overall Impression"].all isPlain = true := by decide
  cases positives with
  | nil =>
      rw [List.append_nil, List.all_append, hfirst]
      simp [h, hempty]
  | cons note notes =>
      rw [List.all_append, List.all_append, hfirst]
      simp [h, hempty, hgreeting]

/-- The first lines on a frozen result tell nothing about single
    findings. -/
theorem impressionLines_freeze {a : Aggregator}
    (h : Text.isLong a.freeze.total = false) :
    ∃ lines, impressionLines a.freeze = .ok lines
      ∧ lines.all isPlain = true := by
  have hcount (severity : Severity) : countOf a.freeze severity
      = .ok (ReviewResult.number a.kept severity) := by
    rw [countOf, Aggregator.count?_freeze]
  have hnumeral {n : Int} (hn : Text.isLong n = false) :
      numeral n = .ok (toString n) := by
    rw [numeral, hn]
    rfl
  have hnumber (severity : Severity) :=
    hnumeral (isLong_number_freeze h severity)
  unfold impressionLines
  simp only [hcount, hnumber, hnumeral h, bind, Except.bind, pure, Except.pure]
  split
  · exact ⟨_, rfl, all_isPlain_impression _ (by decide)⟩
  · refine ⟨_, rfl, all_isPlain_impression _ ?_⟩
    simp only [toString_string, String.append_assoc]
    exact isPlain_append "Found " (by decide) _

/-- A total with too many digits cannot be written. -/
theorem impressionLines_of_isLong {r : ReviewResult}
    (h : Text.isLong r.total = true) :
    impressionLines r = .error .numberTooLong := by
  have htotal : ¬ r.total = 0 := by
    intro hzero
    rw [hzero] at h
    exact absurd h (by decide)
  have hnumeral : numeral r.total = .error .numberTooLong := by
    rw [numeral, h]
    rfl
  unfold impressionLines
  rw [if_neg htotal, hnumeral]
  rfl

/-- **THE WHOLE REPORT**: a frozen result whose numbers can be written has a
    report, which announces what its categories announce and nothing
    else. -/
theorem markdownLines_freeze_of_isWritable {a : Aggregator} {limit : Int}
    (h : isWritable a.freeze limit = true) :
    ∃ lines, markdownLines a.freeze limit = .ok lines
      ∧ Notice.read lines = Category.all.flatMap fun category =>
          Notice.read (categoryLines a.freeze limit category) := by
  rw [isWritable, Bool.and_eq_true, Bool.not_eq_true', Bool.not_eq_true'] at h
  obtain ⟨impression, himpression, hplain⟩ := impressionLines_freeze h.1
  have hlast : (positiveLines a.freeze ++ summaryLines a.freeze
      ++ ["---", "*Generated by RuleLens 🤖*"]).all isPlain = true := by
    rw [List.all_append, List.all_append, all_isPlain_positiveLines,
      all_isPlain_summaryLines]
    decide
  refine ⟨impression ++ (Category.all.flatMap (categoryLines a.freeze limit)
    ++ (positiveLines a.freeze ++ summaryLines a.freeze
      ++ ["---", "*Generated by RuleLens 🤖*"])), ?_, ?_⟩
  · rw [markdownLines, himpression]
    simp [h.2, bind, Except.bind, pure, Except.pure]
  · rw [read_append_of_all_isPlain hplain, read_flatMap_categoryLines]
    have hnone := read_append_of_all_isPlain hlast []
    rw [List.append_nil] at hnone
    rw [hnone, Notice.read, List.append_nil]

/-- A report that would have to tell a number that is too long fails. -/
theorem markdownLines_freeze_of_not_isWritable {a : Aggregator} {limit : Int}
    (h : isWritable a.freeze limit = false) :
    markdownLines a.freeze limit = .error .numberTooLong := by
  rw [isWritable, Bool.and_eq_false_iff, Bool.not_eq_false',
    Bool.not_eq_false'] at h
  cases hlong : Text.isLong a.freeze.total with
  | true =>
      rw [markdownLines, impressionLines_of_isLong hlong]
      rfl
  | false =>
      obtain ⟨impression, himpression, _⟩ := impressionLines_freeze hlong
      have hline := h.resolve_left (by rw [hlong]; exact Bool.false_ne_true)
      rw [markdownLines, himpression]
      simp only [bind, Except.bind, hline, if_true]
      rfl

/-- A style note on a file. -/
def styleNote (severity : Severity) (message : String) : Finding :=
  ⟨"a.rb", none, .style, severity, message, ""⟩

/-- Two warnings with a suggestion between them. -/
def styleNotes : List Finding :=
  [styleNote .warning "first", styleNote .suggestion "second",
    styleNote .warning "third"]

end CodeReview.Report
