import CodeReview.Detector.Basic
import CodeReview.Proofs.Lines

/-! # Rules

    A rule is what the findings of one kind have in common: all of their
    parts but the line, the numbers in the message and the middle of its
    wording.  A detector follows some rules if it never fails and each of
    its findings is about a line of the file and covered by one of the
    rules.  The lemmas below say so of the shapes that detectors are made
    of: lines, matches and blocks. -/

namespace CodeReview

/-! ## The wording of a message -/

/-- A message without its digits. -/
def wording (message : String) : Text :=
  message.toList.filter fun c => !c.isDigit

/-- The wording of two texts behind one another is that of both. -/
theorem wording_append (a b : String) :
    wording (a ++ b) = wording a ++ wording b := by
  rw [wording, String.toList_append, List.filter_append]
  rfl

/-- A number has no wording. -/
theorem wording_number (n : Nat) : wording (toString n) = [] := by
  refine List.filter_eq_nil_iff.mpr ?_
  intro c hc
  -- all of its characters are digits
  have hdigits : (toString n).toList = Nat.toDigits 10 n := Nat.toList_repr
  rw [hdigits] at hc
  rw [Nat.isDigit_of_mem_toDigits (by decide) (by decide) hc]
  exact Bool.false_ne_true

/-- What opens a message is not changed by what follows it. -/
theorem opens_append {start : Text} {a : String} (b : String)
    (h : start <+: wording a) : start <+: wording (a ++ b) := by
  rw [wording_append]
  exact h.trans (List.prefix_append _ _)

/-- What ends a message is not changed by what stands before it. -/
theorem ends_append {stop : Text} {b : String} (a : String)
    (h : stop <:+ wording b) : stop <:+ wording (a ++ b) := by
  rw [wording_append]
  exact h.trans (List.suffix_append _ _)

/-- An ending that goes on behind a number. -/
theorem ends_append_number {stop : Text} {b c : String} (a : String)
    (n : Nat) (h : stop <:+ wording (b ++ c)) :
    stop <:+ wording (a ++ b ++ toString n ++ c) := by
  rw [wording_append, wording_append, wording_number, List.append_nil,
    ← wording_append, String.append_assoc]
  exact ends_append a h

/-- What the findings of one kind have in common.  The suggestion may
    depend on the file. -/
structure Rule where
  category : Category
  severity : Severity
  opening : String
  ending : String := ""
  suggestion : Subject → String

namespace Rule

/-- Whether a message is worded like those of a rule. -/
structure Words (r : Rule) (message : String) : Prop where
  opens : r.opening.toList <+: wording message
  ends : r.ending.toList <:+ wording message

/-- Whether a finding about a file is of the kind that a rule describes. -/
structure Covers (r : Rule) (s : Subject) (f : Finding) : Prop where
  category_eq : f.category = r.category
  severity_eq : f.severity = r.severity
  suggestion_eq : f.suggestion = r.suggestion s
  words : r.Words f.message

/-- A message follows a rule if its wording starts and ends as the rule
    says. -/
theorem words_iff {r : Rule} {message : String} :
    r.Words message ↔ r.opening.toList <+: wording message
      ∧ r.ending.toList <:+ wording message :=
  ⟨fun h => ⟨h.opens, h.ends⟩, fun h => ⟨h.1, h.2⟩⟩

instance (r : Rule) (message : String) : Decidable (r.Words message) :=
  decidable_of_iff' _ words_iff

/-- A message between a start and an end that are known. -/
theorem words_around {r : Rule} {a b : String} (middle : String)
    (h : r.opening.toList <+: wording a ∧ r.ending.toList <:+ wording b) :
    r.Words (a ++ middle ++ b) :=
  ⟨opens_append _ (opens_append _ h.1), ends_append _ h.2⟩

end Rule

/-! ## Lines of a file -/

namespace Subject

/-- Whether a number is that of a line, in a file that has lines at all. -/
def HasLine (s : Subject) (line : Nat) : Prop :=
  s.lines ≠ [] → 1 ≤ line ∧ line ≤ s.lines.length

/-- Whether every block starts within the file. -/
def BlocksWithin (s : Subject) : Prop :=
  ∀ block ∈ s.blocks, block.startLine ≤ s.lines.length

/-- Whether a finding is about a file, on a line that the file has. -/
structure Locates (s : Subject) (f : Finding) : Prop where
  file_eq : f.file = s.path
  line_within : ∀ line, f.line = some line →
    1 ≤ line ∧ line ≤ s.lines.length

variable {s : Subject}

/-- Every place in a text has a line of the file. -/
theorem hasLine_lineOf (s : Subject) (offset : Nat) :
    s.HasLine (s.lineOf offset) := by
  intro hlines
  exact ⟨Text.lineOf_pos _ _, Text.lineOf_le _ _ hlines⟩

/-- The lines of a file that is not empty, by their indexes. -/
theorem HasLine.index_lt {line : Nat} (h : s.HasLine line)
    (hcontent : s.content ≠ []) : line - 1 < s.lines.length := by
  have hlines : s.lines ≠ [] :=
    fun hnil => hcontent (Text.lines_eq_nil_iff.mp hnil)
  have hwithin := h hlines
  omega

/-- The line of a first match is one of the file. -/
theorem hasLine_of_firstLine {p : Pattern} {line : Nat}
    (h : s.firstLine p = some line) : s.HasLine line := by
  obtain ⟨m, _, rfl⟩ := Option.map_eq_some_iff.mp h
  exact hasLine_lineOf s m.start

/-- A match comes with the line that it starts on. -/
theorem mem_allMatches {p : Pattern} {line : Nat} {m : Match}
    (h : (line, m) ∈ s.allMatches p) :
    m ∈ p.findAll s.content ∧ line = s.lineOf m.start := by
  obtain ⟨m', hm', heq⟩ := List.mem_map.mp h
  obtain ⟨hline, rfl⟩ := Prod.mk.inj heq
  exact ⟨hm', hline.symm⟩

/-- The line of a match is one of the file. -/
theorem hasLine_of_mem_allMatches {p : Pattern} {line : Nat} {m : Match}
    (h : (line, m) ∈ s.allMatches p) : s.HasLine line := by
  rw [(mem_allMatches h).2]
  exact hasLine_lineOf s m.start

/-- The lines of a file are numbered from one. -/
theorem hasLine_of_mem_zipIdx {line : Text} {index : Nat}
    (h : (line, index) ∈ s.lines.zipIdx) : s.HasLine (index + 1) := by
  intro _
  have hlt : index < s.lines.length :=
    (List.getElem?_eq_some_iff.mp (List.mem_zipIdx_iff_getElem?.mp h)).1
  exact ⟨Nat.le_add_left 1 index, hlt⟩

/-- The number of a line that passes a test is one of the file. -/
theorem hasLine_of_mem_lineNumbers {test : Text → Bool} {line : Nat}
    (h : line ∈ s.lineNumbers test) : s.HasLine line := by
  obtain ⟨⟨text, index⟩, hmem, hsome⟩ := List.mem_filterMap.mp h
  have hsome' : (if test text then some (index + 1) else none) = some line :=
    hsome
  by_cases htest : test text = true
  · rw [if_pos htest] at hsome'
    rw [← Option.some.inj hsome']
    exact hasLine_of_mem_zipIdx hmem
  · rw [if_neg htest] at hsome'
    exact nomatch hsome'

/-- A block starts on a line of the file. -/
theorem hasLine_of_mem_blocks (hblocks : s.BlocksWithin) {block : Block}
    (h : block ∈ s.blocks) : s.HasLine block.startLine :=
  fun _ => ⟨block.start_pos, hblocks block h⟩

end Subject

/-! ## Reporting under rules -/

/-- Whether a finding is about a line of the file and covered by one of
    some rules. -/
structure Reported (s : Subject) (rules : List Rule) (f : Finding) : Prop where
  located : s.Locates f
  covered : ∃ r ∈ rules, r.Covers s f

variable {s : Subject} {rules : List Rule} {r : Rule}

/-- What follows some rules follows any more. -/
theorem Reported.mono {rules' : List Rule} {f : Finding}
    (h : Reported s rules f) (hsub : rules ⊆ rules') : Reported s rules' f := by
  obtain ⟨r, hr, hcovers⟩ := h.covered
  exact ⟨h.located, r, hsub hr, hcovers⟩

/-- A finding that is made from a rule follows it, if its message is worded
    so and its line, if any, is one of the file. -/
theorem reported_findingAt (hr : r ∈ rules) {message : String}
    (hwords : r.Words message) {line : Option Nat}
    (hline : ∀ n, line = some n → s.HasLine n) :
    Reported s rules
      (s.findingAt r.category r.severity message (r.suggestion s) line) := by
  refine ⟨⟨rfl, ?_⟩, r, hr, rfl, rfl, rfl, hwords⟩
  -- only a file with lines has findings on them
  intro n hn
  have hn' : (if s.lines.isEmpty then none else line) = some n := hn
  cases hempty : s.lines.isEmpty with
  | true =>
      rw [hempty, if_pos rfl] at hn'
      exact nomatch hn'
  | false =>
      rw [hempty, if_neg Bool.false_ne_true] at hn'
      refine hline n hn' ?_
      intro hnil
      rw [hnil] at hempty
      exact nomatch hempty

/-- A finding on a line of the file. -/
theorem reported_line (hr : r ∈ rules) {message : String}
    (hwords : r.Words message) {line : Nat} (hline : s.HasLine line) :
    Reported s rules
      (s.findingAt r.category r.severity message (r.suggestion s) (some line)) := by
  refine reported_findingAt hr hwords ?_
  intro n hn
  rw [← Option.some.inj hn]
  exact hline

/-- A finding about the file as a whole. -/
theorem reported_whole (hr : r ∈ rules) {message : String}
    (hwords : r.Words message) :
    Reported s rules
      (s.finding r.category r.severity message (r.suggestion s)) :=
  reported_findingAt hr hwords fun _ hn => nomatch hn

/-- The same finding on each line that a pattern matches in. -/
theorem reported_linesWith (hr : r ∈ rules) {message : String}
    (hwords : r.Words message) (p : Pattern) :
    ∀ f ∈ (s.linesWith p).map fun line =>
        s.findingAt r.category r.severity message (r.suggestion s) (some line),
      Reported s rules f := by
  intro f hf
  obtain ⟨line, hline, rfl⟩ := List.mem_map.mp hf
  exact reported_line hr hwords (Subject.hasLine_of_mem_lineNumbers hline)

/-- A finding on the line of a pattern's first match. -/
theorem reported_firstLine (hr : r ∈ rules) {message : String}
    (hwords : r.Words message) (p : Pattern) :
    ∀ f ∈ (s.firstLine p).toList.map fun line =>
        s.findingAt r.category r.severity message (r.suggestion s) (some line),
      Reported s rules f := by
  intro f hf
  obtain ⟨line, hline, rfl⟩ := List.mem_map.mp hf
  exact reported_line hr hwords
    (Subject.hasLine_of_firstLine (Option.mem_toList.mp hline))

/-- A finding on a line of the file, unless a condition holds. -/
theorem reported_unless (hr : r ∈ rules) {message : String}
    (hwords : r.Words message) {line : Nat} (hline : s.HasLine line)
    {c : Prop} [Decidable c] {f : Finding}
    (h : (if c then none
      else some (s.findingAt r.category r.severity message (r.suggestion s)
        (some line))) = some f) :
    Reported s rules f := by
  obtain ⟨_, heq⟩ := Option.ite_none_left_eq_some.mp h
  rw [← Option.some.inj heq]
  exact reported_line hr hwords hline

/-- Findings of two parts follow the rules if those of each part do. -/
theorem reported_append {xs ys : List Finding}
    (hxs : ∀ f ∈ xs, Reported s rules f) (hys : ∀ f ∈ ys, Reported s rules f) :
    ∀ f ∈ xs ++ ys, Reported s rules f := by
  intro f hf
  rcases List.mem_append.mp hf with hx | hy
  · exact hxs f hx
  · exact hys f hy

/-- Nothing is reported under a condition, or what is reported otherwise. -/
theorem reported_ite {c : Prop} [Decidable c] {xs ys : List Finding}
    (hxs : ∀ f ∈ xs, Reported s rules f) (hys : ∀ f ∈ ys, Reported s rules f) :
    ∀ f ∈ (if c then xs else ys), Reported s rules f := by
  intro f hf
  by_cases hc : c
  · rw [if_pos hc] at hf
    exact hxs f hf
  · rw [if_neg hc] at hf
    exact hys f hf

/-- No findings follow any rules. -/
theorem reported_nil : ∀ f ∈ ([] : List Finding), Reported s rules f :=
  fun _ hf => nomatch hf

/-- A single finding follows the rules if it does. -/
theorem reported_singleton {f : Finding} (h : Reported s rules f) :
    ∀ g ∈ [f], Reported s rules g := by
  intro g hg
  rw [List.mem_singleton.mp hg]
  exact h

/-! ## Detectors under rules -/

/-- A block can be followed from every line that there is. -/
theorem Detector.exists_blockEnd {lines : List LineProfile} {start : Nat}
    (h : start < lines.length) : ∃ last, blockEnd lines start = .ok last := by
  have hdrop : lines.drop start ≠ [] :=
    fun hnil => absurd (List.drop_eq_nil_iff.mp hnil) (Nat.not_le.mpr h)
  obtain ⟨line, rest, hlines⟩ := List.exists_cons_of_ne_nil hdrop
  refine ⟨start + Block.span (line :: rest), ?_⟩
  rw [blockEnd, Block.endOf?, hlines]

/-- If every step succeeds, so do all of them together. -/
theorem exists_mapM_ok {α β ε : Type} {f : α → Except ε β} {P : β → Prop}
    {xs : List α} (h : ∀ x ∈ xs, ∃ y, f x = .ok y ∧ P y) :
    ∃ ys, xs.mapM f = .ok ys ∧ ∀ y ∈ ys, P y := by
  induction xs with
  | nil => exact ⟨[], rfl, fun _ hy => nomatch hy⟩
  | cons x xs ih =>
      obtain ⟨y, hxy, hy⟩ := h x List.mem_cons_self
      obtain ⟨ys, hxys, hys⟩ := ih fun z hz => h z (List.mem_cons_of_mem x hz)
      refine ⟨y :: ys, ?_, List.forall_mem_cons.mpr ⟨hy, hys⟩⟩
      rw [List.mapM_cons, hxy, hxys]
      rfl

/-- A detector follows rules: it never fails, and all of its findings are
    reported under the rules. -/
def Detector.Follows (d : Detector) (rules : List Rule) : Prop :=
  ∀ s : Subject, s.BlocksWithin →
    ∃ findings, d.findings s = .ok findings
      ∧ ∀ f ∈ findings, Reported s rules f

/-- A detector that cannot fail follows the rules that its findings are
    reported under. -/
theorem Detector.follows_of_ok {d : Detector} {found : Subject → List Finding}
    (hd : ∀ s, d.findings s = .ok (found s))
    (hfound : ∀ s, s.BlocksWithin → ∀ f ∈ found s, Reported s rules f) :
    d.Follows rules :=
  fun s hblocks => ⟨found s, hd s, hfound s hblocks⟩

/-- A detector with one step that may fail: if the step succeeds, with a
    result that is fit to report about, the detector follows the rules. -/
theorem Detector.follows_of_step {d : Detector} {α : Type}
    {step : Subject → Except DetectorFault α}
    {found : Subject → α → List Finding} (fit : Subject → α → Prop)
    (hd : ∀ s, d.findings s = step s >>= fun x => pure (found s x))
    (hstep : ∀ s, ∃ x, step s = .ok x ∧ fit s x)
    (hfound : ∀ s x, fit s x → ∀ f ∈ found s x, Reported s rules f) :
    d.Follows rules := by
  intro s _
  obtain ⟨x, hx, hfit⟩ := hstep s
  refine ⟨found s x, ?_, hfound s x hfit⟩
  rw [hd, hx]
  rfl

end CodeReview
