import CodeReview.Proofs.IterationHeads
import CodeReview.Proofs.Nesting
import CodeReview.Proofs.Rules.Server

/-! # Bodies of iterations

    A lookup lies on one line, so a body holds one exactly if one of its
    lines does.  Which lines are taken for the body of an iteration is
    found by a sweep from the line of its head, and the sweep counts
    whatever opens or closes on that line, before the head too.  The lines
    are those of the body for the headers that leave exactly one block open
    and are no unit on one line (`seesBody_of_opens`), and for no others
    (`opens_of_seesBody`). -/

namespace CodeReview

/-! ## Sweeps that miss the closing line -/

namespace Block

/-- The sweep from a unit on one line, or from a line that closes all that
    it opens, stays on the line. -/
theorem span_closed {line : LineProfile} (rest : List LineProfile)
    (h : line.isOneLiner = true ∨ 0 < line.opens ∧ line.opens ≤ line.closes) :
    span (line :: rest) = 0 := by
  rw [span]
  split
  · rfl
  · rename_i honeLiner
    obtain ⟨hopens, hcloses⟩ := h.resolve_left honeLiner
    simp [sweep, sweepFrom, hopens, Nat.not_lt.mpr hcloses]

/-- Whether a line opens and closes given numbers of blocks, and neither
    starts a unit nor ends a statement. -/
def IsInner (line : LineProfile) (opens closes : Nat) : Prop :=
  line.opens = opens ∧ line.closes = closes ∧ line.unit = none
    ∧ line.endsStatement = false

instance {line : LineProfile} {opens closes : Nat} :
    Decidable (IsInner line opens closes) :=
  inferInstanceAs (Decidable (_ ∧ _))

/-- The sweep from a line that opens nothing, or more than one block
    beyond those that it closes, passes a closing line and goes on. -/
theorem span_open {line closing below : LineProfile}
    (honeLiner : line.isOneLiner = false) (hends : line.endsStatement = false)
    (hopens : line.opens = 0 ∨ line.closes + 2 ≤ line.opens)
    (hclosing : IsInner closing 0 1) (hbelow : IsInner below 0 0) :
    span [line, closing, below] = 2 := by
  obtain ⟨hclosing0, hclosing1, hclosing2, hclosing3⟩ := hclosing
  obtain ⟨hbelow0, hbelow1, hbelow2, hbelow3⟩ := hbelow
  rw [span, honeLiner, if_neg Bool.false_ne_true, sweep]
  rcases hopens with hnone | hmany
  · simp [sweepFrom, hnone, hends, hclosing0, hclosing2, hclosing3,
      hbelow0, hbelow2, hbelow3]
  · have hopened : 0 < line.opens := by omega
    have hline : line.closes < line.opens := by omega
    have hlast : ¬ (line.opens : Int) - line.closes - 1 ≤ 0 := by omega
    simp [sweepFrom, hopened, hline, hlast, hclosing0, hclosing1, hbelow0,
      hbelow1]

end Block

namespace Detector

open Pattern

/-! ## Lookups -/

/-- The calls that look up single records. -/
inductive IsLookup : Text → Prop
  | named (name : String)
      (h : name ∈ ["find", "find_by", "where", "pluck", "exists?"]) :
      IsLookup ('.' :: name.toList)
  | byField {field : Text} (hne : field ≠ [])
      (hword : ∀ c ∈ field, Text.isWord c = true) :
      IsLookup ('.' :: ("find_by_".toList ++ field))

/-- The characters that end a lookup. -/
def endsLookup (c : Char) : Bool :=
  Text.isBlank c || c == '(' || c == '!' || c == '.'

/-- The pattern of a lookup reads the lookups. -/
theorem reads_lookup :
    (char '.' ++ (text "find" ||| text "find_by"
      ||| text "find_by_" ++ many1 wordChar
      ||| text "where" ||| text "pluck" ||| text "exists?")).Reads IsLookup := by
  have hcalls := reads_alt (reads_alt (reads_alt (reads_alt (reads_alt
    (reads_text "find") (reads_text "find_by"))
    (reads_seq (reads_text "find_by_") (reads_many1 Text.isWord)))
    (reads_text "where")) (reads_text "pluck")) (reads_text "exists?")
  refine (reads_seq (reads_char '.') hcalls).congr fun w => ?_
  constructor
  · rintro ⟨_, call, rfl, rfl, hcall⟩
    rcases hcall with ((((rfl | rfl) | ⟨_, field, rfl, rfl, hne, hword⟩)
      | rfl) | rfl) | rfl
    · exact .named "find" (by decide)
    · exact .named "find_by" (by decide)
    · exact .byField hne hword
    · exact .named "where" (by decide)
    · exact .named "pluck" (by decide)
    · exact .named "exists?" (by decide)
  · rintro (⟨name, hname⟩ | @⟨field, hne, hword⟩)
    · refine ⟨['.'], name.toList, rfl, rfl, ?_⟩
      simp only [List.mem_cons, List.not_mem_nil, or_false] at hname
      rcases hname with rfl | rfl | rfl | rfl | rfl <;> simp
    · exact ⟨['.'], _, rfl, rfl,
        .inl (.inl (.inl (.inr ⟨_, field, rfl, rfl, hne, hword⟩)))⟩

/-- A lookup is found in a text exactly if the text holds one that ends
    there. -/
theorem occursIn_perItemLookup_iff {text : Text} :
    perItemLookup.occursIn text = true
      ↔ Text.Holds IsLookup endsLookup text :=
  occursIn_ended_iff reads_lookup rfl

/-- A lookup starts with its dot. -/
theorem IsLookup.dot_mem {w : Text} (h : IsLookup w) : '.' ∈ w := by
  cases h <;> exact List.mem_cons_self

/-- A lookup stands on one line. -/
theorem IsLookup.newline_not_mem {w : Text} (h : IsLookup w) : '\n' ∉ w := by
  cases h with
  | named name h =>
      have hall : ∀ name ∈ ["find", "find_by", "where", "pluck", "exists?"],
          '\n' ∉ '.' :: name.toList := by decide
      exact hall name h
  | byField hne hword =>
      intro hc
      rcases List.mem_append.mp (List.mem_of_ne_of_mem (by decide) hc)
        with hword' | hfield
      · exact absurd hword' (by decide)
      · exact absurd (hword _ hfield) (by decide +kernel)

/-- **LINE BY LINE**: a body with a parameter before it holds a lookup if
    one of its lines does. -/
theorem occursIn_body_iff {parameter : Text} (h : '.' ∉ parameter)
    {lines : List Text} :
    perItemLookup.occursIn
        (Text.unlines (parameterText parameter :: lines)) = true
      ↔ ∃ line ∈ lines, perItemLookup.occursIn line = true := by
  have hparameter : ¬ Text.Holds IsLookup endsLookup (parameterText parameter) := by
    rintro ⟨front, w, more, htext, hw, _⟩
    have hdot : '.' ∈ parameterText parameter := by
      rw [htext]
      exact List.mem_append_right _ (List.mem_append_left _ hw.dot_mem)
    simp [parameterText, h] at hdot
  simp only [occursIn_perItemLookup_iff]
  rw [Text.holds_unlines rfl fun _ => IsLookup.newline_not_mem]
  simp only [List.mem_cons, exists_eq_or_imp, hparameter, false_or]

/-! ## The iteration of a header -/

/-- Steps in a row give what each of the steps gives. -/
theorem mem_mapM_ok_iff {α β ε : Type} {f : α → Except ε β} :
    ∀ {xs : List α} {ys : List β}, xs.mapM f = .ok ys →
      ∀ y, y ∈ ys ↔ ∃ x ∈ xs, f x = .ok y := by
  intro xs
  induction xs with
  | nil =>
      intro ys h y
      cases h
      simp
  | cons x xs ih =>
      intro ys h y
      rw [List.mapM_cons] at h
      cases hx : f x with
      | error e =>
          rw [hx] at h
          exact nomatch h
      | ok b =>
          cases hxs : xs.mapM f with
          | error e =>
              rw [hx, hxs] at h
              exact nomatch h
          | ok bs =>
              rw [hx, hxs] at h
              cases h
              rw [List.mem_cons, ih hxs y]
              simp [hx, eq_comm]

/-- An iteration of a file is that of one of its lines. -/
theorem mem_iterations_iff {s : Subject} {found : List Iteration}
    (h : iterations s = .ok found) (it : Iteration) :
    it ∈ found ↔ ∃ x ∈ s.lines.zipIdx,
      iterationOn s.lines (s.lines.map BlockMarks.ruby.profile)
        (s.lines.map BlockMarks.script.profile) x.1 x.2 = .ok (some it) := by
  have hsteps : iterations s = (s.lines.zipIdx.mapM fun x =>
      iterationOn s.lines (s.lines.map BlockMarks.ruby.profile)
        (s.lines.map BlockMarks.script.profile) x.1 x.2)
      >>= fun all => pure (all.filterMap id) := rfl
  rw [hsteps] at h
  cases hall : s.lines.zipIdx.mapM fun x =>
      iterationOn s.lines (s.lines.map BlockMarks.ruby.profile)
        (s.lines.map BlockMarks.script.profile) x.1 x.2 with
  | error e =>
      rw [hall] at h
      exact nomatch h
  | ok all =>
      rw [hall] at h
      cases h
      rw [← mem_mapM_ok_iff hall (some it), List.mem_filterMap]
      simp

/-- The finding about a lookup in an iteration with its head on a line. -/
def lookupFinding (s : Subject) (method : String) (line : Nat) : Finding :=
  s.findingAt .performance .warning
    s!"Potential N+1 query: per-item lookup inside .{method} iteration"
    "Use includes(), eager_load(), or preload() to avoid N+1 queries"
    (some line)

/-- A lookup is reported on a line if an iteration of the line holds one;
    no other finding is mistaken for it. -/
theorem exists_lookupFinding_iff {s : Subject} (hlines : s.lines ≠ [])
    {found : List Iteration} {line : Nat} :
    (∃ method, lookupFinding s method line
        ∈ perItemLookups s found ++ eagerLoadingMissing s)
      ↔ ∃ it ∈ found, it.line = line
        ∧ perItemLookup.occursIn it.body = true := by
  constructor
  · rintro ⟨method, hmem⟩
    rcases List.mem_append.mp hmem with hlookup | heager
    · obtain ⟨it, hit, heq⟩ := List.mem_map.mp hlookup
      obtain ⟨hfound, hoccurs⟩ := List.mem_filter.mp hit
      have hline := congrArg Finding.line heq
      simp only [lookupFinding, Subject.findingAt, List.isEmpty_iff, hlines,
        if_false, Option.some.injEq] at hline
      exact ⟨it, hfound, hline, hoccurs⟩
    · rw [eagerLoadingMissing] at heager
      split at heager
      · obtain ⟨_, _, heq⟩ := List.mem_map.mp heager
        exact absurd (congrArg Finding.suggestion heq) (by
          simp [lookupFinding, Subject.findingAt])
      · exact absurd heager List.not_mem_nil
  · rintro ⟨it, hit, rfl, hoccurs⟩
    exact ⟨it.method, List.mem_append_left _ (List.mem_map.mpr
      ⟨it, List.mem_filter.mpr ⟨hit, hoccurs⟩, rfl⟩)⟩

namespace IterationHeader

/-- The number of lines that are taken for the body of an iteration. -/
def bodyLength (h : IterationHeader) (rest : List Text) : Nat :=
  Block.span ((h.line :: rest).map BlockMarks.ruby.profile)

/-- **THE ITERATION**: a header with some lines behind it gives an
    iteration over the first ones of these lines. -/
theorem iterationOn_line (h : IterationHeader) (above rest : List Text)
    (scriptLines : List LineProfile) :
    iterationOn (above ++ h.line :: rest)
        ((above ++ h.line :: rest).map BlockMarks.ruby.profile) scriptLines
        h.line above.length
      = .ok (some ⟨above.length + 1, h.method,
          Text.unlines (parameterText h.parameter
            :: rest.take (h.bodyLength rest))⟩) := by
  obtain ⟨m, hsearch, hafter, hname, hgroup⟩ := h.search_line
  have hdrop : ((above ++ h.line :: rest).map BlockMarks.ruby.profile).drop
      above.length = (h.line :: rest).map BlockMarks.ruby.profile := by
    rw [← List.map_drop, List.drop_left]
  -- an iteration that opens with `do` ends where a Ruby block would
  have hend : iterationEnd
      ((above ++ h.line :: rest).map BlockMarks.ruby.profile) scriptLines
      above.length m = .ok (above.length + h.bodyLength rest) := by
    rw [iterationEnd, hgroup, if_pos (by decide), blockEnd, Block.endOf?, hdrop]
    rfl
  have hrest : (above ++ h.line :: rest).drop (above.length + 1) = rest := by
    rw [← List.drop_drop, List.drop_left]
    rfl
  rw [iterationOn, hsearch]
  show (iterationEnd _ scriptLines above.length m >>= _) = _
  rw [hend]
  show Except.ok _ = _
  rw [hname, hafter, hrest, Nat.add_sub_cancel_left]

/-- **WHAT IS REPORTED**: the detector gives findings, with one about a
    lookup on the line of a header if a line taken for the body holds a
    lookup. -/
theorem exists_findings (h : IterationHeader) {s : Subject}
    {above rest : List Text} (hlines : s.lines = above ++ h.line :: rest) :
    ∃ findings, nPlusOne.findings s = .ok findings
      ∧ ((∃ method, lookupFinding s method (above.length + 1) ∈ findings)
        ↔ ∃ line ∈ rest.take (h.bodyLength rest),
          perItemLookup.occursIn line = true) := by
  obtain ⟨found, hfound, _⟩ := exists_iterations s
  have hmem := mem_iterations_iff hfound
  rw [hlines] at hmem
  have hon := h.iterationOn_line above rest
    ((above ++ h.line :: rest).map BlockMarks.script.profile)
  have hat : ∀ line, (line, above.length) ∈ (above ++ h.line :: rest).zipIdx
      ↔ line = h.line := by
    intro line
    rw [List.mem_zipIdx_iff_getElem?]
    simp [eq_comm]
  refine ⟨perItemLookups s found ++ eagerLoadingMissing s, ?_, ?_⟩
  · show iterations s >>= _ = _
    rw [hfound]
    rfl
  · rw [exists_lookupFinding_iff (by rw [hlines]; simp),
      ← occursIn_body_iff h.parameter_plain.1]
    constructor
    · rintro ⟨it, hit, hline, hoccurs⟩
      obtain ⟨⟨line, index⟩, hx, hstep⟩ := (hmem it).mp hit
      -- the line of an iteration is the one that its head stands on
      obtain ⟨_, hstep', hindex⟩ := exists_iterationOn hx
      rw [hstep] at hstep'
      cases hstep'
      have hsame : index = above.length := by
        have := hindex it rfl
        omega
      subst hsame
      rw [(hat line).mp hx, hon] at hstep
      cases hstep
      exact hoccurs
    · intro hoccurs
      exact ⟨_, (hmem _).mpr ⟨(h.line, above.length), (hat h.line).mpr rfl, hon⟩,
        rfl, hoccurs⟩

/-- The head of an iteration ends with the bar behind its variables. -/
theorem line_eq_concat (h : IterationHeader) :
    ∃ front, h.line = front ++ ['|'] :=
  ⟨h.before ++ '.' :: (h.method.toList ++ (" do |".toList ++ h.parameter)),
    by simp [line, headText, parameterText]⟩

/-- The head of an iteration is one line. -/
theorem newline_not_mem_line (h : IterationHeader) : '\n' ∉ h.line := by
  have hmethod : '\n' ∉ h.method.toList := fun hc =>
    absurd (isWord_of_mem_method h.method_mem '\n' hc) (by decide +kernel)
  simp [line, headText, parameterText, h.unbroken, hmethod,
    h.parameter_plain.2.2]

/-- The bar behind the parameter ends no statement. -/
theorem endsStatement_line (h : IterationHeader) :
    (BlockMarks.ruby.profile h.line).endsStatement = false := by
  obtain ⟨front, hfront⟩ := h.line_eq_concat
  show Text.endsWith ';' h.line = false
  rw [Text.endsWith, Text.trimRight, hfront, Text.dropRight_concat rfl,
    List.getLast?_concat]
  rfl

/-! ## The body of a header -/

/-- A Ruby file with a header, a nested body and a closing line, and
    whatever stands above and below. -/
structure File (h : IterationHeader) where
  path : String
  content : Text
  config : Config
  above : List Text
  body : List Text
  closing : Text
  below : List Text
  lines_eq : Text.lines content = above ++ h.line :: (body ++ closing :: below)
  body_nested : Block.Nested (body.map BlockMarks.ruby.profile)
  closing_counts : (BlockMarks.ruby.openers closing).length = 0
    ∧ BlockMarks.ruby.closers closing = 1

namespace File

variable {h : IterationHeader}

/-- The file as the detectors see it. -/
def subject (f : h.File) : Subject :=
  .ofContent f.path f.content (some .ruby) f.config

/-- Whether a lookup is reported on the line of the header exactly if one
    occurs on a line of the body or on the closing line. -/
def Exact (f : h.File) : Prop :=
  ∃ findings, nPlusOne.findings f.subject = .ok findings
    ∧ ((∃ method, lookupFinding f.subject method (f.above.length + 1)
          ∈ findings)
      ↔ ∃ line ∈ f.body ++ [f.closing], perItemLookup.occursIn line = true)

/-- What is reported is exact if the lines that are taken for the body hold
    a lookup when the body does. -/
theorem exact_iff (f : h.File) :
    f.Exact ↔
      ((∃ line ∈ (f.body ++ f.closing :: f.below).take
            (h.bodyLength (f.body ++ f.closing :: f.below)),
          perItemLookup.occursIn line = true)
        ↔ ∃ line ∈ f.body ++ [f.closing],
          perItemLookup.occursIn line = true) := by
  obtain ⟨findings, hfindings, hreported⟩ :=
    h.exists_findings (s := f.subject) f.lines_eq
  constructor
  · rintro ⟨_, hfindings', hexact⟩
    rw [hfindings] at hfindings'
    cases hfindings'
    exact hreported.symm.trans hexact
  · intro hexact
    exact ⟨findings, hfindings, hreported.trans hexact⟩

/-- Where no line is taken for the body, a lookup in it is missed. -/
theorem not_exact_of_missed {f : h.File}
    (hlength : h.bodyLength (f.body ++ f.closing :: f.below) = 0)
    (hlookup : ∃ line ∈ f.body ++ [f.closing],
      perItemLookup.occursIn line = true) : ¬ f.Exact := by
  intro hexact
  obtain ⟨line, hline, _⟩ := (f.exact_iff.mp hexact).mpr hlookup
  rw [hlength, List.take_zero] at hline
  exact absurd hline List.not_mem_nil

/-- The file of a header and some lines below it. -/
def ofLines (h : IterationHeader) (body : List Text) (closing : Text)
    (below : List Text)
    (hunbroken : ∀ line ∈ body ++ closing :: below, '\n' ∉ line ∧ '\r' ∉ line)
    (hbody : Block.Nested (body.map BlockMarks.ruby.profile))
    (hclosing : (BlockMarks.ruby.openers closing).length = 0
      ∧ BlockMarks.ruby.closers closing = 1) : h.File where
  path := "rows.rb"
  content := Text.print (h.line :: (body ++ closing :: below))
  config := {}
  above := []
  body
  closing
  below
  lines_eq := by
    refine Text.lines_print_trimmed (List.forall_mem_cons.mpr ⟨?_, ?_⟩)
    · obtain ⟨front, hfront⟩ := h.line_eq_concat
      exact ⟨h.newline_not_mem_line, by rw [hfront, Text.dropRight_concat rfl]⟩
    · intro line hline
      obtain ⟨hnewline, hreturn⟩ := hunbroken line hline
      exact ⟨hnewline, Text.dropRight_of_not_mem hreturn⟩
  body_nested := hbody
  closing_counts := hclosing

end File

/-- Whether the lookups of the body are reported, and no others, in every
    file with the header. -/
def SeesBody (h : IterationHeader) : Prop := ∀ f : h.File, f.Exact

/-- A header that leaves one block open has its body seen. -/
theorem seesBody_of_opens {h : IterationHeader}
    (honeLiner : BlockMarks.ruby.isOneLiner h.line = false)
    (hopens : (BlockMarks.ruby.openers h.line).length
      = BlockMarks.ruby.closers h.line + 1) : h.SeesBody := by
  intro f
  have hlength : h.bodyLength (f.body ++ f.closing :: f.below)
      = f.body.length + 1 := by
    rw [bodyLength, List.map_cons, List.map_append, List.map_cons,
      Block.span_opening _ honeLiner hopens f.body_nested f.closing_counts,
      List.length_map]
  rw [File.exact_iff, hlength, List.take_length_add_append]
  rfl

/-- A file in which the body holds a lookup. -/
def lookupInside (h : IterationHeader) : h.File :=
  .ofLines h ["x.find(1)".toList] "end".toList [] (by decide)
    (.plain (by decide +kernel) (by decide +kernel) .nil) (by decide +kernel)

/-- A file in which a lookup follows the closing line. -/
def lookupBehind (h : IterationHeader) : h.File :=
  .ofLines h [] "end".toList ["x.find(1)".toList] (by decide) .nil
    (by decide +kernel)

/-- A lookup behind the end of a body is reported although it is outside. -/
theorem not_exact_lookupBehind {h : IterationHeader}
    (hlength : h.bodyLength ["end".toList, "x.find(1)".toList] = 2) :
    ¬ h.lookupBehind.Exact := by
  intro hexact
  have htaken : ∃ line ∈ ["end".toList, "x.find(1)".toList].take
      (h.bodyLength ["end".toList, "x.find(1)".toList]),
      perItemLookup.occursIn line = true := by
    rw [hlength]
    decide +kernel
  have hnone : ¬ ∃ line ∈ ["end".toList],
      perItemLookup.occursIn line = true := by decide +kernel
  exact hnone ((h.lookupBehind.exact_iff.mp hexact).mp htaken)

/-- A header whose body is seen leaves one block open: with any other, the
    sweep stays on its line or passes the closing line. -/
theorem opens_of_seesBody {h : IterationHeader} (hsees : h.SeesBody) :
    BlockMarks.ruby.isOneLiner h.line = false
      ∧ (BlockMarks.ruby.openers h.line).length
        = BlockMarks.ruby.closers h.line + 1 := by
  by_cases hclosed : BlockMarks.ruby.isOneLiner h.line = true
      ∨ 0 < (BlockMarks.ruby.openers h.line).length
        ∧ (BlockMarks.ruby.openers h.line).length
          ≤ BlockMarks.ruby.closers h.line
  · -- the body is missed, so a lookup in it is not reported
    have hlength : h.bodyLength ["x.find(1)".toList, "end".toList] = 0 :=
      Block.span_closed _ hclosed
    have hlookup : ∃ line ∈ ["x.find(1)".toList, "end".toList],
        perItemLookup.occursIn line = true := by decide +kernel
    exact absurd (hsees h.lookupInside)
      (File.not_exact_of_missed hlength hlookup)
  · rw [not_or, Bool.not_eq_true] at hclosed
    obtain ⟨honeLiner, hcounts⟩ := hclosed
    by_cases hopens : (BlockMarks.ruby.openers h.line).length
        = BlockMarks.ruby.closers h.line + 1
    · exact ⟨honeLiner, hopens⟩
    · have hmissed : (BlockMarks.ruby.openers h.line).length = 0
          ∨ BlockMarks.ruby.closers h.line + 2
            ≤ (BlockMarks.ruby.openers h.line).length := by omega
      -- the sweep passes the closing line, so a lookup behind it is
      -- reported
      have hlength : h.bodyLength ["end".toList, "x.find(1)".toList] = 2 :=
        Block.span_open honeLiner h.endsStatement_line hmissed
          (by decide +kernel) (by decide +kernel)
      exact absurd (hsees h.lookupBehind) (not_exact_lookupBehind hlength)

/-- **BODIES THAT ARE SEEN**: whatever stands around the lines of an
    iteration, the lookups of its body are reported and no others, exactly
    if its header is no unit on one line and opens one block more than it
    closes. -/
theorem seesBody_iff (h : IterationHeader) :
    h.SeesBody ↔ BlockMarks.ruby.isOneLiner h.line = false
      ∧ (BlockMarks.ruby.openers h.line).length
        = BlockMarks.ruby.closers h.line + 1 :=
  ⟨opens_of_seesBody, fun hopens => seesBody_of_opens hopens.1 hopens.2⟩

/-- A header with a closer in a string before its head. -/
def quotedCloser : IterationHeader where
  before := "options[\"end\"]".toList
  method := "each"
  parameter := "row".toList
  unbroken := by decide
  method_mem := by decide
  parameter_plain := by decide
  only := by decide +kernel

/-- A file with that header. -/
def quotedCloserFile : quotedCloser.File where
  path := "rows.rb"
  content := "options[\"end\"].each do |row|\n  Row.find(row)\nend\n".toList
  config := {}
  above := []
  body := ["  Row.find(row)".toList]
  closing := "end".toList
  below := []
  lines_eq := by decide +kernel
  body_nested := .plain (by decide +kernel) (by decide +kernel) .nil
  closing_counts := by decide +kernel

/-- Words in strings count like any other text, so the closer in the string
    closes what the only `do` of the line opens, and the lookup is
    missed. -/
theorem not_exact_quotedCloserFile :
    (text "do").count quotedCloser.line = 1 ∧ ¬ quotedCloserFile.Exact := by
  refine ⟨by decide +kernel, File.not_exact_of_missed ?_ ?_⟩
  · decide +kernel
  · decide +kernel

end IterationHeader

end Detector

end CodeReview
