import CodeReview.Diff.Line
import CodeReview.Diff.Printer
import Mathlib.Data.List.TakeWhile

/-! # Printed lines of a diff

    What each line of a printed change says when it is read: the header
    gives both names back, the first line of a hunk its spans.  Names hold
    no blanks, so the space between them is the only one; numbers come back
    as long as they are short enough to be read at all. -/

namespace CodeReview

/-! ## Numbers -/

namespace Text

/-- An ASCII digit stands in the first of the decimal blocks, so its value
    is its distance from zero. -/
theorem digitValue?_of_isDigit {c : Char} (h : c.isDigit = true) :
    digitValue? c = some (c.toNat - '0'.toNat) := by
  rw [Char.isDigit, Bool.and_eq_true, decide_eq_true_eq, decide_eq_true_eq] at h
  have hlow : 0x30 ≤ c.toNat := UInt32.le_iff_toNat_le.mp h.1
  have hhigh : c.toNat ≤ 0x39 := UInt32.le_iff_toNat_le.mp h.2
  have hascii : (0x30 ≤ c.toNat && c.toNat < 0x30 + 10) = true := by
    rw [Bool.and_eq_true, decide_eq_true_eq, decide_eq_true_eq]
    exact ⟨hlow, Nat.lt_succ_of_le hhigh⟩
  have hfind : (zeros.find? fun first => first ≤ c.toNat && c.toNat < first + 10)
      = some 0x30 := by
    rw [zeros, List.find?_cons, hascii]
  rw [digitValue?, hfind]
  rfl

/-- ASCII digits are among the characters that a number is read from. -/
theorem isDecimal_of_isDigit {c : Char} (h : c.isDigit = true) :
    isDecimal c = true := by
  rw [isDecimal, digitValue?_of_isDigit h, Option.isSome_some]

/-- A text of ASCII digits has a value for every character. -/
theorem mapM_digitValue? {text : Text} (h : ∀ c ∈ text, c.isDigit = true) :
    text.mapM digitValue? = some (text.map fun c => c.toNat - '0'.toNat) := by
  induction text with
  | nil => rfl
  | cons c rest ih =>
      obtain ⟨hc, hrest⟩ := List.forall_mem_cons.mp h
      rw [List.mapM_cons, digitValue?_of_isDigit hc, ih hrest]
      rfl

/-- Printed digits write the number that they were printed from. -/
theorem numeral?_toDigits (n : Nat) : numeral? (Nat.toDigits 10 n) = some n := by
  have hdigits : ∀ c ∈ Nat.toDigits 10 n, c.isDigit = true :=
    fun c => Nat.isDigit_of_mem_toDigits (by decide) (by decide)
  have hvalue : ofDigits 10 ((Nat.toDigits 10 n).map fun c => c.toNat - '0'.toNat)
      = Nat.ofDigitChars 10 (Nat.toDigits 10 n) 0 := by
    rw [ofDigits, List.foldl_map, Nat.ofDigitChars]
    simp only [Nat.mul_comm]
  rw [numeral?, mapM_digitValue? hdigits, Option.map_some, hvalue,
    Nat.ofDigitChars_ten_toDigits]

end Text

namespace DiffLine

/-- A printed number holds nothing but digits. -/
theorem isDecimal_of_mem_toDigits {n : Nat} {c : Char}
    (h : c ∈ Nat.toDigits 10 n) : Text.isDecimal c = true :=
  Text.isDecimal_of_isDigit
    (Nat.isDigit_of_mem_toDigits (by decide) (by decide) h)

/-- Printed digits are read up to a character that is none. -/
theorem digits?_toDigits (n : Nat) {c : Char} (hc : Text.isDecimal c = false)
    (rest : Text) :
    digits? (Nat.toDigits 10 n ++ c :: rest)
      = some (Nat.toDigits 10 n, c :: rest) := by
  have hdigits : ∀ d ∈ Nat.toDigits 10 n, Text.isDecimal d = true :=
    fun d => isDecimal_of_mem_toDigits
  rw [digits?, List.takeWhile_append_of_pos hdigits,
    List.dropWhile_append_of_pos hdigits, List.takeWhile_cons_of_neg,
    List.dropWhile_cons_of_neg, List.append_nil]
  · exact if_neg (by simp)
  · rw [hc]; decide
  · rw [hc]; decide

/-- The length of a span is read back, also where it is one and not written
    at all. -/
theorem length?_lengthText (n : Nat) (rest : Text) :
    length? (FullHunk.lengthText n ++ ' ' :: rest)
      = some (Nat.toDigits 10 n, ' ' :: rest) := by
  rw [FullHunk.lengthText]
  split
  · rename_i hone
    rw [hone]
    rfl
  · exact digits?_toDigits n (by decide) rest

/-- The start of a span is read up to the comma or the blank behind it. -/
theorem digits?_spanText (span : Span) (rest : Text) :
    digits? (FullHunk.spanText span ++ ' ' :: rest)
      = some (Nat.toDigits 10 span.start,
          FullHunk.lengthText span.length ++ ' ' :: rest) := by
  rw [FullHunk.spanText, List.append_assoc, FullHunk.lengthText]
  split
  · exact digits?_toDigits span.start (by decide) rest
  · exact digits?_toDigits span.start (by decide) _

/-- The texts of the numbers in the first line of a hunk. -/
def numberTexts (hunk : Hunk) : List Text :=
  [hunk.source.start, hunk.source.length, hunk.target.start,
    hunk.target.length].map (Nat.toDigits 10)

/-- All four numbers of a hunk are read from its first line, whatever
    follows the closing signs. -/
theorem hunkNumbers?_spanText (hunk : Hunk) (rest : Text) :
    hunkNumbers? (FullHunk.spanText hunk.source ++ (" +".toList
        ++ (FullHunk.spanText hunk.target ++ (" @@".toList ++ rest))))
      = some (numberTexts hunk) := by
  show hunkNumbers? (FullHunk.spanText hunk.source ++ ' ' :: '+'
    :: (FullHunk.spanText hunk.target ++ ' ' :: '@' :: '@' :: rest)) = _
  have hplus (text : Text) : after? " +" (' ' :: '+' :: text) = some text := rfl
  have hend : after? " @@" (' ' :: '@' :: '@' :: rest) = some rest := rfl
  simp only [hunkNumbers?, Option.bind_eq_bind, digits?_spanText,
    length?_lengthText, hplus, hend, Option.bind_some]
  rfl

/-- Numbers come back from their digits, in order. -/
theorem filterMap_numeral? (numbers : List Nat) :
    (numbers.map (Nat.toDigits 10)).filterMap Text.numeral? = numbers := by
  have hnumeral : Text.numeral? ∘ Nat.toDigits 10 = some :=
    funext Text.numeral?_toDigits
  rw [List.filterMap_map, hnumeral, List.filterMap_some]

/-- The numbers of a hunk give the hunk back. -/
theorem ofNumbers_numberTexts {hunk : Hunk}
    (hshort : ∀ digits ∈ numberTexts hunk, digits.length ≤ Text.maxDigits) :
    ofNumbers (numberTexts hunk) = .hunk hunk := by
  have hfind : ((numberTexts hunk).find? fun digits =>
      Text.maxDigits < digits.length) = none := by
    rw [List.find?_eq_none]
    intro digits hdigits
    rw [decide_eq_true_eq, Nat.not_lt]
    exact hshort digits hdigits
  rw [ofNumbers, hfind, numberTexts, filterMap_numeral?]

/-- The first number of a hunk may be too long to be read. -/
theorem ofNumbers_of_overlong {hunk : Hunk}
    (hlong : Text.maxDigits < (Nat.toDigits 10 hunk.source.start).length) :
    ofNumbers (numberTexts hunk)
      = .overlong (Nat.toDigits 10 hunk.source.start).length := by
  have hfind : ((numberTexts hunk).find? fun digits =>
      Text.maxDigits < digits.length) = some (Nat.toDigits 10 hunk.source.start) :=
    List.find?_cons_of_pos (decide_eq_true hlong)
  rw [ofNumbers, hfind]

/-- The first line of a hunk is read as the numbers of its spans; whether
    these are short enough is not asked yet. -/
theorem parse_headLine (h : FullHunk) :
    parse (h.headLine ++ ['\n']) = ofNumbers (numberTexts h.spans) := by
  have hnumbers := hunkNumbers?_spanText h.spans (h.heading ++ ['\n'])
  rw [FullHunk.headLine]
  simp only [List.append_assoc]
  generalize FullHunk.spanText h.spans.source ++ _ = rest at hnumbers ⊢
  -- the line is none of the kinds that are looked for before
  have hgit : after? "diff --git " ("@@ -".toList ++ rest) = none := rfl
  have hnew : after? "new file mode " ("@@ -".toList ++ rest) = none := rfl
  have hdeleted : after? "deleted file mode " ("@@ -".toList ++ rest) = none := rfl
  have hsource : after? "--- " ("@@ -".toList ++ rest) = none := rfl
  have htarget : after? "+++ " ("@@ -".toList ++ rest) = none := rfl
  have hhunk : after? "@@ -" ("@@ -".toList ++ rest) = some rest := rfl
  rw [parse, hgit, hnew, hdeleted, hsource, htarget, hhunk]
  simp only [hnumbers]

end DiffLine

/-! ## Names -/

/-- Whether a character can stand in a path: it is no blank and no
    quote. -/
def isPathChar (c : Char) : Bool := !Text.isBlank c && c != '"'

/-- Whether a path can stand in a header. -/
structure IsPath (path : Text) : Prop where
  ne_nil : path ≠ []
  plain : path.all isPathChar = true

instance (path : Text) : Decidable (IsPath path) :=
  decidable_of_iff (path ≠ [] ∧ path.all isPathChar = true)
    ⟨fun h => ⟨h.1, h.2⟩, fun h => ⟨h.ne_nil, h.plain⟩⟩

namespace IsPath

variable {path : Text}

/-- A path holds no blank of any kind. -/
theorem not_mem (h : IsPath path) {c : Char} (hc : Text.isBlank c = true) :
    c ∉ path := by
  intro hmem
  have hplain := List.all_eq_true.mp h.plain c hmem
  rw [isPathChar, hc] at hplain
  exact nomatch hplain

/-- Every character of a path may stand in the name of a file line. -/
theorem isNameChar_of_mem (h : IsPath path) :
    ∀ c ∈ path, DiffLine.isNameChar c = true := by
  intro c hc
  have htab : c ≠ '\t' := fun heq => h.not_mem (c := '\t') (by decide) (heq ▸ hc)
  have hnewline : c ≠ '\n' :=
    fun heq => h.not_mem (c := '\n') (by decide) (heq ▸ hc)
  rw [DiffLine.isNameChar, Bool.and_eq_true, bne_iff_ne, bne_iff_ne]
  exact ⟨htab, hnewline⟩

end IsPath

namespace DiffLine

/-- Without a space there is nothing to cut. -/
theorem cutLast_eq_none {α : Type} {use : Text → Text → Option α} {text : Text}
    (h : ' ' ∉ text) (before : Text) : cutLast use before text = none := by
  induction text generalizing before with
  | nil => rfl
  | cons c rest ih =>
      rw [List.mem_cons, not_or] at h
      obtain ⟨hc, hrest⟩ := h
      rw [cutLast, ih hrest, if_neg (Ne.symm hc)]
      rfl

/-- A text with one space is cut there. -/
theorem cutLast_append {α : Type} {use : Text → Text → Option α}
    {first second : Text} (hfirst : ' ' ∉ first) (hsecond : ' ' ∉ second)
    (before : Text) :
    cutLast use before (first ++ ' ' :: second)
      = use (before.reverse ++ first) second := by
  induction first generalizing before with
  | nil =>
      rw [List.nil_append, cutLast, cutLast_eq_none hsecond, if_pos rfl,
        List.append_nil]
      rfl
  | cons c rest ih =>
      rw [List.mem_cons, not_or] at hfirst
      obtain ⟨hc, hrest⟩ := hfirst
      rw [List.cons_append, cutLast, ih hrest, if_neg (Ne.symm hc),
        List.reverse_cons, List.append_assoc, List.singleton_append]
      cases use (before.reverse ++ c :: rest) second with
      | none => rfl
      | some _ => rfl

/-- A name starts behind its prefix and takes all of a path. -/
theorem nameAfter_path {path : Text} (h : IsPath path) (start : Text) :
    nameAfter start path = some (start ++ path) := by
  rw [nameAfter, List.takeWhile_eq_self_iff.mpr h.isNameChar_of_mem]
  exact if_neg (by simpa using h.ne_nil)

/-- The header of two paths gives their names. -/
theorem headerNames_paths {source target : Text} (hsource : IsPath source)
    (htarget : IsPath target) :
    headerNames (('a' :: '/' :: source) ++ ' ' :: 'b' :: '/' :: target)
      = some ('a' :: '/' :: source, 'b' :: '/' :: target) := by
  have hfirst : ' ' ∉ 'a' :: '/' :: source := by
    simpa using hsource.not_mem (c := ' ') (by decide)
  have hsecond : ' ' ∉ 'b' :: '/' :: target := by
    simpa using htarget.not_mem (c := ' ') (by decide)
  have hleft : sided 'a' ('a' :: '/' :: source) = some ('a' :: '/' :: source) :=
    nameAfter_path hsource ['a', '/']
  have hright : sided 'b' ('b' :: '/' :: target) = some ('b' :: '/' :: target) :=
    nameAfter_path htarget ['b', '/']
  have hnames : names (sided 'a') (sided 'b')
      (('a' :: '/' :: source) ++ ' ' :: 'b' :: '/' :: target)
      = some ('a' :: '/' :: source, 'b' :: '/' :: target) := by
    rw [names, cutLast_append hfirst hsecond, List.reverse_nil, List.nil_append,
      hleft, hright]
    exact if_pos rfl
  rw [headerNames, hnames]
  rfl

end DiffLine

/-! ## Hunks -/

/-- Whether each line of a hunk holds one line of text. -/
structure FullHunk.IsPrintable (h : FullHunk) : Prop where
  body_line : ∀ b ∈ h.body, '\n' ∉ b.text
  heading_line : '\n' ∉ h.heading

instance (h : FullHunk) : Decidable h.IsPrintable :=
  decidable_of_iff ((∀ b ∈ h.body, '\n' ∉ b.text) ∧ '\n' ∉ h.heading)
    ⟨fun h => ⟨h.1, h.2⟩, fun h => ⟨h.body_line, h.heading_line⟩⟩

namespace FullHunk

/-- A number stays on its line. -/
theorem newline_not_mem_toDigits (n : Nat) : '\n' ∉ Nat.toDigits 10 n :=
  fun h => nomatch DiffLine.isDecimal_of_mem_toDigits h

/-- A span stays on its line. -/
theorem newline_not_mem_spanText (span : Span) : '\n' ∉ spanText span := by
  rw [spanText, lengthText]
  split
  · simpa using newline_not_mem_toDigits span.start
  · simpa using
      ⟨newline_not_mem_toDigits span.start, newline_not_mem_toDigits span.length⟩

/-- Each line of a printed hunk is one line. -/
theorem newline_not_mem_lines {h : FullHunk} (hprint : h.IsPrintable) :
    ∀ line ∈ h.lines, '\n' ∉ line := by
  refine List.forall_mem_cons.mpr ⟨?_, ?_⟩
  · have hsource := newline_not_mem_spanText h.spans.source
    have htarget := newline_not_mem_spanText h.spans.target
    simp [headLine, hsource, htarget, hprint.heading_line]
  · intro line hline
    obtain ⟨b, hb, rfl⟩ := List.mem_map.mp hline
    have htext := hprint.body_line b hb
    cases b with
    | context text => simpa [BodyLine.line, BodyLine.mark] using htext
    | removed text => simpa [BodyLine.line, BodyLine.mark] using htext
    | inserted text => simpa [BodyLine.line, BodyLine.mark] using htext

end FullHunk

/-! ## Changes -/

namespace FileChange

/-- Whether a change can be printed: its paths can stand in a header, a
    renamed file gets another path, the lines of its hunks are lines, and
    the hunks of a file that stays have lines on both sides. -/
structure IsPrintable (change : FileChange) : Prop where
  source_path : IsPath change.sourcePath
  target_path : IsPath change.path
  renames : change.status = .renamed → change.sourcePath ≠ change.path
  hunks_printable : ∀ h ∈ change.hunks, h.IsPrintable
  both_sides : change.status = .modified ∨ change.status = .renamed →
    ∀ h ∈ change.hunks, 0 < h.spans.source.length ∧ 0 < h.spans.target.length

instance (change : FileChange) : Decidable change.IsPrintable :=
  decidable_of_iff
    (IsPath change.sourcePath ∧ IsPath change.path
      ∧ (change.status = .renamed → change.sourcePath ≠ change.path)
      ∧ (∀ h ∈ change.hunks, h.IsPrintable)
      ∧ (change.status = .modified ∨ change.status = .renamed →
        ∀ h ∈ change.hunks,
          0 < h.spans.source.length ∧ 0 < h.spans.target.length))
    ⟨fun ⟨hsource, htarget, hrenames, hhunks, hsides⟩ =>
        ⟨hsource, htarget, hrenames, hhunks, hsides⟩,
      fun h => ⟨h.source_path, h.target_path, h.renames, h.hunks_printable,
        h.both_sides⟩⟩

variable {change : FileChange}

/-- The name behind the minus signs is read to its end: a path, or the name
    for no file. -/
theorem isNameChar_sourceLineName (h : change.IsPrintable) :
    ∀ c ∈ change.sourceLineName, DiffLine.isNameChar c = true := by
  rw [sourceLineName]
  split
  · exact List.all_eq_true.mp rfl
  · rw [sourceName, List.forall_mem_cons, List.forall_mem_cons]
    exact ⟨rfl, rfl, h.source_path.isNameChar_of_mem⟩

/-- The name behind the plus signs is read to its end, as the one behind the
    minus signs. -/
theorem isNameChar_targetLineName (h : change.IsPrintable) :
    ∀ c ∈ change.targetLineName, DiffLine.isNameChar c = true := by
  rw [targetLineName]
  split
  · exact List.all_eq_true.mp rfl
  · rw [targetName, List.forall_mem_cons, List.forall_mem_cons]
    exact ⟨rfl, rfl, h.target_path.isNameChar_of_mem⟩

/-- A line break ends a name. -/
theorem newline_not_mem_of_isNameChar {name : Text}
    (h : ∀ c ∈ name, DiffLine.isNameChar c = true) : '\n' ∉ name :=
  fun hmem => nomatch h '\n' hmem

/-- The two names of a header stand on one line. -/
theorem newline_not_mem_names (h : change.IsPrintable) :
    '\n' ∉ change.sourceName ++ ' ' :: change.targetName := by
  have hsource := h.source_path.not_mem (c := '\n') (by decide)
  have htarget := h.target_path.not_mem (c := '\n') (by decide)
  simp [sourceName, targetName, hsource, htarget]

/-- The line about a file's mode, where there is one, is one line. -/
theorem newline_not_mem_modeLine : ∀ line ∈ change.modeLine, '\n' ∉ line := by
  cases change with
  | added path lines mode =>
      show ∀ line ∈ ["new file mode ".toList ++ mode.digits.toList], '\n' ∉ line
      cases mode <;> decide
  | deleted path lines mode =>
      show ∀ line ∈ ["deleted file mode ".toList ++ mode.digits.toList], '\n' ∉ line
      cases mode <;> decide
  | modified path hunks => exact fun _ h => nomatch h
  | renamed source target hunks => exact fun _ h => nomatch h

/-- A printed change is made of lines. -/
theorem newline_not_mem_lines (h : change.IsPrintable) :
    ∀ line ∈ change.lines, '\n' ∉ line := by
  have hsource := newline_not_mem_of_isNameChar (isNameChar_sourceLineName h)
  have htarget := newline_not_mem_of_isNameChar (isNameChar_targetLineName h)
  have hnames := newline_not_mem_names h
  have hdash : '\n' ∉ "--- ".toList := by decide
  have hplus : '\n' ∉ "+++ ".toList := by decide
  have hgit : '\n' ∉ "diff --git ".toList := by decide
  intro line hline
  rcases List.mem_append.mp hline with hline | hline
  · rcases List.mem_cons.mp hline with rfl | hline
    · exact List.not_mem_append hgit hnames
    · exact newline_not_mem_modeLine line hline
  · rcases List.mem_cons.mp hline with rfl | hline
    · exact List.not_mem_append hdash hsource
    · rcases List.mem_cons.mp hline with rfl | hline
      · exact List.not_mem_append hplus htarget
      · obtain ⟨hunk, hhunk, hline⟩ := List.mem_flatMap.mp hline
        exact FullHunk.newline_not_mem_lines (h.hunks_printable hunk hhunk) line hline

/-- The header gives both names back, because the only blank stands between
    them. -/
theorem parse_headerLine (h : change.IsPrintable) :
    DiffLine.parse (("diff --git ".toList
        ++ (change.sourceName ++ ' ' :: change.targetName)) ++ ['\n'])
      = .header change.sourceName change.targetName := by
  have hline : ∀ c ∈ change.sourceName ++ ' ' :: change.targetName,
      (c != '\n') = true := by
    intro c hc
    exact bne_iff_ne.mpr fun heq => newline_not_mem_names h (heq ▸ hc)
  have hnames : DiffLine.headerNames
      (((change.sourceName ++ ' ' :: change.targetName) ++ ['\n']).takeWhile
        (· != '\n'))
      = some (change.sourceName, change.targetName) := by
    rw [List.takeWhile_append_of_pos hline,
      List.takeWhile_cons_of_neg (by decide), List.append_nil]
    exact DiffLine.headerNames_paths h.source_path h.target_path
  rw [List.append_assoc]
  generalize (change.sourceName ++ ' ' :: change.targetName) ++ ['\n'] = rest
    at hnames ⊢
  have hgit : DiffLine.after? "diff --git " ("diff --git ".toList ++ rest)
      = some rest := rfl
  rw [DiffLine.parse, hgit]
  simp only [hnames]

/-- A name is read up to the line break. -/
theorem takeWhile_isNameChar {name : Text}
    (h : ∀ c ∈ name, DiffLine.isNameChar c = true) :
    (name ++ ['\n']).takeWhile DiffLine.isNameChar = name := by
  rw [List.takeWhile_append_of_pos h, List.takeWhile_cons_of_neg (by decide),
    List.append_nil]

/-- The line with minus signs gives its name back. -/
theorem parse_sourceLine (h : change.IsPrintable) :
    DiffLine.parse (("--- ".toList ++ change.sourceLineName) ++ ['\n'])
      = .source change.sourceLineName := by
  have hparse (rest : Text) : DiffLine.parse ("--- ".toList ++ rest)
      = .source (rest.takeWhile DiffLine.isNameChar) := rfl
  rw [List.append_assoc, hparse, takeWhile_isNameChar (isNameChar_sourceLineName h)]

/-- The line with plus signs gives its name back. -/
theorem parse_targetLine (h : change.IsPrintable) :
    DiffLine.parse (("+++ ".toList ++ change.targetLineName) ++ ['\n'])
      = .target change.targetLineName := by
  have hparse (rest : Text) : DiffLine.parse ("+++ ".toList ++ rest)
      = .target (rest.takeWhile DiffLine.isNameChar) := rfl
  rw [List.append_assoc, hparse, takeWhile_isNameChar (isNameChar_targetLineName h)]

/-- The mode of a new file is read as such, whatever its digits are. -/
theorem parse_newFile (mode : FileMode) :
    DiffLine.parse (("new file mode ".toList ++ mode.digits.toList) ++ ['\n'])
      = .newFile := by
  cases mode <;> decide

/-- The mode of a deleted file is read as such, whatever its digits are. -/
theorem parse_deletedFile (mode : FileMode) :
    DiffLine.parse (("deleted file mode ".toList ++ mode.digits.toList) ++ ['\n'])
      = .deletedFile := by
  cases mode <;> decide

end FileChange

end CodeReview
