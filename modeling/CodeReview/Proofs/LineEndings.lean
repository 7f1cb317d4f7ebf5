import CodeReview.Detector.Structure
import CodeReview.Proofs.Lines

/-! # Line endings

    A carriage return in front of a newline belongs to the terminator, so a
    text has the same lines with and without them (`lines_withReturns`).
    Blocks are found on lines, and so is what the detectors of size and
    complexity report: none of them sees how the lines of a file end. -/

namespace CodeReview

/-! ## Lines under another ending -/

namespace Text

/-- The text with a carriage return in front of each newline. -/
def withReturns (content : Text) : Text :=
  content.flatMap fun c => if c = '\n' then ['\r', '\n'] else [c]

/-- A newline gets its carriage return. -/
theorem withReturns_cons_newline (content : Text) :
    withReturns ('\n' :: content) = '\r' :: '\n' :: withReturns content := rfl

/-- Any other character stays as it is. -/
theorem withReturns_cons_of_ne {c : Char} (h : c ≠ '\n') (content : Text) :
    withReturns (c :: content) = c :: withReturns content := by
  rw [withReturns, List.flatMap_cons, if_neg h]
  rfl

/-- A character in front of a text is kept unless nothing else is. -/
theorem dropRight_cons (p : Char → Bool) (c : Char) (text : Text) :
    dropRight p (c :: text)
      = if dropRight p text = [] ∧ p c = true then []
        else c :: dropRight p text := by
  simp only [dropRight, List.reverse_cons, List.dropWhile_append,
    List.isEmpty_iff, List.reverse_eq_nil_iff]
  by_cases hrest : text.reverse.dropWhile p = []
  · cases hc : p c <;> simp [hrest, hc]
  · simp [hrest]

/-- Whether two lists of pieces make the same lines: they are the same up to
    trailing carriage returns, and the last pieces, of which an empty one is
    no line, are the same altogether. -/
structure SameLines (xs ys : List Text) : Prop where
  trimmed : xs.map (dropRight (· == '\r')) = ys.map (dropRight (· == '\r'))
  last : xs.getLast? = ys.getLast?

namespace SameLines

/-- Pieces that make the same lines do so also behind the final newline,
    where an empty piece is no line. -/
theorem dropFinalEmpty_eq {xs ys : List Text} (h : SameLines xs ys) :
    (dropFinalEmpty xs).map (dropRight (· == '\r'))
      = (dropFinalEmpty ys).map (dropRight (· == '\r')) := by
  rw [dropFinalEmpty, dropFinalEmpty, h.last]
  split
  · rw [List.map_dropLast, List.map_dropLast, h.trimmed]
  · exact h.trimmed

/-- One more line in front. -/
theorem cons {x y : Text} {xs ys : List Text} (h : SameLines xs ys)
    (hxs : xs ≠ []) (hys : ys ≠ [])
    (hfirst : dropRight (· == '\r') x = dropRight (· == '\r') y) :
    SameLines (x :: xs) (y :: ys) where
  trimmed := by rw [List.map_cons, List.map_cons, hfirst, h.trimmed]
  last := by
    rw [List.getLast?_cons_of_ne_nil hxs, List.getLast?_cons_of_ne_nil hys,
      h.last]

/-- One more character in front of the first line. -/
theorem cons_head {x y : Text} {xs ys : List Text}
    (h : SameLines (x :: xs) (y :: ys)) (c : Char) :
    SameLines ((c :: x) :: xs) ((c :: y) :: ys) := by
  obtain ⟨htrimmed, hlast⟩ := h
  obtain ⟨hfirst, hrest⟩ := List.cons.inj htrimmed
  constructor
  · rw [List.map_cons, List.map_cons, dropRight_cons, dropRight_cons, hfirst,
      hrest]
  · cases xs with
    | nil =>
        cases List.map_eq_nil_iff.mp hrest.symm
        cases hlast
        rfl
    | cons x' xs =>
        have hys : ys ≠ [] := by
          rintro rfl
          exact nomatch hrest
        rwa [List.getLast?_cons_of_ne_nil (List.cons_ne_nil _ _),
          List.getLast?_cons_of_ne_nil hys] at hlast ⊢

end SameLines

/-- Cut at newlines, a text with carriage returns and the one without make
    the same lines, by induction over the content. -/
theorem sameLines_withReturns (content : Text) :
    SameLines (splitOn '\n' (withReturns content)) (splitOn '\n' content) := by
  induction content with
  | nil => exact ⟨rfl, rfl⟩
  | cons c content ih =>
      by_cases hc : c = '\n'
      · rw [hc, withReturns_cons_newline]
        -- what stands before the newline is the carriage return alone
        exact ih.cons (splitOn_ne_nil _ _) (splitOn_ne_nil _ _) rfl
      · obtain ⟨piece, pieces, hreturned⟩ := List.exists_cons_of_ne_nil
          (splitOn_ne_nil '\n' (withReturns content))
        obtain ⟨piece', pieces', hplain⟩ := List.exists_cons_of_ne_nil
          (splitOn_ne_nil '\n' content)
        rw [withReturns_cons_of_ne hc, splitOn_cons_of_ne hc hreturned,
          splitOn_cons_of_ne hc hplain]
        rw [hreturned, hplain] at ih
        exact ih.cons_head c

/-- **LINE ENDINGS**: carriage returns in front of the newlines change no
    line. -/
theorem lines_withReturns (content : Text) :
    lines (withReturns content) = lines content :=
  (sameLines_withReturns content).dropFinalEmpty_eq

end Text

/-! ## What is read line by line -/

/-- Blocks are found on the lines of a content. -/
theorem Block.scan_of_lines {content content' : Text}
    (h : Text.lines content' = Text.lines content)
    (language : Option Language) :
    Block.scan content' language = Block.scan content language := by
  rw [Block.scan, Block.scan, h]

/-- Files with the same lines are the same apart from their contents; in
    particular they have the same blocks. -/
theorem Subject.ofContent_of_lines {content content' : Text}
    (h : Text.lines content' = Text.lines content) (path : String)
    (language : Option Language) (config : Config) :
    Subject.ofContent path content' language config
      = { Subject.ofContent path content language config with
          content := content' } := by
  rw [Subject.ofContent, Block.scan_of_lines h]
  rfl

namespace Detector

/-- Whether a detector reads the content of a file line by line only. -/
def LineBound (d : Detector) : Prop :=
  ∀ (s : Subject) (content : Text), Text.lines content = s.lines →
    d.findings { s with content } = d.findings s

/-- A detector that reads line by line runs in the same way on a content
    with the same lines. -/
theorem LineBound.run {d : Detector} (hd : d.LineBound) {s : Subject}
    {content : Text} (h : Text.lines content = s.lines) :
    d.run { s with content } = d.run s := by
  rw [Detector.run, Detector.run, hd s content h]

variable {s : Subject} {content : Text}

/-- Findings are made in the same way for a content with the same lines. -/
theorem findingAt_of_lines (h : Text.lines content = s.lines) :
    Subject.findingAt { s with content } = s.findingAt := by
  funext category severity message suggestion line
  rw [Subject.findingAt, Subject.findingAt, Subject.lines, h]

/-- The size of a file is the number of its lines. -/
theorem fileSize_lineBound : fileSize.LineBound := by
  intro s content h
  simp only [fileSize, Subject.lines, Subject.finding, findingAt_of_lines h]
  rw [h]
  rfl

/-- How long a line is does not depend on how it ends. -/
theorem longLines_lineBound : longLines.LineBound := by
  intro s content h
  simp only [longLines, findingAt_of_lines h, Subject.lines]
  rw [h]
  rfl

/-- How long a block is depends on where it starts and ends. -/
theorem longBlocks_lineBound : longBlocks.LineBound := by
  intro s content h
  simp only [longBlocks, findingAt_of_lines h]
  rfl

/-- The complexity of a block is estimated from its lines. -/
theorem complexBlocks_lineBound : complexBlocks.LineBound := by
  intro s content h
  simp only [complexBlocks, findingAt_of_lines h]

/-- Conditionals are looked for line by line. -/
theorem complexConditionals_lineBound : complexConditionals.LineBound := by
  intro s content h
  simp only [complexConditionals, findingAt_of_lines h, Subject.lineNumbers,
    Subject.lines]
  rw [h]
  rfl

/-- The detectors of size and complexity. -/
def structural : List Detector :=
  [fileSize, longLines, longBlocks, complexBlocks, complexConditionals]

/-- None of the five detectors sees how lines end. -/
theorem lineBound_of_mem_structural {d : Detector} (hd : d ∈ structural) :
    d.LineBound := by
  simp only [structural, List.mem_cons, List.not_mem_nil, or_false] at hd
  rcases hd with rfl | rfl | rfl | rfl | rfl
  · exact fileSize_lineBound
  · exact longLines_lineBound
  · exact longBlocks_lineBound
  · exact complexBlocks_lineBound
  · exact complexConditionals_lineBound

/-- **CARRIAGE RETURNS**: a file with a carriage return in front of each
    newline has the same blocks, of the same complexity, and the same
    findings about size and complexity. -/
theorem structural_withReturns (path : String) (content : Text)
    (language : Option Language) (config : Config) :
    let plain := Subject.ofContent path content language config
    let returned :=
      Subject.ofContent path (Text.withReturns content) language config
    Block.scan (Text.withReturns content) language = Block.scan content language
      ∧ returned.blocks.map (fun b => Complexity.estimate language b.body)
        = plain.blocks.map (fun b => Complexity.estimate language b.body)
      ∧ ∀ d ∈ structural, d.run returned = d.run plain := by
  intro plain returned
  have hlines := Text.lines_withReturns content
  have hreturned : returned = { plain with content := Text.withReturns content } :=
    Subject.ofContent_of_lines hlines path language config
  refine ⟨Block.scan_of_lines hlines language, ?_, ?_⟩
  · rw [hreturned]
  · intro d hd
    rw [hreturned]
    exact (lineBound_of_mem_structural hd).run hlines

end Detector

end CodeReview
