import CodeReview.Proofs.Lines
import CodeReview.Proofs.UnitNames

/-! # Scanning in parts

    A sweep starts at the first line of its unit and stops as soon as it
    can, so it sees neither what lies before the unit nor what lies behind
    the line that ends it.  A text that is cut behind a newline is
    therefore scanned part by part (`scan_append_parts`): the units behind
    the cut are found where they are, further down, and a unit before the
    cut ends elsewhere only if nothing before the cut ended it. -/

namespace CodeReview

/-! ## Lines of a text in two parts -/

namespace Text

/-- What stands before and behind a separator is split on its own. -/
theorem splitOn_append_sep (sep : Char) (front back : Text) :
    splitOn sep (front ++ sep :: back)
      = splitOn sep front ++ splitOn sep back := by
  induction front with
  | nil => simp [splitOn]
  | cons c front ih =>
      by_cases hc : c = sep
      · simp [splitOn, hc, ih]
      · simp only [List.cons_append, splitOn, hc, if_false, ih]
        cases hfront : splitOn sep front with
        | nil => exact absurd hfront (splitOn_ne_nil sep front)
        | cons piece pieces => rfl

/-- Only the last pieces decide whether an empty one is dropped. -/
theorem dropFinalEmpty_append (front : List Text) {back : List Text}
    (h : back ≠ []) :
    dropFinalEmpty (front ++ back) = front ++ dropFinalEmpty back := by
  have hlast : (front ++ back).getLast? = back.getLast? := by
    rw [List.getLast?_append, List.getLast?_eq_some_getLast h]
    rfl
  unfold dropFinalEmpty
  rw [hlast]
  split
  · exact List.dropLast_append_of_ne_nil h
  · rfl

/-- **LINES IN PARTS**: a text that is cut behind a newline has the lines of
    both parts. -/
theorem lines_append_parts {front : Text}
    (h : front = [] ∨ front.getLast? = some '\n') (back : Text) :
    lines (front ++ back) = lines front ++ lines back := by
  rcases h with rfl | hlast
  · rfl
  · obtain ⟨front, rfl⟩ := List.getLast?_eq_some_iff.mp hlast
    have hwhole : lines (front ++ ['\n'] ++ back)
        = (splitOn '\n' front ++ dropFinalEmpty (splitOn '\n' back)).map
            (dropRight (· == '\r')) := by
      rw [lines, List.append_assoc, List.singleton_append, splitOn_append_sep,
        dropFinalEmpty_append _ (splitOn_ne_nil '\n' back)]
    have hfront : lines (front ++ ['\n'])
        = (splitOn '\n' front).map (dropRight (· == '\r')) := by
      rw [lines, splitOn_append_sep, splitOn,
        dropFinalEmpty_append _ (List.cons_ne_nil _ _)]
      exact congrArg _ (List.append_nil _)
    rw [hwhole, hfront, List.map_append]
    rfl

end Text

namespace Block

/-! ## One line of a sweep -/

/-- What a line does to a sweep, whatever follows it: a unit that starts
    there ends a block without a body before it, the line ends the block,
    or it is passed.  A sweep that passes a line of an open block is still
    inside that block. -/
inductive Swept (depth : Int) (opened : Bool) (offset last : Nat)
    (line : LineProfile) : Prop
  | cutOff (hopened : opened = false) (hoffset : 0 < offset)
      (heq : ∀ rest, sweepFrom depth opened offset last (line :: rest) = last)
  | ended
      (heq : ∀ rest, sweepFrom depth opened offset last (line :: rest) = offset)
  | passed (depth' : Int) (opened' : Bool) (last' : Nat)
      (hdepth : opened' = true → 0 < depth')
      (hlast : last' = last ∨ last' = offset)
      (heq : ∀ rest, sweepFrom depth opened offset last (line :: rest)
        = sweepFrom depth' opened' (offset + 1) last' rest)

/-- Every line does one of these three to a sweep. -/
theorem swept (depth : Int) (opened : Bool) (offset last : Nat)
    (line : LineProfile) : Swept depth opened offset last line := by
  by_cases hcut : (!opened && 0 < offset && line.unit.isSome) = true
  · have hcut' := hcut
    simp only [Bool.and_eq_true, Bool.not_eq_true', decide_eq_true_eq] at hcut'
    refine .cutOff hcut'.1.1 hcut'.1.2 fun rest => ?_
    rw [sweepFrom, if_pos hcut]
  by_cases hclosed : ((opened || 0 < line.opens)
      && depth + line.opens - line.closes ≤ 0) = true
  · refine .ended fun rest => ?_
    rw [sweepFrom, if_neg hcut]
    exact if_pos hclosed
  by_cases hstatement :
      (!(opened || 0 < line.opens) && line.endsStatement) = true
  · refine .ended fun rest => ?_
    rw [sweepFrom, if_neg hcut]
    exact (if_neg hclosed).trans (if_pos hstatement)
  · refine .passed (depth + line.opens - line.closes)
      (opened || 0 < line.opens) (if line.isBlank then last else offset)
      ?_ ?_ fun rest => ?_
    · intro hopened
      rw [hopened, Bool.true_and, decide_eq_true_eq] at hclosed
      omega
    · split
      · exact .inl rfl
      · exact .inr rfl
    · rw [sweepFrom, if_neg hcut]
      exact (if_neg hclosed).trans (if_neg hstatement)

/-! ## What follows a block -/

/-- A sweep that stops before the last line does not see what follows. -/
theorem sweepFrom_append {lines : List LineProfile}
    (more : List LineProfile) :
    ∀ {depth : Int} {opened : Bool} {offset last : Nat},
      sweepFrom depth opened offset last lines + 1 < offset + lines.length →
      sweepFrom depth opened offset last (lines ++ more)
        = sweepFrom depth opened offset last lines := by
  induction lines with
  | nil =>
      intro depth opened offset last h
      rw [sweepFrom, List.length_nil] at h
      omega
  | cons line rest ih =>
      intro depth opened offset last h
      rw [List.cons_append]
      cases swept depth opened offset last line with
      | cutOff _ _ heq => rw [heq, heq]
      | ended heq => rw [heq, heq]
      | passed depth' opened' last' _ _ heq =>
          rw [heq, heq]
          rw [heq, List.length_cons] at h
          exact ih (by omega)

/-- A span that ends within some lines does not depend on what follows
    them. -/
theorem span_append {line : LineProfile} {rest : List LineProfile}
    (h : span (line :: rest) < rest.length) (more : List LineProfile) :
    span (line :: (rest ++ more)) = span (line :: rest) := by
  by_cases hone : line.isOneLiner = true
  · rw [span, span, if_pos hone, if_pos hone]
  · rw [span, if_neg hone, sweep] at h
    rw [span, span, if_neg hone, if_neg hone, sweep, sweep,
      ← List.cons_append]
    refine sweepFrom_append more ?_
    rw [List.length_cons]
    omega

/-- A block that ends before the last line stays as it is when more lines
    follow. -/
theorem ofUnit_append {line : LineProfile} {rest : List LineProfile}
    (h : span (line :: rest) < rest.length) (before : Nat) (name : String)
    (more : List LineProfile) :
    ofUnit before name (line :: (rest ++ more))
      = ofUnit before name (line :: rest) := by
  have hspan := span_append h more
  have htake : (line :: (rest ++ more)).take (span (line :: rest) + 1)
      = (line :: rest).take (span (line :: rest) + 1) := by
    rw [List.take_succ_cons, List.take_succ_cons,
      List.take_append_of_le_length (by omega)]
  unfold ofUnit
  congr 1
  · rw [hspan]
  · rw [hspan, htake]

/-! ## What a scan finds -/

/-- A block, a number of lines further down. -/
def shift (n : Nat) (block : Block) : Block where
  name := block.name
  startLine := block.startLine + n
  endLine := block.endLine + n
  body := block.body
  start_pos := Nat.le_add_right_of_le block.start_pos
  start_le_end := Nat.add_le_add_right block.start_le_end n

/-- A unit further down is the same block, shifted. -/
theorem ofUnit_add (before n : Nat) (name : String)
    (lines : List LineProfile) :
    ofUnit (before + n) name lines = (ofUnit before name lines).shift n := by
  unfold ofUnit shift
  congr 1
  · exact Nat.add_right_comm before n 1
  · show before + n + 1 + span lines = before + 1 + span lines + n
    omega

/-- Blocks further down are the same, but for their lines. -/
theorem scanFrom_add (n : Nat) (lines : List LineProfile) :
    ∀ before, scanFrom (before + n) lines
      = (scanFrom before lines).map (shift n) := by
  induction lines with
  | nil => intro before; rfl
  | cons line rest ih =>
      intro before
      have hrest : scanFrom (before + n + 1) rest
          = (scanFrom (before + 1) rest).map (shift n) := by
        rw [← ih, Nat.add_right_comm]
      rw [scanFrom, scanFrom, hrest]
      cases line.unit with
      | none => rfl
      | some name => simp only [ofUnit_add, List.map_cons]

/-- **WHAT A SCAN FINDS**: a block for each line that starts a unit. -/
theorem mem_scanFrom_iff {block : Block} {lines : List LineProfile} :
    ∀ {before : Nat}, block ∈ scanFrom before lines
      ↔ ∃ front line rest name, lines = front ++ line :: rest
        ∧ line.unit = some name
        ∧ block = ofUnit (before + front.length) name (line :: rest) := by
  induction lines with
  | nil =>
      intro before
      refine iff_of_false List.not_mem_nil ?_
      rintro ⟨front, line, rest, name, hlines, _⟩
      cases front <;> exact nomatch hlines
  | cons first tail ih =>
      intro before
      -- a block starts on the first line, or behind it
      have hcases : block ∈ scanFrom before (first :: tail)
          ↔ (∃ name, first.unit = some name
              ∧ block = ofUnit before name (first :: tail))
            ∨ block ∈ scanFrom (before + 1) tail := by
        rw [scanFrom]
        cases first.unit with
        | none => simp
        | some name => simp
      rw [hcases, ih]
      constructor
      · rintro (⟨name, hunit, rfl⟩ | ⟨front, line, rest, name, rfl, hunit, rfl⟩)
        · exact ⟨[], first, tail, name, rfl, hunit, rfl⟩
        · refine ⟨first :: front, line, rest, name, rfl, hunit, ?_⟩
          rw [List.length_cons, Nat.add_assoc, Nat.add_comm 1]
      · rintro ⟨front, line, rest, name, hlines, hunit, rfl⟩
        cases front with
        | nil =>
            obtain ⟨rfl, rfl⟩ := List.cons.inj hlines
            exact .inl ⟨name, hunit, rfl⟩
        | cons _ front =>
            obtain ⟨rfl, rfl⟩ := List.cons.inj hlines
            refine .inr ⟨front, line, rest, name, rfl, hunit, ?_⟩
            rw [List.length_cons, Nat.add_assoc, Nat.add_comm 1]

/-- Blocks are found behind the lines that were passed. -/
theorem lt_startLine_of_mem_scanFrom {block : Block} {before : Nat}
    {lines : List LineProfile} (h : block ∈ scanFrom before lines) :
    before < block.startLine := by
  obtain ⟨front, line, rest, name, _, _, rfl⟩ := mem_scanFrom_iff.mp h
  show before < before + front.length + 1
  omega

/-! ## Scanning lines in two parts -/

/-- Behind a number of lines, a scan finds what it finds from there on. -/
theorem filter_scanFrom_behind (back front : List LineProfile) :
    ∀ before, (scanFrom before (front ++ back)).filter
        (before + front.length < ·.startLine)
      = scanFrom (before + front.length) back := by
  induction front with
  | nil =>
      intro before
      refine List.filter_eq_self.mpr ?_
      intro block hblock
      exact decide_eq_true (lt_startLine_of_mem_scanFrom hblock)
  | cons line front ih =>
      intro before
      have hrest := ih (before + 1)
      rw [Nat.add_assoc, Nat.add_comm 1] at hrest
      rw [List.cons_append, List.length_cons, scanFrom]
      cases line.unit with
      | none => exact hrest
      | some name =>
          -- the block of the first line does not start behind the others
          refine (List.filter_cons_of_neg ?_).trans hrest
          rw [decide_eq_true_eq]
          show ¬ before + (front.length + 1) < before + 1
          omega

/-- The name and the first line of a block. -/
def head (block : Block) : String × Nat := (block.name, block.startLine)

/-- Which units start among a number of lines does not depend on what
    follows. -/
theorem map_head_scanFrom_before (back front : List LineProfile) :
    ∀ before, ((scanFrom before (front ++ back)).filter
        (·.startLine ≤ before + front.length)).map head
      = (scanFrom before front).map head := by
  induction front with
  | nil =>
      intro before
      refine congrArg (List.map head) (List.filter_eq_nil_iff.mpr ?_)
      intro block hblock
      have hlt := lt_startLine_of_mem_scanFrom hblock
      rw [List.length_nil, decide_eq_true_eq]
      omega
  | cons line front ih =>
      intro before
      have hrest := ih (before + 1)
      rw [Nat.add_assoc, Nat.add_comm 1] at hrest
      rw [List.cons_append, List.length_cons, scanFrom, scanFrom]
      cases line.unit with
      | none => exact hrest
      | some name =>
          have hfirst : (ofUnit before name (line :: (front ++ back))).startLine
              ≤ before + (front.length + 1) := by
            show before + 1 ≤ before + (front.length + 1)
            omega
          refine (congrArg (List.map head) (List.filter_cons_of_pos
            (decide_eq_true hfirst))).trans ?_
          rw [List.map_cons, hrest]
          rfl

/-- A block that ends before the last line is found whatever follows. -/
theorem mem_scanFrom_append {block : Block} {before : Nat}
    {front : List LineProfile} (back : List LineProfile)
    (hblock : block ∈ scanFrom before front)
    (hend : block.endLine < before + front.length) :
    block ∈ scanFrom before (front ++ back) := by
  obtain ⟨above, line, rest, name, rfl, hunit, rfl⟩ :=
    mem_scanFrom_iff.mp hblock
  have hspan : span (line :: rest) < rest.length := by
    have hlt : before + above.length + 1 + span (line :: rest)
        < before + (above ++ line :: rest).length := hend
    rw [List.length_append, List.length_cons] at hlt
    omega
  refine mem_scanFrom_iff.mpr ⟨above, line, rest ++ back, name, ?_, hunit, ?_⟩
  · rw [List.append_assoc, List.cons_append]
  · exact (ofUnit_append hspan _ name back).symm

/-- **SCANNING IN PARTS**: where a text is cut behind a newline, the blocks
    that start behind the cut are those of the second part, further down;
    the units that start before it are those of the first part; and every
    block of the first part that ends before its last line is found in the
    whole as it is. -/
theorem scan_append_parts {front : Text}
    (h : front = [] ∨ front.getLast? = some '\n') (back : Text)
    (language : Option Language) :
    let n := (Text.lines front).length
    (scan (front ++ back) language).filter (n < ·.startLine)
        = (scan back language).map (shift n)
      ∧ ((scan (front ++ back) language).filter (·.startLine ≤ n)).map head
        = (scan front language).map head
      ∧ ∀ block ∈ scan front language,
        block.endLine < n → block ∈ scan (front ++ back) language := by
  intro n
  unfold scan
  cases hmarks : language.bind BlockMarks.ofLanguage? with
  | none => exact ⟨rfl, rfl, fun _ hblock => nomatch hblock⟩
  | some marks =>
      -- at the end of a line the lines of both parts are those of the whole
      simp only [scanLines_eq hmarks, Text.lines_append_parts h, List.map_append]
      have hn : ((Text.lines front).map marks.profile).length = n :=
        List.length_map _
      refine ⟨?_, ?_, ?_⟩
      · have hbehind := filter_scanFrom_behind
          ((Text.lines back).map marks.profile)
          ((Text.lines front).map marks.profile) 0
        rw [hn, scanFrom_add] at hbehind
        simpa using hbehind
      · have hbefore := map_head_scanFrom_before
          ((Text.lines back).map marks.profile)
          ((Text.lines front).map marks.profile) 0
        rw [hn] at hbefore
        simpa using hbefore
      · intro block hblock hend
        refine mem_scanFrom_append _ hblock ?_
        rw [hn]
        omega

/-- A method on one line, and the head of a method. -/
def cartTop : Text := "def size() = 3\ndef total\n".toList

/-- The rest of that method, and another method. -/
def cartRest : Text := "  1\nend\ndef area\nend\n".toList

/-- The third method is found two lines further down, and the first one as
    it is; the second one goes on behind the cut. -/
theorem scan_cartTop_cartRest :
    cartTop.getLast? = some '\n'
      ∧ ((scan (cartTop ++ cartRest) (some .ruby)).filter
          (2 < ·.startLine)).map head = [("area", 5)]
      ∧ ((scan (cartTop ++ cartRest) (some .ruby)).filter
          (·.startLine ≤ 2)).map head = [("size", 1), ("total", 2)]
      ∧ ∃ block ∈ scan (cartTop ++ cartRest) (some .ruby),
          block.head = ("size", 1) ∧ block.endLine = 1 := by
  have hnewline : cartTop.getLast? = some '\n' := by decide
  obtain ⟨hbehind, hbefore, hends⟩ :=
    scan_append_parts (.inr hnewline) cartRest (some .ruby)
  have hlength : (Text.lines cartTop).length = 2 := by decide +kernel
  rw [hlength] at hbehind hbefore hends
  refine ⟨hnewline, ?_, ?_, ?_⟩
  · rw [hbehind]
    decide +kernel
  · rw [hbefore]
    decide +kernel
  · obtain ⟨block, hblock, hhead, hend⟩ : ∃ block ∈ scan cartTop (some .ruby),
        block.head = ("size", 1) ∧ block.endLine = 1 := by
      decide +kernel
    exact ⟨block, hends block hblock (by omega), hhead, hend⟩

end Block

end CodeReview
