import CodeReview.Proofs.Lines
import CodeReview.Proofs.UnitNames

/-! # Well-nested programs

    A forest of lines: plain lines, units on one line, and nodes with an
    opening line, a forest and a closing line.  Each line carries what the
    marks of a language count on it, so a forest is well nested by
    construction.

    Each unit is closed by a sweep of its own.  Once a block is open, a
    sweep passes a well-nested stretch and comes out at the depth at which
    it went in (`sweepFrom_nested`); so the sweep of a node stops exactly
    at its own closing line, and scanning the printed forest finds the
    blocks that the forest says it has (`scan_print_forest`). -/

namespace CodeReview

namespace Block

/-! ## Sweeping over nested lines -/

/-- A stretch of lines whose openers and closers match up, one on a
    line. -/
inductive Nested : List LineProfile → Prop
  | nil : Nested []
  | plain {line : LineProfile} {rest : List LineProfile}
      (hopens : line.opens = 0) (hcloses : line.closes = 0)
      (hrest : Nested rest) : Nested (line :: rest)
  | node {opening closing : LineProfile} {inner rest : List LineProfile}
      (hopening : opening.opens = 1 ∧ opening.closes = 0)
      (hinner : Nested inner)
      (hclosing : closing.opens = 0 ∧ closing.closes = 1)
      (hrest : Nested rest) :
      Nested (opening :: (inner ++ closing :: rest))

/-- One line of a sweep in which a block is open. -/
theorem sweepFrom_opened_cons (depth : Int) (offset last : Nat)
    (line : LineProfile) (rest : List LineProfile) :
    sweepFrom depth true offset last (line :: rest)
      = if depth + line.opens - line.closes ≤ 0 then offset
        else
          sweepFrom (depth + line.opens - line.closes) true (offset + 1)
            (if line.isBlank then last else offset) rest := by
  simp [sweepFrom]

/-- Once a block is open, it no longer matters where the last line with
    text was. -/
theorem sweepFrom_opened_last (lines : List LineProfile) :
    ∀ (depth : Int) (offset last last' : Nat),
      sweepFrom depth true offset last lines
        = sweepFrom depth true offset last' lines := by
  induction lines with
  | nil => intro depth offset last last'; rfl
  | cons line rest ih =>
      intro depth offset last last'
      rw [sweepFrom_opened_cons, sweepFrom_opened_cons]
      by_cases hclosed : depth + line.opens - line.closes ≤ 0
      · rw [if_pos hclosed, if_pos hclosed]
      · rw [if_neg hclosed, if_neg hclosed]
        exact ih _ _ _ _

/-- A line that leaves the block open is passed. -/
private theorem sweepFrom_pass {depth : Int} (depth' : Int)
    {line : LineProfile} (hdepth : depth + line.opens - line.closes = depth')
    (hopen : 1 ≤ depth') (offset last last' : Nat) (rest : List LineProfile) :
    sweepFrom depth true offset last (line :: rest)
      = sweepFrom depth' true (offset + 1) last' rest := by
  rw [sweepFrom_opened_cons, hdepth, if_neg (by omega)]
  exact sweepFrom_opened_last rest _ _ _ _

/-- **PASSING A NESTED STRETCH**: a sweep that is inside a block comes out
    of a nested stretch at the depth at which it went in. -/
theorem sweepFrom_nested {lines : List LineProfile} (h : Nested lines) :
    ∀ (depth : Int) (offset last last' : Nat) (rest : List LineProfile),
      1 ≤ depth →
      sweepFrom depth true offset last (lines ++ rest)
        = sweepFrom depth true (offset + lines.length) last' rest := by
  -- the depth is kept general: inside a node it is one more
  induction h with
  | nil =>
      intro depth offset last last' rest _
      exact sweepFrom_opened_last rest _ _ _ _
  | plain hopens hcloses _ ih =>
      intro depth offset last last' rest hdepth
      rw [List.cons_append, sweepFrom_pass depth
        (by rw [hopens, hcloses]; omega) hdepth offset last last',
        ih depth _ last' last' rest hdepth, List.length_cons]
      congr 1
      omega
  | node hopening _ hclosing _ ihinner ihrest =>
      intro depth offset last last' rest hdepth
      rw [List.cons_append, List.append_assoc, List.cons_append,
        sweepFrom_pass (depth + 1)
          (by rw [hopening.1, hopening.2]; omega) (by omega) offset last last',
        ihinner (depth + 1) _ last' last' _ (by omega),
        sweepFrom_pass depth
          (by rw [hclosing.1, hclosing.2]; omega) hdepth _ last' last',
        ihrest depth _ last' last' rest hdepth]
      congr 1
      simp only [List.length_cons, List.length_append]
      omega

/-- The block that is left open on a line ends at the line that closes
    it. -/
theorem span_opening {opening closing : LineProfile}
    {inner : List LineProfile} (rest : List LineProfile)
    (honeLiner : opening.isOneLiner = false)
    (hopening : opening.opens = opening.closes + 1)
    (hinner : Nested inner)
    (hclosing : closing.opens = 0 ∧ closing.closes = 1) :
    span (opening :: (inner ++ closing :: rest)) = inner.length + 1 := by
  have hdepth : (opening.closes : Int) + 1 - opening.closes = 1 := by omega
  have hfirst : sweepFrom 0 false 0 0 (opening :: (inner ++ closing :: rest))
      = sweepFrom 1 true 1 0 (inner ++ closing :: rest) := by
    simp [sweepFrom, hopening, hdepth]
  rw [span, honeLiner, if_neg Bool.false_ne_true, sweep, hfirst,
    sweepFrom_nested hinner 1 1 0 0 _ (Int.le_refl 1), sweepFrom_opened_cons,
    hclosing.1, hclosing.2, if_pos (by omega)]
  omega

/-- The block that an opening line starts ends at the line that closes
    it. -/
theorem span_node {opening closing : LineProfile}
    {inner : List LineProfile} (rest : List LineProfile)
    (honeLiner : opening.isOneLiner = false)
    (hopening : opening.opens = 1 ∧ opening.closes = 0)
    (hinner : Nested inner)
    (hclosing : closing.opens = 0 ∧ closing.closes = 1) :
    span (opening :: (inner ++ closing :: rest)) = inner.length + 1 :=
  span_opening rest honeLiner (by rw [hopening.1, hopening.2]) hinner hclosing

end Block

/-! ## Forests of lines -/

/-- A line without breaks on which the marks of a language see a unit or
    none, and a number of openers and closers. -/
structure MarkedLine (marks : BlockMarks) (unit : Option String)
    (opens closes : Nat) where
  text : Text
  unbroken : '\n' ∉ text ∧ '\r' ∉ text
  unit_eq : marks.unitName text = unit
  opens_eq : (marks.openers text).length = opens
  closes_eq : marks.closers text = closes

/-- A text as a marked line, with all that is asked of it checked at
    once. -/
def MarkedLine.ofText {marks : BlockMarks} {unit : Option String}
    {opens closes : Nat} (text : Text)
    (h : ('\n' ∉ text ∧ '\r' ∉ text) ∧ marks.unitName text = unit
      ∧ (marks.openers text).length = opens ∧ marks.closers text = closes) :
    MarkedLine marks unit opens closes :=
  ⟨text, h.1, h.2.1, h.2.2.1, h.2.2.2⟩

/-- A well-nested program: plain lines, units on one line, and nodes whose
    opening line may start a unit. -/
inductive Forest (marks : BlockMarks) where
  | nil
  | leaf (line : MarkedLine marks none 0 0) (rest : Forest marks)
  | oneLiner (name : String) (line : MarkedLine marks (some name) 0 0)
      (isOneLiner : marks.isOneLiner line.text = true) (rest : Forest marks)
  | node (unit : Option String) (opening : MarkedLine marks unit 1 0)
      (opensMore : marks.isOneLiner opening.text = false)
      (children : Forest marks) (closing : MarkedLine marks none 0 1)
      (rest : Forest marks)

namespace Forest

variable {marks : BlockMarks}

/-- The lines of a forest, in order. -/
def lines : Forest marks → List Text
  | .nil => []
  | .leaf line rest => line.text :: rest.lines
  | .oneLiner _ line _ rest => line.text :: rest.lines
  | .node _ opening _ children closing rest =>
      opening.text :: (children.lines ++ closing.text :: rest.lines)

/-- The text of a forest, a newline after each line. -/
def print (forest : Forest marks) : Text := Text.print forest.lines

/-- The block of a unit on one line that follows a number of others. -/
def lineBlock (before : Nat) (name : String) (line : Text) : Block where
  name := name
  startLine := before + 1
  endLine := before + 1
  body := line
  start_pos := Nat.succ_pos before
  start_le_end := Nat.le_refl _

/-- The block of a unit from its opening to its closing line. -/
def nodeBlock (before : Nat) (name : String) (opening : Text)
    (inner : List Text) (closing : Text) : Block where
  name := name
  startLine := before + 1
  endLine := before + inner.length + 2
  body := Text.unlines (opening :: (inner ++ [closing]))
  start_pos := Nat.succ_pos before
  start_le_end := by omega

/-- The blocks that a forest has, in order, where it follows a number of
    lines: one for each unit on one line and one for each node that starts
    a unit. -/
def blocks (before : Nat) : Forest marks → List Block
  | .nil => []
  | .leaf _ rest => rest.blocks (before + 1)
  | .oneLiner name line _ rest =>
      lineBlock before name line.text :: rest.blocks (before + 1)
  | .node unit opening _ children closing rest =>
      unit.toList.map (fun name =>
          nodeBlock before name opening.text children.lines closing.text)
        ++ children.blocks (before + 1)
        ++ rest.blocks (before + children.lines.length + 2)

/-- The lines of a forest hold no breaks. -/
theorem unbroken (forest : Forest marks) :
    ∀ line ∈ forest.lines, '\n' ∉ line ∧ '\r' ∉ line := by
  induction forest with
  | nil => intro line hline; exact nomatch hline
  | leaf first rest ih =>
      intro line hline
      rcases List.mem_cons.mp hline with rfl | hrest
      · exact first.unbroken
      · exact ih line hrest
  | oneLiner name first _ rest ih =>
      intro line hline
      rcases List.mem_cons.mp hline with rfl | hrest
      · exact first.unbroken
      · exact ih line hrest
  | node unit opening _ children closing rest ihchildren ihrest =>
      intro line hline
      rcases List.mem_cons.mp hline with rfl | htail
      · exact opening.unbroken
      · rcases List.mem_append.mp htail with hinner | htail
        · exact ihchildren line hinner
        · rcases List.mem_cons.mp htail with rfl | hrest
          · exact closing.unbroken
          · exact ihrest line hrest

/-- What the marks of the language say about the lines of a forest. -/
def profiles (forest : Forest marks) : List LineProfile :=
  forest.lines.map marks.profile

private theorem profiles_node (unit : Option String)
    (opening : MarkedLine marks unit 1 0)
    (h : marks.isOneLiner opening.text = false) (children : Forest marks)
    (closing : MarkedLine marks none 0 1) (rest : Forest marks) :
    (node unit opening h children closing rest).profiles
      = marks.profile opening.text
        :: (children.profiles ++ marks.profile closing.text :: rest.profiles) := by
  show (opening.text :: (children.lines ++ closing.text :: rest.lines)).map
    marks.profile = _
  rw [List.map_cons, List.map_append, List.map_cons]
  rfl

/-- The openers and closers of a forest match up. -/
theorem nested_profiles (forest : Forest marks) :
    Block.Nested forest.profiles := by
  induction forest with
  | nil => exact .nil
  | leaf line rest ih => exact .plain line.opens_eq line.closes_eq ih
  | oneLiner name line _ rest ih => exact .plain line.opens_eq line.closes_eq ih
  | node unit opening h children closing rest ihchildren ihrest =>
      rw [profiles_node]
      exact .node ⟨opening.opens_eq, opening.closes_eq⟩ ihchildren
        ⟨closing.opens_eq, closing.closes_eq⟩ ihrest

/-! ## Scanning a forest -/

private theorem scanFrom_none (before : Nat) {line : Text}
    (h : marks.unitName line = none) (rest : List LineProfile) :
    Block.scanFrom before (marks.profile line :: rest)
      = Block.scanFrom (before + 1) rest := by
  have hunit : (marks.profile line).unit = none := h
  rw [Block.scanFrom, hunit]

private theorem scanFrom_some (before : Nat) {line : Text} {name : String}
    (h : marks.unitName line = some name) (rest : List LineProfile) :
    Block.scanFrom before (marks.profile line :: rest)
      = Block.ofUnit before name (marks.profile line :: rest)
        :: Block.scanFrom (before + 1) rest := by
  have hunit : (marks.profile line).unit = some name := h
  rw [Block.scanFrom, hunit]

private theorem ofUnit_oneLiner (before : Nat) (name : String) {line : Text}
    (h : marks.isOneLiner line = true) (rest : List LineProfile) :
    Block.ofUnit before name (marks.profile line :: rest)
      = lineBlock before name line := by
  have hspan : Block.span (marks.profile line :: rest) = 0 := by
    rw [Block.span]
    exact if_pos h
  rw [Block.ofUnit, lineBlock]
  congr 1
  · rw [hspan]
  · rw [hspan]
    rfl

private theorem ofUnit_node (before : Nat) (name : String)
    {unit : Option String} (opening : MarkedLine marks unit 1 0)
    (h : marks.isOneLiner opening.text = false) (children : Forest marks)
    (closing : MarkedLine marks none 0 1) (rest : List LineProfile) :
    Block.ofUnit before name (marks.profile opening.text
        :: (children.profiles ++ marks.profile closing.text :: rest))
      = nodeBlock before name opening.text children.lines closing.text := by
  have hspan : Block.span (marks.profile opening.text
      :: (children.profiles ++ marks.profile closing.text :: rest))
      = children.lines.length + 1 := by
    rw [Block.span_node rest h ⟨opening.opens_eq, opening.closes_eq⟩
      children.nested_profiles ⟨closing.opens_eq, closing.closes_eq⟩,
      profiles, List.length_map]
  have htexts : (children.profiles).map (·.text) = children.lines := by
    rw [profiles, List.map_map]
    exact List.map_id _
  rw [Block.ofUnit, nodeBlock]
  congr 1
  · rw [hspan]
    omega
  · rw [hspan]
    -- the lines of the block are all up to the closing one
    have htake : children.lines.length + 1
        = (children.profiles ++ [marks.profile closing.text]).length := by
      rw [List.length_append, profiles, List.length_map, List.length_singleton]
    rw [List.take_succ_cons, List.append_cons, htake, List.take_left,
      List.map_cons, List.map_append, htexts]
    rfl

/-- **ONE PASS OVER A FOREST**: scanning a forest finds its blocks, and goes
    on behind it. -/
theorem scanFrom_profiles (forest : Forest marks) :
    ∀ (before : Nat) (rest : List LineProfile),
      Block.scanFrom before (forest.profiles ++ rest)
        = forest.blocks before
          ++ Block.scanFrom (before + forest.lines.length) rest := by
  induction forest with
  | nil => intro before rest; rfl
  | leaf line tail ih =>
      intro before rest
      show Block.scanFrom before
        (marks.profile line.text :: (tail.profiles ++ rest)) = _
      rw [scanFrom_none before line.unit_eq, ih, blocks, lines,
        List.length_cons, Nat.add_assoc, Nat.add_comm 1]
  | oneLiner name line h tail ih =>
      intro before rest
      show Block.scanFrom before
        (marks.profile line.text :: (tail.profiles ++ rest)) = _
      rw [scanFrom_some before line.unit_eq, ofUnit_oneLiner before name h,
        ih, blocks, lines, List.length_cons, List.cons_append, Nat.add_assoc,
        Nat.add_comm 1]
  | node unit opening h children closing tail ihchildren ihtail =>
      intro before rest
      -- past the opening line: the children, the closing line, the rest
      have hinner : Block.scanFrom (before + 1) (children.profiles
            ++ marks.profile closing.text :: (tail.profiles ++ rest))
          = children.blocks (before + 1)
            ++ (tail.blocks (before + children.lines.length + 2)
              ++ Block.scanFrom (before + children.lines.length + 2
                  + tail.lines.length) rest) := by
        rw [ihchildren, scanFrom_none _ closing.unit_eq, ihtail,
          show before + 1 + children.lines.length + 1
            = before + children.lines.length + 2 from by omega]
      have hlength : before + (node unit opening h children closing
            tail).lines.length
          = before + children.lines.length + 2 + tail.lines.length := by
        rw [lines, List.length_cons, List.length_append, List.length_cons]
        omega
      rw [hlength, profiles_node, List.cons_append, List.append_assoc,
        List.cons_append]
      cases unit with
      | none =>
          rw [scanFrom_none before opening.unit_eq, hinner, blocks,
            Option.toList_none, List.map_nil, List.nil_append,
            List.append_assoc]
      | some name =>
          rw [scanFrom_some before opening.unit_eq, hinner,
            ofUnit_node before name opening h, blocks, Option.toList_some,
            List.map_singleton, List.append_assoc, List.append_assoc]
          rfl

end Forest

/-- **SCANNING IS EXACT**: the blocks of a printed forest are those of the
    forest: each ends at its own closing line, and there are no others. -/
theorem scan_print_forest {language : Language} {marks : BlockMarks}
    (hmarks : BlockMarks.ofLanguage? language = some marks)
    (forest : Forest marks) :
    Block.scan forest.print (some language) = forest.blocks 0 := by
  rw [Block.scan_eq hmarks, Forest.print, Text.lines_print forest.unbroken]
  -- nothing lies before the forest and nothing behind it
  have hall := forest.scanFrom_profiles 0 []
  rw [List.append_nil] at hall
  exact hall.trans (List.append_nil _)

/-- A method with a branch, and a method on one line. -/
def cartForest : Forest .ruby :=
  .node (some "total")
    (.ofText "def total".toList (by decide +kernel)) (by decide +kernel)
    (.node none
      (.ofText " if any?".toList (by decide +kernel)) (by decide +kernel)
      (.leaf (.ofText "  sum".toList (by decide +kernel)) .nil)
      (.ofText " end".toList (by decide +kernel)) .nil)
    (.ofText "end".toList (by decide +kernel))
    (.oneLiner "size"
      (.ofText "def size() = 3".toList (by decide +kernel))
      (by decide +kernel) .nil)

/-- The method ends at its own closing line, not at that of its branch. -/
theorem scan_cartForest :
    BlockMarks.ofLanguage? .ruby = some .ruby
      ∧ (Block.scan cartForest.print (some .ruby)).map
          (fun block => (block.name, block.startLine, block.endLine))
        = [("total", 1, 5), ("size", 6, 6)] := by
  refine ⟨rfl, ?_⟩
  rw [scan_print_forest rfl cartForest]
  rfl

end CodeReview
