import CodeReview.Proofs.Stretches

/-! # Loops and their `do`

    The word of a loop opens a block wherever a statement can start, and
    its `do` should not open another one.  Which `do` is dropped is decided
    by a pattern of its own, which asks only whether the line begins with
    the word of a loop.  So the two agree on some lines and not on others:
    `openers_loops` says on which. -/

namespace CodeReview.BlockMarks

open Pattern

/-! ## Lines that begin with the word of a loop -/

/-- The loops. -/
def loops : List Opener := [.whileWord, .untilWord, .forWord]

/-- Whether a line begins with the word of a loop, before a given rest. -/
def LoopBefore (line rest : Text) : Prop :=
  ∃ margin : Text, ∃ kind ∈ loops, line = margin ++ kind.text.toList ++ rest
    ∧ (∀ c ∈ margin, Text.isBlank c = true)
    ∧ Cursor.wordAt rest.head? = false

/-- Whether a line begins with the word of a loop. -/
def BeginsWithLoop (line : Text) : Prop := ∃ rest, LoopBefore line rest

/-- The word of a loop ends with a letter. -/
theorem wordAt_getLast?_text {kind : Opener} (h : kind ∈ loops) :
    Cursor.wordAt kind.text.toList.getLast? = true := by
  have hall : ∀ kind ∈ loops,
      Cursor.wordAt kind.text.toList.getLast? = true := by decide +kernel
  exact hall kind h

/-- The pattern of loop words reads the words of the loops. -/
theorem reads_loops :
    (texts ["while", "until", "for"]).Reads fun w =>
      ∃ kind ∈ loops, w = kind.text.toList := by
  refine (reads_texts (loops.map Opener.text)).congr fun w => ?_
  simp only [List.mem_map]
  constructor
  · rintro ⟨_, ⟨kind, hkind, rfl⟩, rfl⟩
    exact ⟨kind, hkind, rfl⟩
  · rintro ⟨kind, hkind, rfl⟩
    exact ⟨_, ⟨kind, hkind, rfl⟩, rfl⟩

/-- The place behind the margin and the first word of a line. -/
def behindWord (margin word rest : Text) : Cursor :=
  ((Cursor.atStart (margin ++ word ++ rest)).pass margin).pass word

/-- Behind a word stands the rest of its line. -/
theorem rest_behindWord (margin word rest : Text) :
    (behindWord margin word rest).rest = rest := by
  rw [behindWord, ← Cursor.pass_append]
  exact List.drop_left

/-- The margin of a line is passed first. -/
theorem pass_margin_mem {margin : Text}
    (h : ∀ c ∈ margin, Text.isBlank c = true) (word rest : Text) :
    (Cursor.atStart (margin ++ word ++ rest)).pass margin
      ∈ (edge .textStart ++ blanks).results
          (.atStart (margin ++ word ++ rest)) := by
  refine mem_results_seq.mpr ⟨_, mem_results_edge.mpr ⟨rfl, rfl⟩, ?_⟩
  refine (reads_many Text.isBlank _ _).mpr ⟨margin, h, ?_, rfl⟩
  show margin <+: margin ++ word ++ rest
  rw [List.append_assoc]
  exact List.prefix_append _ _

/-- Then comes the word. -/
theorem behindWord_mem (margin rest : Text) {p : Pattern} {L : Text → Prop}
    (hp : p.Reads L) {word : Text} (hword : L word) :
    behindWord margin word rest
      ∈ p.results ((Cursor.atStart (margin ++ word ++ rest)).pass margin) := by
  refine (hp _ _).mpr ⟨word, hword, ?_, rfl⟩
  show word <+: (margin ++ word ++ rest).drop margin.length
  rw [List.append_assoc, List.drop_left]
  exact List.prefix_append _ _

/-- Behind the word of a loop there is an edge unless the word goes on. -/
theorem isAt_word_behindWord {kind : Opener} (hkind : kind ∈ loops)
    (margin rest : Text) :
    (behindWord margin kind.text.toList rest).isAt .word = true
      ↔ Cursor.wordAt rest.head? = false := by
  have hiff := Cursor.isAt_word_pass (s := (Cursor.atStart
    (margin ++ kind.text.toList ++ rest)).pass margin)
    (wordAt_getLast?_text hkind)
  rwa [← behindWord, rest_behindWord] at hiff

/-- The pattern for the loops that keep their `do` asks for the first word
    of the line, and for nothing behind it. -/
theorem startsIn_rubyLoopStart {line : Text} :
    rubyLoopStart.startsIn line = true ↔ BeginsWithLoop line := by
  rw [startsIn_iff]
  constructor
  · -- what was read, from the back: the edge, the word, the margin
    intro hne
    obtain ⟨t, ht⟩ := List.exists_mem_of_ne_nil _ hne
    obtain ⟨u, hu, hedge⟩ := mem_results_seq.mp ht
    obtain ⟨v, hv, htexts⟩ := mem_results_seq.mp hu
    obtain ⟨s, hs, hblanks⟩ := mem_results_seq.mp hv
    obtain ⟨_, rfl⟩ := mem_results_edge.mp hs
    obtain ⟨margin, hmargin, hstretch, rfl⟩ :=
      (reads_many Text.isBlank _ v).mp hblanks
    obtain ⟨_, ⟨kind, hkind, rfl⟩, hstretch', rfl⟩ :=
      (reads_loops _ u).mp htexts
    obtain ⟨hword, _⟩ := mem_results_edge.mp hedge
    refine ⟨_, margin, kind, hkind, ?_, hmargin,
      (Cursor.isAt_word_pass (wordAt_getLast?_text hkind)).mp hword⟩
    rw [List.append_assoc, ← Cursor.rest_eq_append hstretch',
      ← Cursor.rest_eq_append hstretch]
    rfl
  · rintro ⟨rest, margin, kind, hkind, rfl, hmargin, hrest⟩
    have hplace : behindWord margin kind.text.toList rest
        ∈ (edge .textStart ++ blanks
          ++ texts ["while", "until", "for"]).results _ :=
      mem_results_seq.mpr ⟨_, pass_margin_mem hmargin _ rest,
        behindWord_mem margin rest reads_loops ⟨kind, hkind, rfl⟩⟩
    have hedge : behindWord margin kind.text.toList rest
        ∈ wordEdge.results (behindWord margin kind.text.toList rest) :=
      mem_results_edge.mpr
        ⟨(isAt_word_behindWord hkind margin rest).mpr hrest, rfl⟩
    exact List.ne_nil_of_mem (mem_results_seq.mpr ⟨_, hplace, hedge⟩)

/-- A loop that begins a line counts, unless its word is a key or the name
    of a method. -/
theorem count_rubyStatementWord_pos {kind : Opener} (hkind : kind ∈ loops)
    {margin rest : Text} (hmargin : ∀ c ∈ margin, Text.isBlank c = true)
    (hword : Cursor.wordAt rest.head? = false)
    (hmark : rest.head?.any "?!:".toList.contains = false) :
    0 < (rubyStatementWord kind.text).count
      (margin ++ kind.text.toList ++ rest) := by
  -- the first of the places where a statement can start
  have hstart : (Cursor.atStart (margin ++ kind.text.toList ++ rest)).pass margin
      ∈ rubyStatementStart.results
          (.atStart (margin ++ kind.text.toList ++ rest)) :=
    List.mem_append_left _ (List.mem_append_left _ (List.mem_append_left _
      (pass_margin_mem hmargin _ rest)))
  have hplace : behindWord margin kind.text.toList rest
      ∈ (rubyStatementStart ++ text kind.text).results _ :=
    mem_results_seq.mpr
      ⟨_, hstart, behindWord_mem margin rest (reads_text kind.text) rfl⟩
  have hedge : behindWord margin kind.text.toList rest
      ∈ wordEdge.results (behindWord margin kind.text.toList rest) :=
    mem_results_edge.mpr
      ⟨(isAt_word_behindWord hkind margin rest).mpr hword, rfl⟩
  have hahead : behindWord margin kind.text.toList rest
      ∈ (notAhead (oneOf "?!:")).results
          (behindWord margin kind.text.toList rest) := by
    refine mem_results_ahead.mpr ⟨?_, rfl⟩
    have hnone : (oneOf "?!:").results
        (behindWord margin kind.text.toList rest) = [] := by
      refine List.eq_nil_iff_forall_not_mem.mpr fun t ht => ?_
      obtain ⟨_, ⟨c, hc, rfl⟩, ⟨more, hmore⟩, _⟩ := (reads_one _ _ t).mp ht
      rw [rest_behindWord] at hmore
      rw [← hmore] at hmark
      exact absurd hc (by simpa using hmark)
    rw [hnone]
    decide
  have hmatch : behindWord margin kind.text.toList rest
      ∈ (rubyStatementWord kind.text).results
          (.atStart (margin ++ kind.text.toList ++ rest)) :=
    mem_results_seq.mpr ⟨_, mem_results_seq.mpr ⟨_, hplace, hedge⟩, hahead⟩
  show 0 < (rubyStatementWord kind.text).count
    ([] ++ (margin ++ kind.text.toList ++ rest))
  exact count_pos_of_results (List.ne_nil_of_mem hmatch)

/-! ## Counting -/

/-- How many loops count on a line. -/
def loopCount (line : Text) : Nat := (ruby.openers line).countP loops.contains

/-- How many times `do` stays counted on a line. -/
def doCount (line : Text) : Nat := (ruby.openers line).count .doWord

/-- How many times `do` stands on a line as a word of its own. -/
def doWords (line : Text) : Nat := (rubyWord Opener.doWord.text).count line

/-- The openers of a line hold as many `do` as the line has words `do`. -/
theorem count_doWord_rubyRawOpeners (line : Text) :
    (rubyRawOpeners line).count .doWord = doWords line := by
  simp [rubyRawOpeners, rubyWordOpeners, rubyStatementOpeners, occurrences,
    List.count_replicate, doWords]

/-- What is discounted is one `do`, on lines that begin with the word of a
    loop. -/
theorem doCount_eq (line : Text) [Decidable (BeginsWithLoop line)] :
    doCount line
      = if BeginsWithLoop line then doWords line - 1 else doWords line := by
  have hdef : ∀ found : List Opener,
      (found.erase .defWord).count .doWord = found.count .doWord :=
    fun found => List.count_erase_of_ne (by decide)
  rw [doCount, ← count_doWord_rubyRawOpeners]
  show (rubyOpeners line).count .doWord = _
  simp only [rubyOpeners, startsIn_rubyLoopStart]
  split <;> split <;> simp [hdef]

/-- Taking away an opener that is no loop leaves the number of loops. -/
theorem countP_loops_erase {kind : Opener} (h : loops.contains kind = false)
    (found : List Opener) :
    (found.erase kind).countP loops.contains
      = found.countP loops.contains := by
  by_cases hmem : kind ∈ found
  · rw [(List.perm_cons_erase hmem).countP_eq, List.countP_cons_of_neg]
    rw [h]
    exact Bool.false_ne_true
  · rw [List.erase_of_not_mem hmem]

/-- Loops are never discounted. -/
theorem loopCount_eq (line : Text) :
    loopCount line = (rubyRawOpeners line).countP loops.contains := by
  have hdo := countP_loops_erase (show loops.contains .doWord = false from rfl)
  have hdef := countP_loops_erase
    (show loops.contains .defWord = false from rfl)
  show (rubyOpeners line).countP _ = _
  simp only [rubyOpeners]
  split <;> split <;> simp only [hdo, hdef]

/-- A line that states a loop counts at least one. -/
theorem loopCount_pos {kind : Opener} (hkind : kind ∈ loops) {line : Text}
    (h : 0 < (rubyStatementWord kind.text).count line) :
    0 < loopCount line := by
  have hstatement : ∀ kind ∈ loops, kind ∈ rubyStatementOpeners := by decide
  rw [loopCount_eq, List.countP_pos_iff]
  refine ⟨kind, List.mem_append_right _ (List.mem_flatMap.mpr
    ⟨kind, hstatement kind hkind, ?_⟩), List.contains_iff_mem.mpr hkind⟩
  exact List.mem_replicate.mpr ⟨Nat.ne_of_gt h, rfl⟩

/-- **LOOPS AND THEIR DO**: on a line with one loop and at most one `do`,
    the two count as one opener exactly if there is no `do` or the line
    begins with the word of a loop; on a line without loops, every `do`
    stays counted exactly if there is none or the line does not begin with
    such a word, which is then a key or the name of a method. -/
theorem openers_loops (line : Text) :
    (loopCount line = 1 → doWords line ≤ 1 →
        (loopCount line + doCount line = 1
          ↔ doWords line = 0 ∨ BeginsWithLoop line))
      ∧ (loopCount line = 0 →
        (doCount line = doWords line
          ↔ doWords line = 0 ∨ ¬ BeginsWithLoop line))
      ∧ (loopCount line = 0 → ∀ rest, LoopBefore line rest →
        rest.head?.any "?!:".toList.contains = true) := by
  classical
  -- one `do` less is counted where the line begins with a loop word
  have hcount := doCount_eq line
  refine ⟨?_, ?_, ?_⟩
  · intro hloops hdos
    by_cases hbegins : BeginsWithLoop line
    · rw [if_pos hbegins] at hcount
      exact iff_of_true (by omega) (.inr hbegins)
    · rw [if_neg hbegins] at hcount
      constructor
      · intro hpair
        exact .inl (by omega)
      · rintro (hnone | hbegins')
        · omega
        · exact absurd hbegins' hbegins
  · intro _
    by_cases hbegins : BeginsWithLoop line
    · rw [if_pos hbegins] at hcount
      constructor
      · intro hsame
        exact .inl (by omega)
      · rintro (hnone | hnot)
        · omega
        · exact absurd hbegins hnot
    · rw [if_neg hbegins] at hcount
      exact iff_of_true hcount (.inr hbegins)
  · -- a loop word that is not counted must be disqualified by the mark behind
    -- it
    rintro hloops rest ⟨margin, kind, hkind, rfl, hmargin, hword⟩
    refine Bool.not_eq_false _ ▸ fun hmark => ?_
    have hpos := loopCount_pos hkind
      (count_rubyStatementWord_pos hkind hmargin hword hmark)
    omega

/-- A loop whose value is assigned, and a key that is named like a loop. -/
theorem openers_assignedLoop :
    (loopCount "x = while y do".toList = 1
        ∧ doWords "x = while y do".toList = 1
        ∧ loopCount "x = while y do".toList
          + doCount "x = while y do".toList = 2)
      ∧ loopCount "for: rows.map do |row|".toList = 0
        ∧ doWords "for: rows.map do |row|".toList = 1
        ∧ doCount "for: rows.map do |row|".toList = 0 := by
  decide +kernel

end CodeReview.BlockMarks
