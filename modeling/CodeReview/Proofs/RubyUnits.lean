import CodeReview.Block.Marks
import CodeReview.Proofs.Capture

/-! # Lines that start a Ruby unit

    Three patterns look at the head of a method: one names the unit, one
    counts the word that opens its body, and one recognises a method
    without a body.  They are written apart but agree: where the first one
    matches, the word `def` stands between blanks, so the second one finds
    it too; hence a line that starts a unit either ends it at once or opens
    a block (`isOneLiner_or_mem_openers`). -/

namespace CodeReview

namespace Text

/-- The code points of all blanks. -/
def blankCodes : List Nat :=
  [0x09, 0x0a, 0x0b, 0x0c, 0x0d, 0x1c, 0x1d, 0x1e, 0x1f, 0x20, 0x85, 0xa0,
   0x1680, 0x2000, 0x2001, 0x2002, 0x2003, 0x2004, 0x2005, 0x2006, 0x2007,
   0x2008, 0x2009, 0x200a, 0x2028, 0x2029, 0x202f, 0x205f, 0x3000]

/-- A blank is one of the characters of a short table. -/
theorem toNat_mem_blankCodes {c : Char} (h : isBlank c = true) :
    c.toNat ∈ blankCodes := by
  have hcode : c.toNat = c.val.toNat := rfl
  simp only [isBlank, Bool.or_eq_true, Bool.and_eq_true, decide_eq_true_eq,
    beq_iff_eq, UInt32.le_iff_toNat_le, ← UInt32.toNat_inj] at h
  simp only [blankCodes, List.mem_cons, List.not_mem_nil, or_false, hcode]
  rcases h with (((((((((h | h) | h) | h) | h) | h) | h) | h) | h) | h) | h
  all_goals simp only [UInt32.reduceToNat] at h; omega

/-- What holds of every blank in the table holds of every blank. -/
theorem of_isBlank {P : Char → Prop}
    (h : ∀ n ∈ blankCodes, P (Char.ofNat n)) {c : Char}
    (hc : isBlank c = true) : P c := by
  have hcode := h c.toNat (toNat_mem_blankCodes hc)
  rwa [Char.ofNat_toNat] at hcode

/-- No blank is part of a word. -/
theorem isWord_of_isBlank {c : Char} (h : isBlank c = true) :
    isWord c = false :=
  of_isBlank (P := fun c => isWord c = false) (by decide +kernel) h

end Text

/-! ## Places in a text -/

/-- Whether a place lies in a text: the text behind it is what is left of
    the text, and the character before it is the last one passed. -/
def Cursor.LiesIn (text : Text) (s : Cursor) : Prop :=
  ∃ passed, text = passed ++ s.rest ∧ s.before = passed.getLast?

/-- The start of a text lies in it. -/
theorem Cursor.liesIn_atStart (text : Text) : (atStart text).LiesIn text :=
  ⟨[], rfl, rfl⟩

namespace Pattern

/-- **PLACES**: from a place in a text, a pattern leads to places in that
    text. -/
theorem liesIn_results {text : Text} (p : Pattern) :
    ∀ s, ∀ t ∈ p.results s, s.LiesIn text → t.LiesIn text := by
  refine Carries.of_mem_results
    (R := fun s t => s.LiesIn text → t.LiesIn text)
    ⟨fun _ hs => hs, fun _ _ _ hst htu hs => htu (hst hs), ?_,
      fun _ _ _ _ hst => hst⟩
  -- the only step that moves: the character read is now the last one passed
  rintro p s t ht ⟨passed, htext, _⟩
  obtain ⟨c, hrest, _, hbefore, _⟩ := of_mem_results_one ht
  refine ⟨passed ++ [c], ?_, ?_⟩
  · rw [htext, hrest, List.append_assoc, List.singleton_append]
  · rw [hbefore, List.getLast?_concat]

/-! ## Occurrences -/

/-- A pattern that has a way to match behind some stretch has a match. -/
theorem findAllFrom_ne_nil {p : Pattern} {rest : Text} :
    ∀ {passed : Text} {before : Option Char} {offset : Nat},
      p.results ⟨passed.getLast?.or before, rest, offset + passed.length, []⟩
        ≠ [] →
      p.findAllFrom before offset 0 (passed ++ rest) ≠ [] := by
  intro passed
  induction passed with
  | nil =>
      intro before offset h
      obtain ⟨m, hm⟩ : ∃ m, p.matchAt ⟨before, rest, offset, []⟩ = some m := by
        rw [matchAt_eq]
        obtain ⟨t, ts, hresults⟩ := List.exists_cons_of_ne_nil h
        exact ⟨_, congrArg (fun found => List.head? (List.map _ found)) hresults⟩
      cases rest with
      | nil => simp [findAllFrom, hm]
      | cons c rest => simp [findAllFrom, hm]
  | cons c passed ih =>
      intro before offset h
      have hlater : p.findAllFrom (some c) (offset + 1) 0 (passed ++ rest)
          ≠ [] := by
        refine ih ?_
        rw [List.getLast?_cons, List.length_cons, ← Nat.add_assoc,
          Nat.add_right_comm] at h
        cases hlast : passed.getLast? with
        | none => rwa [hlast] at h
        | some d => rwa [hlast] at h
      rw [List.cons_append, findAllFrom]
      split
      · exact hlater
      · exact List.cons_ne_nil _ _

/-- A pattern that matches at a place in a text occurs in it. -/
theorem count_pos_of_results {p : Pattern} {passed rest : Text}
    (h : p.results ⟨passed.getLast?, rest, passed.length, []⟩ ≠ []) :
    0 < p.count (passed ++ rest) := by
  refine List.length_pos_iff.mpr (findAllFrom_ne_nil ?_)
  rwa [Option.or_none, Nat.zero_add]

end Pattern

namespace BlockMarks

open Pattern

/-! ## The word that starts a unit -/

/-- Whether nothing but a blank stands right before a place. -/
def AfterBlank (s : Cursor) : Prop := s.before.all Text.isBlank = true

/-- Behind a blank, a blank stands before. -/
theorem afterBlank_of_mem_blank {s t : Cursor} (h : t ∈ blank.results s) :
    AfterBlank t := by
  obtain ⟨c, _, hc, hbefore, _⟩ := of_mem_results_one h
  rw [AfterBlank, hbefore]
  exact hc

/-- Blanks that may be missing keep what stands before them, if nothing is
    read. -/
theorem afterBlank_of_mem_blanks {s t : Cursor} (h : t ∈ blanks.results s)
    (hs : AfterBlank s) : AfterBlank t :=
  iterate_preserves (R := fun s t => AfterBlank s → AfterBlank t)
    (fun _ hs => hs) (fun _ _ _ hst htu hs => htu (hst hs))
    (fun _ _ ht _ => afterBlank_of_mem_blank ht) false _ s t h hs

/-- Behind at least one blank, a blank stands before. -/
theorem afterBlank_of_mem_someBlanks {s t : Cursor}
    (h : t ∈ someBlanks.results s) : AfterBlank t := by
  obtain ⟨u, hfirst, hmore⟩ := mem_results_seq.mp h
  exact afterBlank_of_mem_blanks hmore (afterBlank_of_mem_blank hfirst)

/-- A line that starts a unit holds the word `def` with a blank on either
    side, or the start of the line before it. -/
theorem exists_def_of_rubyUnit {line : Text} {m : Match}
    (h : rubyUnit.matchStart line = some m) :
    ∃ passed c rest, line = passed ++ 'd' :: 'e' :: 'f' :: c :: rest
      ∧ passed.getLast?.all Text.isBlank = true ∧ Text.isBlank c = true := by
  obtain ⟨t, ht⟩ : ∃ t, t ∈ rubyUnit.results (.atStart line) := by
    rw [matchStart, matchAt_eq] at h
    obtain ⟨t, ht, _⟩ := List.mem_map.mp (List.mem_of_head? h)
    exact ⟨t, ht⟩
  -- the parts of the pattern, from the last one to the first
  obtain ⟨_, ht, _⟩ := mem_results_seq.mp ht
  obtain ⟨_, ht, _⟩ := mem_results_seq.mp ht
  obtain ⟨behind, ht, hblank⟩ := mem_results_seq.mp ht
  obtain ⟨word, ht, hdef⟩ := mem_results_seq.mp ht
  obtain ⟨margin, hmargin, hprefix⟩ := mem_results_seq.mp ht
  obtain ⟨start, hstart, hindent⟩ := mem_results_seq.mp hmargin
  have hafter : AfterBlank word := by
    rcases List.mem_append.mp hprefix with hword | hnone
    · obtain ⟨_, _, hspace⟩ := mem_results_seq.mp hword
      exact afterBlank_of_mem_someBlanks hspace
    · rw [List.mem_singleton.mp hnone]
      refine afterBlank_of_mem_blanks hindent ?_
      rw [List.mem_singleton.mp hstart]
      rfl
  obtain ⟨passed, hline, hbefore⟩ :=
    liesIn_results _ _ word ht (Cursor.liesIn_atStart line)
  obtain ⟨hrest, _⟩ := of_mem_results_text hdef
  obtain ⟨next, hfirst, _⟩ := mem_results_seq.mp hblank
  obtain ⟨c, hc, hisBlank, _⟩ := of_mem_results_one hfirst
  refine ⟨passed, c, next.rest, ?_, ?_, hisBlank⟩
  · rw [hline, hrest, hc]
    rfl
  · rw [← hbefore]
    exact hafter

/-- The word `def` between blanks counts as one. -/
theorem results_rubyWord_def {before : Option Char} {c : Char} (rest : Text)
    (offset : Nat) (hbefore : before.all Text.isBlank = true)
    (hc : Text.isBlank c = true) :
    (rubyWord "def").results
      ⟨before, 'd' :: 'e' :: 'f' :: c :: rest, offset, []⟩ ≠ [] := by
  -- the way leads behind the three letters, where the blank ends the word
  let behind : Cursor := ⟨some 'f', c :: rest, offset + 1 + 1 + 1, []⟩
  -- nothing before the word makes it part of another one
  have hfree : before.any (fun c => Text.isWord c || c == '.' || c == ':')
      = false := by
    cases before with
    | none => rfl
    | some b =>
        have hmark : ¬ (b = '.' ∨ b = ':') := Text.of_isBlank
          (P := fun c => ¬ (c = '.' ∨ c = ':')) (by decide) hbefore
        simpa [Text.isWord_of_isBlank hbefore] using hmark
  have hedge : behind.isAt .word = true := by
    simp only [behind, Cursor.isAt, Cursor.wordAt, List.head?_cons,
      Option.any_some, Text.isWord_of_isBlank hc]
    decide
  have hahead : (oneOf "?!:").results behind = [] := by
    have hmark : "?!:".toList.contains c = false := Text.of_isBlank
      (P := fun c => "?!:".toList.contains c = false) (by decide) hc
    show (if "?!:".toList.contains c = true then some _ else none).toList = []
    rw [hmark]
    rfl
  have hlast : behind ∈ (notAhead (oneOf "?!:")).results behind := by
    rw [notAhead, results, hahead]
    exact List.mem_singleton_self _
  refine List.ne_nil_of_mem (mem_results_seq.mpr ⟨behind, ?_, hlast⟩)
  refine mem_results_seq.mpr ⟨behind, ?_, ?_⟩
  · refine mem_results_seq.mpr
      ⟨⟨before, 'd' :: 'e' :: 'f' :: c :: rest, offset, []⟩, ?_, ?_⟩
    · rw [results, hfree]
      exact List.mem_singleton_self _
    · exact List.mem_singleton_self _
  · rw [wordEdge, results, hedge]
    exact List.mem_singleton_self _

/-- **RUBY UNITS**: a line that starts a unit ends it, or opens a block with
    the word `def`. -/
theorem isOneLiner_or_mem_openers {line : Text}
    (h : ruby.unitName line ≠ none) :
    ruby.isOneLiner line = true ∨ .defWord ∈ ruby.openers line := by
  obtain ⟨m, hm⟩ : ∃ m, rubyUnit.matchStart line = some m := by
    refine Option.ne_none_iff_exists'.mp fun hnone => h ?_
    show firstName [rubyUnit] [] line = none
    simp [firstName, hnone]
  obtain ⟨passed, c, rest, rfl, hpassed, hc⟩ := exists_def_of_rubyUnit hm
  have hcount : 0 < (rubyWord "def").count
      (passed ++ 'd' :: 'e' :: 'f' :: c :: rest) :=
    count_pos_of_results (results_rubyWord_def rest _ hpassed hc)
  have hraw : .defWord
      ∈ rubyRawOpeners (passed ++ 'd' :: 'e' :: 'f' :: c :: rest) := by
    refine List.mem_append_left _ (List.mem_flatMap.mpr
      ⟨.defWord, List.mem_cons_self, ?_⟩)
    exact List.mem_replicate.mpr ⟨Nat.ne_of_gt hcount, rfl⟩
  -- a `def` is taken back only where the line is an endless method
  by_cases hendless : rubyEndlessDef.startsIn
      (passed ++ 'd' :: 'e' :: 'f' :: c :: rest) = true
  · exact .inl hendless
  · refine .inr ?_
    show _ ∈ rubyOpeners _
    rw [rubyOpeners, if_neg hendless]
    split
    · exact (List.mem_erase_of_ne (by decide)).mpr hraw
    · exact hraw

end BlockMarks

end CodeReview
