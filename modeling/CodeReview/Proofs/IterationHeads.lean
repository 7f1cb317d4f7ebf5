import CodeReview.Detector.Performance
import CodeReview.Proofs.Stretches

/-! # Heads of iterations

    A line that ends with the head of an iteration, a block with a
    parameter.  Where that is the only head of the line, the search for a
    head finds it (`search_line`): the pattern matches there, and no match
    that starts earlier reaches it, since only the arguments of a call
    could and their parenthesis would have to be closed behind it. -/

namespace CodeReview.Detector

open Pattern

/-! ## What the pattern passes -/

/-- The parts of a head: the method, its arguments, a gap, and what opens
    the body. -/
structure HeadParts where
  method : String
  arguments : Text
  gap : Text
  opener : Text
  method_mem : method ∈ iterationMethods
  arguments_closed : arguments = []
    ∨ ∃ inner, arguments = '(' :: inner ++ [')']
  gap_blank : ∀ c ∈ gap, Text.isBlank c = true
  opener_cases : opener = "do".toList ∨ opener = "\x7b".toList

/-- The text of a head. -/
def HeadParts.text (h : HeadParts) : Text :=
  '.' :: (h.method.toList ++ (h.arguments ++ (h.gap ++ h.opener)))

/-- The name of an iteration's method is one word. -/
theorem isWord_of_mem_method {method : String} (h : method ∈ iterationMethods) :
    ∀ c ∈ method.toList, Text.isWord c = true := by
  have hall : ∀ method ∈ iterationMethods,
      method.toList.all Text.isWord = true := by decide +kernel
  exact List.all_eq_true.mp (hall method h)

/-- The name of an iteration's method ends with a letter. -/
theorem wordAt_getLast?_method {method : String}
    (h : method ∈ iterationMethods) :
    Cursor.wordAt method.toList.getLast? = true := by
  have hall : ∀ method ∈ iterationMethods,
      Cursor.wordAt method.toList.getLast? = true := by decide +kernel
  exact hall method h

/-- The arguments of an iteration stand in parentheses that end at the first
    closing one, or are missing. -/
theorem reads_arguments :
    (opt (char '(' ++ many (noneOf ")") ++ char ')')).Reads fun w =>
      (∃ inner, (∀ c ∈ inner, (!")".toList.contains c) = true)
          ∧ w = '(' :: inner ++ [')'])
        ∨ w = [] := by
  refine reads_opt ((reads_seq (reads_seq (reads_char '(') (reads_many _))
    (reads_char ')')).congr fun w => ?_)
  constructor
  · rintro ⟨_, _, rfl, ⟨_, inner, rfl, rfl, hinner⟩, rfl⟩
    exact ⟨inner, hinner, rfl⟩
  · rintro ⟨inner, hinner, rfl⟩
    exact ⟨'(' :: inner, [')'], rfl, ⟨['('], inner, rfl, rfl, hinner⟩, rfl⟩

/-- What opens a body, the word or the brace. -/
theorem of_mem_opener {s t : Cursor}
    (h : t ∈ (text "do" ++ wordEdge ||| char '{').results s) :
    ∃ w, (w = "do".toList ∨ w = "\x7b".toList) ∧ w <+: s.rest
      ∧ t = s.pass w := by
  rcases List.mem_append.mp h with hdo | hbrace
  · obtain ⟨u, hu, hedge⟩ := mem_results_seq.mp hdo
    obtain ⟨_, rfl⟩ := mem_results_edge.mp hedge
    obtain ⟨w, hw, hstretch, ht⟩ := (reads_text "do" s t).mp hu
    exact ⟨w, .inl hw, hstretch, ht⟩
  · obtain ⟨w, hw, hstretch, ht⟩ := (reads_char '{' s t).mp hbrace
    exact ⟨w, .inr hw, hstretch, ht⟩

/-- **WHAT A HEAD IS**: a match of the pattern passes a head and remembers
    its method and its opener; behind the method no word goes on. -/
theorem of_mem_iterationHead {s t : Cursor}
    (h : t ∈ iterationHead.results s) :
    ∃ head : HeadParts, s.rest = head.text ++ t.rest
      ∧ t.offset = s.offset + head.text.length
      ∧ Cursor.wordAt (head.arguments
          ++ (head.gap ++ (head.opener ++ t.rest))).head? = false
      ∧ t.captures.lookup 1 = some ⟨s.offset + 1, head.method.toList⟩
      ∧ (t.captures.lookup 2).map Capture.text = some head.opener := by
  obtain ⟨beforeBody, h4, hbody⟩ := mem_results_seq.mp h
  obtain ⟨behindArguments, h3, hgap⟩ := mem_results_seq.mp h4
  obtain ⟨behindEdge, h2, harguments⟩ := mem_results_seq.mp h3
  obtain ⟨behindMethod, h1, hedge⟩ := mem_results_seq.mp h2
  obtain ⟨behindDot, hdot, hmethod⟩ := mem_results_seq.mp h1
  -- from the dot to the opener, one part after the other
  obtain ⟨_, rfl, hdotAt, rfl⟩ := (reads_char '.' s _).mp hdot
  obtain ⟨_, ⟨method, hmem, rfl⟩, hmethodAt, rfl⟩ :=
    (reads_texts iterationMethods).mem_results_group.mp hmethod
  obtain ⟨hword, rfl⟩ := mem_results_edge.mp hedge
  obtain ⟨arguments, hclosed, hargumentsAt, rfl⟩ :=
    (reads_arguments _ _).mp harguments
  obtain ⟨gap, hblank, hgapAt, rfl⟩ := (reads_many Text.isBlank _ _).mp hgap
  obtain ⟨u, hu, rfl⟩ := Pattern.mem_results_group.mp hbody
  obtain ⟨opener, hopener, hopenerAt, rfl⟩ := of_mem_opener hu
  have hwordAt := (Cursor.isAt_word_pass (wordAt_getLast?_method hmem)).mp hword
  have hbehind := (Cursor.rest_eq_append hargumentsAt).trans
    (congrArg (arguments ++ ·) ((Cursor.rest_eq_append hgapAt).trans
      (congrArg (gap ++ ·) (Cursor.rest_eq_append hopenerAt))))
  rw [Cursor.remember_pass hopenerAt]
  refine ⟨⟨method, arguments, gap, opener, hmem, ?_, hblank, hopener⟩,
    ?_, ?_, ?_, ?_, ?_⟩
  · rcases hclosed with ⟨inner, _, hinner⟩ | hnone
    · exact .inr ⟨inner, hinner⟩
    · exact .inl hnone
  · have hrest := (Cursor.rest_eq_append hdotAt).trans (congrArg (['.'] ++ ·)
      ((Cursor.rest_eq_append hmethodAt).trans
        (congrArg (method.toList ++ ·) hbehind)))
    simpa [HeadParts.text] using hrest
  · simp only [Cursor.pass, HeadParts.text, List.length_cons, List.length_nil,
      List.length_append]
    omega
  · exact hbehind ▸ hwordAt
  · rfl
  · simp

/-! ## A head at the end of a line -/

/-- What stands behind the head of an iteration: the parameter of its
    body. -/
def parameterText (parameter : Text) : Text :=
  ' ' :: '|' :: (parameter ++ ['|'])

/-- The end of a line: the head of an iteration, and the parameter of its
    body. -/
def headText (method : String) (parameter : Text) : Text :=
  '.' :: (method.toList ++ ' ' :: 'd' :: 'o' :: parameterText parameter)

/-- The pattern matches where a head stands. -/
theorem results_headText_ne_nil {method : String}
    (hmem : method ∈ iterationMethods) (parameter : Text)
    {s : Cursor} (hs : s.rest = headText method parameter) :
    iterationHead.results s ≠ [] := by
  let dot := s.pass ['.']
  let called : Cursor := { dot.pass method.toList with
    captures := (1, ⟨dot.offset, method.toList⟩) :: dot.captures }
  let apart := called.pass [' ']
  let opened := apart.pass ['d', 'o']
  have hdotRest : dot.rest
      = method.toList ++ ' ' :: 'd' :: 'o' :: parameterText parameter := by
    show s.rest.drop 1 = _
    rw [hs]
    rfl
  have hcalledRest : called.rest
      = ' ' :: 'd' :: 'o' :: parameterText parameter := by
    show dot.rest.drop method.toList.length = _
    rw [hdotRest, List.drop_left]
  have hapartRest : apart.rest = 'd' :: 'o' :: parameterText parameter := by
    show called.rest.drop 1 = _
    rw [hcalledRest]
    rfl
  have hopenedRest : opened.rest = parameterText parameter := by
    show apart.rest.drop 2 = _
    rw [hapartRest]
    rfl
  -- the parts of the pattern, from the first one to the last
  have hdot : dot ∈ (char '.').results s :=
    (reads_char '.' _ _).mpr ⟨_, rfl, hs ▸ List.prefix_append ['.'] _, rfl⟩
  have hcalled : called ∈ (group 1 (texts iterationMethods)).results dot :=
    (reads_texts iterationMethods).mem_results_group.mpr
      ⟨_, ⟨method, hmem, rfl⟩, hdotRest ▸ List.prefix_append _ _, rfl⟩
  have hedge : called ∈ wordEdge.results called := by
    refine mem_results_edge.mpr ⟨?_, rfl⟩
    refine (Cursor.isAt_word_pass (s := dot)
      (wordAt_getLast?_method hmem)).mpr ?_
    show Cursor.wordAt called.rest.head? = false
    rw [hcalledRest]
    rfl
  have harguments : called ∈ (opt (char '(' ++ many (noneOf ")")
      ++ char ')')).results called :=
    (reads_arguments _ _).mpr ⟨[], .inr rfl, List.nil_prefix, rfl⟩
  have hgap : apart ∈ blanks.results called :=
    (reads_many Text.isBlank _ _).mpr ⟨[' '], List.forall_mem_singleton.mpr rfl,
      hcalledRest ▸ List.prefix_append [' '] _, rfl⟩
  have hopened : opened ∈ (text "do" ++ wordEdge ||| char '{').results apart := by
    refine List.mem_append_left _ (mem_results_seq.mpr ⟨opened, ?_, ?_⟩)
    · exact (reads_text "do" _ _).mpr
        ⟨['d', 'o'], rfl, hapartRest ▸ List.prefix_append ['d', 'o'] _, rfl⟩
    · refine mem_results_edge.mpr ⟨?_, rfl⟩
      refine (Cursor.isAt_word_pass (s := apart) rfl).mpr ?_
      show Cursor.wordAt opened.rest.head? = false
      rw [hopenedRest]
      rfl
  refine List.ne_nil_of_mem (a := apart.remember opened 2) ?_
  exact mem_results_seq.mpr ⟨apart, mem_results_seq.mpr ⟨called,
    mem_results_seq.mpr ⟨called, mem_results_seq.mpr ⟨called,
      mem_results_seq.mpr ⟨dot, hdot, hcalled⟩, hedge⟩, harguments⟩, hgap⟩,
    Pattern.mem_results_group.mpr ⟨opened, hopened, rfl⟩⟩

/-- Two ways to end a word are one. -/
theorem word_append_inj {v w x y : Text} (hv : ∀ c ∈ v, Text.isWord c = true)
    (hw : ∀ c ∈ w, Text.isWord c = true)
    (hx : Cursor.wordAt x.head? = false) (hy : Cursor.wordAt y.head? = false)
    (h : v ++ x = w ++ y) : v = w ∧ x = y :=
  Text.run_append_inj hv hw hx hy h

/-- **ONE WAY TO MATCH**: where a head stands, every match takes it whole
    and remembers its method and its word. -/
theorem of_mem_results_headText {method : String}
    (hmem : method ∈ iterationMethods) {parameter : Text} {s t : Cursor}
    (hs : s.rest = headText method parameter)
    (ht : t ∈ iterationHead.results s) :
    t.rest = parameterText parameter
      ∧ t.captures.lookup 1 = some ⟨s.offset + 1, method.toList⟩
      ∧ (t.captures.lookup 2).map Capture.text = some ['d', 'o'] := by
  obtain ⟨head, hrest, _, hword, hmethod, hopener⟩ := of_mem_iterationHead ht
  rw [hs] at hrest
  have hbody : method.toList ++ ' ' :: 'd' :: 'o' :: parameterText parameter
      = head.method.toList
        ++ (head.arguments ++ (head.gap ++ (head.opener ++ t.rest))) := by
    simpa [headText, HeadParts.text] using hrest
  obtain ⟨hsame, hbehind⟩ := word_append_inj (isWord_of_mem_method hmem)
    (isWord_of_mem_method head.method_mem) rfl hword hbody
  rw [← hsame] at hmethod
  -- a blank follows the method, so there are no arguments
  have harguments : head.arguments = [] := by
    rcases head.arguments_closed with hnone | ⟨inner, hinner⟩
    · exact hnone
    · rw [hinner] at hbehind
      exact absurd (List.cons.inj hbehind).1 (by decide)
  rw [harguments, List.nil_append] at hbehind
  -- the gap is that blank, since the opener is none and the word follows
  have hgap : head.gap = [' '] := by
    rcases hgap : head.gap with _ | ⟨c, gap⟩
    · rw [hgap, List.nil_append] at hbehind
      rcases head.opener_cases with hdo | hbrace
      · rw [hdo] at hbehind
        exact absurd (List.cons.inj hbehind).1 (by decide)
      · rw [hbrace] at hbehind
        exact absurd (List.cons.inj hbehind).1 (by decide)
    · rw [hgap] at hbehind
      obtain ⟨rfl, hnext⟩ := List.cons.inj hbehind
      rcases gap with _ | ⟨d, gap⟩
      · rfl
      · have hblank := head.gap_blank d (by rw [hgap]; simp)
        rw [← (List.cons.inj hnext).1] at hblank
        exact absurd hblank (by decide)
  rw [hgap] at hbehind
  have hnext := (List.cons.inj hbehind).2
  rcases head.opener_cases with hdo | hbrace
  · rw [hdo] at hnext hopener
    obtain ⟨_, hrest⟩ := List.cons.inj hnext
    exact ⟨(List.cons.inj hrest).2.symm, hmethod, hopener⟩
  · rw [hbrace] at hnext
    exact absurd (List.cons.inj hnext).1 (by decide)

/-! ## The only head of a line -/

/-- A stretch at the end that does not hold a character lies behind it. -/
theorem suffix_of_not_mem {α : Type} {c : α} {y front back : List α}
    (h : y <:+ front ++ c :: back) (hc : c ∉ y) : y <:+ back := by
  rcases List.suffix_or_suffix_of_suffix h (List.suffix_append front (c :: back))
    with hy | hback
  · rcases List.suffix_cons_iff.mp hy with rfl | hsuffix
    · exact absurd List.mem_cons_self hc
    · exact hsuffix
  · exact absurd (hback.subset List.mem_cons_self) hc

/-- The head of an iteration closes no parenthesis, if its variables do
    not. -/
theorem paren_not_mem_headText {method : String}
    (hmem : method ∈ iterationMethods) {parameter : Text}
    (h : ')' ∉ parameter) : ')' ∉ headText method parameter := by
  have hmethod : ')' ∉ method.toList := fun hc =>
    absurd (isWord_of_mem_method hmem ')' hc) (by decide +kernel)
  simp [headText, parameterText, hmethod, h]

/-- Only the arguments of a head can hold a dot behind its first one. -/
theorem HeadParts.dot_not_mem (head : HeadParts) :
    '.' ∉ head.method.toList ∧ '.' ∉ head.gap ++ head.opener := by
  constructor
  · intro hc
    exact absurd (isWord_of_mem_method head.method_mem '.' hc)
      (by decide +kernel)
  · intro hc
    rcases List.mem_append.mp hc with hgap | hopener
    · exact absurd (head.gap_blank '.' hgap) (by decide)
    · rcases head.opener_cases with hdo | hbrace
      · rw [hdo] at hopener
        exact absurd hopener (by decide)
      · rw [hbrace] at hopener
        exact absurd hopener (by decide)

/-- **NO OVERLAP**: a match that starts before a head at the end of a line
    ends before it. -/
theorem offset_le_of_before {method : String}
    (hmem : method ∈ iterationMethods) {parameter : Text}
    (hparameter : ')' ∉ parameter) {back : Text} (hne : back ≠ [])
    {s t : Cursor} (hs : s.rest = back ++ headText method parameter)
    (ht : t ∈ iterationHead.results s) : t.offset ≤ s.offset + back.length := by
  -- either the match ends before the head, or it reaches into it
  obtain ⟨head, hrest, hoffset, _⟩ := of_mem_iterationHead ht
  rw [hs] at hrest
  rcases List.append_eq_append_iff.mp hrest with
    ⟨reached, hhead, hreached⟩ | ⟨left, hback, _⟩
  · -- a match that goes on would hold the dot of the head
    rcases reached with _ | ⟨c, reached⟩
    · have hend : t.offset = s.offset + back.length := by
        rw [hoffset, hhead, List.append_nil]
      exact Nat.le_of_eq hend
    · exfalso
      -- the first character it would take from the head is the dot
      have hdot : c = '.' := (List.cons.inj hreached).1.symm
      have hparen : ')' ∉ c :: reached := by
        intro hc
        refine paren_not_mem_headText hmem hparameter ?_
        rw [hreached]
        exact List.mem_append_left _ hc
      obtain ⟨b, back, rfl⟩ := List.exists_cons_of_ne_nil hne
      have hsuffix : c :: reached <:+ head.method.toList
          ++ (head.arguments ++ (head.gap ++ head.opener)) :=
        ⟨back, (List.cons.inj hhead).2.symm⟩
      obtain ⟨hmethod, hopener⟩ := head.dot_not_mem
      rcases head.arguments_closed with hnone | ⟨inner, hinner⟩
      · rw [hnone, List.nil_append] at hsuffix
        rcases List.mem_append.mp (hsuffix.subset List.mem_cons_self)
          with hc | hc
        · exact hmethod (hdot ▸ hc)
        · exact hopener (hdot ▸ hc)
      · -- what it reaches of the head lies behind its own parenthesis, since
        -- the head closes none
        rw [hinner, List.append_assoc, List.singleton_append,
          ← List.append_assoc] at hsuffix
        have hc := (suffix_of_not_mem hsuffix hparen).subset List.mem_cons_self
        exact hopener (hdot ▸ hc)
  · rw [hoffset, hback, List.length_append]
    omega

/-- A line that ends with the head of an iteration and the parameter of its
    body, the only head on the line. -/
structure IterationHeader where
  before : Text
  method : String
  parameter : Text
  unbroken : '\n' ∉ before
  method_mem : method ∈ iterationMethods
  parameter_plain : '.' ∉ parameter ∧ ')' ∉ parameter ∧ '\n' ∉ parameter
  only : iterationHead.count (before ++ headText method parameter) = 1

namespace IterationHeader

/-- The line. -/
def line (h : IterationHeader) : Text :=
  h.before ++ headText h.method h.parameter

/-- **FINDING THE HEAD**: the search for a head on the line finds the one at
    its end. -/
theorem search_line (h : IterationHeader) :
    ∃ m, iterationHead.search h.line = some m
      ∧ m.after = parameterText h.parameter ∧ m.name 1 = h.method
      ∧ m.group 2 = ['d', 'o'] := by
  have hrest : ((Cursor.atStart h.line).pass h.before).rest
      = headText h.method h.parameter := List.drop_left
  have hplace := results_headText_ne_nil h.method_mem h.parameter hrest
  -- no earlier match reaches over the head, so the search, which takes the
  -- first match, does not pass it by
  have hearlier : ∀ w, w <+: h.before → w.length < h.before.length →
      ∀ t ∈ iterationHead.results ((Cursor.atStart h.line).pass w),
        t.offset ≤ h.before.length := by
    rintro w ⟨back, hback⟩ hlt t ht
    have hne : back ≠ [] := by
      rintro rfl
      rw [← hback, List.append_nil] at hlt
      exact absurd hlt (Nat.lt_irrefl _)
    have hs : ((Cursor.atStart h.line).pass w).rest
        = back ++ headText h.method h.parameter := by
      show (h.before ++ headText h.method h.parameter).drop w.length = _
      rw [← hback, List.append_assoc, List.drop_left]
    have hle := offset_le_of_before h.method_mem h.parameter_plain.2.1 hne hs ht
    rw [← hback, List.length_append]
    show t.offset ≤ w.length + back.length
    simpa [Cursor.pass, Cursor.atStart] using hle
  have hsearch := search_of_count_eq_one hplace hearlier h.only
  obtain ⟨m, hm⟩ := Option.isSome_iff_exists.mp (isSome_matchAt_iff.mpr hplace)
  refine ⟨m, hsearch.trans hm, ?_⟩
  -- the match at the head remembers the method and its opener
  rw [matchAt_eq] at hm
  obtain ⟨t, ht, rfl⟩ := List.mem_map.mp (List.mem_of_head? hm)
  obtain ⟨hafter, hmethod, hopener⟩ :=
    of_mem_results_headText h.method_mem hrest ht
  refine ⟨hafter, ?_, ?_⟩
  · rw [Match.name, Match.group, Match.capture?]
    show String.ofList (((t.captures.lookup 1).map Capture.text).getD []) = _
    rw [hmethod]
    exact String.ofList_toList
  · rw [Match.group, Match.capture?]
    show ((t.captures.lookup 2).map Capture.text).getD [] = _
    rw [hopener]
    rfl

end IterationHeader

end CodeReview.Detector
