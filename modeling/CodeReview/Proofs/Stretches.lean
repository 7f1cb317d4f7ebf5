import CodeReview.Proofs.RubyUnits
import CodeReview.Text.Lines

/-! # The stretches a pattern passes

    A pattern without edges, conditions and memory passes the stretches of
    a class of texts, whatever stands around them (`Reads`).  The classes
    of a pattern's parts give that of the whole, so what such a pattern
    matches can be said about texts alone.  Where a pattern matches in a
    text is then a statement about the parts before and behind a place
    (`occursIn_iff`, `search_of_count_eq_one`), and a stretch that no
    newline belongs to lies on one line of a text (`holds_unlines`). -/

namespace CodeReview

/-! ## Places behind a stretch -/

/-- The place behind a stretch of what follows. -/
def Cursor.pass (s : Cursor) (stretch : Text) : Cursor where
  before := stretch.getLast?.or s.before
  rest := s.rest.drop stretch.length
  offset := s.offset + stretch.length
  captures := s.captures

namespace Cursor

/-- Nothing passed leaves a place where it is. -/
@[simp] theorem pass_nil (s : Cursor) : s.pass [] = s := rfl

/-- A stretch can be passed in two parts. -/
theorem pass_append (s : Cursor) (v w : Text) :
    s.pass (v ++ w) = (s.pass v).pass w := by
  simp only [pass, List.getLast?_append, Option.or_assoc, List.length_append,
    List.drop_drop, Nat.add_assoc]

/-- One character first, then the others. -/
theorem pass_cons (before : Option Char) (c d : Char) (rest w : Text)
    (offset : Nat) (captures : List (Nat × Capture)) :
    pass ⟨before, c :: rest, offset, captures⟩ (d :: w)
      = pass ⟨some d, rest, offset + 1, captures⟩ w :=
  pass_append ⟨before, c :: rest, offset, captures⟩ [d] w

/-- What follows a place is a stretch and what follows that. -/
theorem rest_eq_append {s : Cursor} {w : Text} (h : w <+: s.rest) :
    s.rest = w ++ (s.pass w).rest := by
  obtain ⟨more, hmore⟩ := h
  rw [pass, ← hmore, List.drop_left]

/-- Remembering the stretch that was passed. -/
theorem remember_pass {s : Cursor} {w : Text} (h : w <+: s.rest)
    (index : Nat) :
    s.remember (s.pass w) index
      = { s.pass w with captures := (index, ⟨s.offset, w⟩) :: s.captures } := by
  have htext : s.textTo (s.pass w) = w := by
    rw [textTo, pass, Nat.add_sub_cancel_left]
    exact (List.prefix_iff_eq_take.mp h).symm
  rw [remember, htext]
  rfl

/-- Behind a word there is an edge unless the word goes on. -/
theorem isAt_word_pass {s : Cursor} {w : Text}
    (h : wordAt w.getLast? = true) :
    (s.pass w).isAt .word = true ↔ wordAt (s.pass w).rest.head? = false := by
  have hbefore : wordAt (s.pass w).before = true := by
    show wordAt (w.getLast?.or s.before) = true
    cases hlast : w.getLast? with
    | none => rw [hlast] at h; exact nomatch h
    | some c => rwa [hlast] at h
  rw [isAt, hbefore]
  cases wordAt (s.pass w).rest.head? <;> decide

end Cursor

/-- Two stretches follow each other if the second one comes where the first
    one ends. -/
theorem append_prefix_iff {α : Type} {v w text : List α} :
    v ++ w <+: text ↔ v <+: text ∧ w <+: text.drop v.length := by
  constructor
  · rintro ⟨more, rfl⟩
    rw [List.append_assoc, List.drop_left]
    exact ⟨List.prefix_append _ _, List.prefix_append _ _⟩
  · rintro ⟨⟨more, rfl⟩, hw⟩
    rw [List.drop_left] at hw
    obtain ⟨rest, rfl⟩ := hw
    rw [← List.append_assoc]
    exact List.prefix_append _ _

namespace Pattern

/-! ## Classes of stretches -/

/-- Whether a pattern leads exactly to the places behind the stretches of a
    class. -/
def Reads (p : Pattern) (IsRead : Text → Prop) : Prop :=
  ∀ s t, t ∈ p.results s ↔ ∃ w, IsRead w ∧ w <+: s.rest ∧ t = s.pass w

/-- The class of a pattern's stretches can be described in another way. -/
theorem Reads.congr {p : Pattern} {L M : Text → Prop} (h : p.Reads L)
    (hiff : ∀ w, L w ↔ M w) : p.Reads M := by
  intro s t
  rw [h s t]
  simp only [hiff]

/-- The empty pattern reads the empty stretch. -/
theorem reads_nothing : nothing.Reads (· = []) := by
  intro s t
  constructor
  · intro ht
    exact ⟨[], rfl, List.nil_prefix, List.mem_singleton.mp ht⟩
  · rintro ⟨_, rfl, _, rfl⟩
    exact List.mem_singleton_self _

/-- A character of a class reads one such character. -/
theorem reads_one (p : Char → Bool) :
    (one p).Reads fun w => ∃ c, p c = true ∧ w = [c] := by
  intro s t
  constructor
  · intro ht
    obtain ⟨c, hrest, hc, hbefore, hoffset, hcaptures⟩ :=
      of_mem_results_one ht
    refine ⟨[c], ⟨c, hc, rfl⟩, ⟨t.rest, hrest.symm⟩, ?_⟩
    obtain ⟨before, rest, offset, captures⟩ := t
    cases hbefore
    cases hoffset
    cases hcaptures
    simp only [Cursor.pass, hrest]
    rfl
  · rintro ⟨_, ⟨c, hc, rfl⟩, ⟨more, hmore⟩, rfl⟩
    refine Option.mem_toList.mpr ?_
    obtain ⟨before, rest, offset, captures⟩ := s
    cases hmore
    exact if_pos hc

/-- A sequence reads a stretch of its first part and behind it one of its
    second. -/
theorem reads_seq {p q : Pattern} {L M : Text → Prop} (hp : p.Reads L)
    (hq : q.Reads M) :
    (p ++ q).Reads fun w => ∃ u v, w = u ++ v ∧ L u ∧ M v := by
  intro s t
  rw [mem_results_seq]
  constructor
  · rintro ⟨middle, hmiddle, ht⟩
    obtain ⟨u, hu, hstretch, rfl⟩ := (hp s middle).mp hmiddle
    obtain ⟨v, hv, hstretch', rfl⟩ := (hq _ t).mp ht
    exact ⟨u ++ v, ⟨u, v, rfl, hu, hv⟩,
      append_prefix_iff.mpr ⟨hstretch, hstretch'⟩, (s.pass_append u v).symm⟩
  · rintro ⟨_, ⟨u, v, rfl, hu, hv⟩, hstretch, rfl⟩
    obtain ⟨hfirst, hsecond⟩ := append_prefix_iff.mp hstretch
    exact ⟨s.pass u, (hp s _).mpr ⟨u, hu, hfirst, rfl⟩,
      (hq _ _).mpr ⟨v, hv, hsecond, s.pass_append u v⟩⟩

/-- An alternative reads the stretches of both sides. -/
theorem reads_alt {p q : Pattern} {L M : Text → Prop} (hp : p.Reads L)
    (hq : q.Reads M) : (p ||| q).Reads fun w => L w ∨ M w := by
  intro s t
  have hcases : t ∈ (p ||| q).results s
      ↔ t ∈ p.results s ∨ t ∈ q.results s := List.mem_append
  rw [hcases, hp s t, hq s t]
  constructor
  · rintro (⟨w, hw, hrest⟩ | ⟨w, hw, hrest⟩)
    · exact ⟨w, .inl hw, hrest⟩
    · exact ⟨w, .inr hw, hrest⟩
  · rintro ⟨w, hw | hw, hrest⟩
    · exact .inl ⟨w, hw, hrest⟩
    · exact .inr ⟨w, hw, hrest⟩

/-- An optional pattern reads its stretches and the empty one. -/
theorem reads_opt {p : Pattern} {L : Text → Prop} (hp : p.Reads L) :
    (opt p).Reads fun w => L w ∨ w = [] :=
  reads_alt hp reads_nothing

/-- A character reads itself. -/
theorem reads_char (c : Char) : (char c).Reads (· = [c]) := by
  refine (reads_one (· == c)).congr fun w => ?_
  constructor
  · rintro ⟨c', hc, rfl⟩
    rw [beq_iff_eq.mp hc]
  · rintro rfl
    exact ⟨c, beq_self_eq_true c, rfl⟩

/-- Characters behind one another read the word they spell. -/
theorem reads_ofList (word : Text) :
    (ofList (word.map char)).Reads (· = word) := by
  induction word with
  | nil => exact reads_nothing
  | cons c word ih =>
      refine (reads_seq (reads_char c) ih).congr fun w => ?_
      constructor
      · rintro ⟨_, _, rfl, rfl, rfl⟩
        rfl
      · rintro rfl
        exact ⟨[c], word, rfl, rfl, rfl⟩

/-- A fixed text reads itself. -/
theorem reads_text (word : String) : (text word).Reads (· = word.toList) :=
  reads_ofList word.toList

/-- A choice of fixed texts reads each of them. -/
theorem reads_texts (words : List String) :
    (texts words).Reads fun w => ∃ word ∈ words, w = word.toList := by
  induction words with
  | nil =>
      refine (reads_one fun _ => false).congr fun w => ?_
      constructor
      · rintro ⟨_, hfalse, _⟩
        exact nomatch hfalse
      · rintro ⟨_, hnil, _⟩
        exact nomatch hnil
  | cons word words ih =>
      cases words with
      | nil =>
          refine (reads_text word).congr fun w => ?_
          simp
      | cons next words =>
          refine (reads_alt (reads_text word) ih).congr fun w => ?_
          simp only [List.mem_cons, exists_eq_or_imp]

/-- The repetitions of one character: one more is read as long as there is
    fuel. -/
theorem mem_iterate_one {p : Char → Bool} {isLazy : Bool} :
    ∀ {fuel : Nat} {s t : Cursor},
      t ∈ iterate (one p).results isLazy fuel s
        ↔ ∃ w : Text, (∀ c ∈ w, p c = true) ∧ w.length ≤ fuel
          ∧ w <+: s.rest ∧ t = s.pass w := by
  intro fuel
  induction fuel with
  | zero =>
      intro s t
      constructor
      · intro ht
        exact ⟨[], by simp, Nat.le_refl 0, List.nil_prefix,
          List.mem_singleton.mp ht⟩
      · rintro ⟨w, _, hlength, _, rfl⟩
        rw [List.eq_nil_of_length_eq_zero (Nat.le_zero.mp hlength)]
        exact List.mem_singleton_self _
  | succ fuel ih =>
      intro s t
      -- the repetition stops here, or reads a character and goes on
      have hcases : t ∈ iterate (one p).results isLazy (fuel + 1) s
          ↔ t = s ∨ ∃ u ∈ (one p).results s,
            t ∈ iterate (one p).results isLazy fuel u := by
        have hmore : t ∈ ((one p).results s).flatMap (fun u =>
              if s.offset < u.offset then iterate (one p).results isLazy fuel u
              else [])
            ↔ ∃ u ∈ (one p).results s,
              t ∈ iterate (one p).results isLazy fuel u := by
          rw [List.mem_flatMap]
          refine exists_congr fun u => and_congr_right fun hu => ?_
          obtain ⟨_, _, _, _, hoffset, _⟩ := of_mem_results_one hu
          rw [if_pos (by omega)]
        rw [iterate, ← hmore]
        cases isLazy with
        | true => exact List.mem_cons
        | false =>
            rw [if_neg Bool.false_ne_true, List.mem_append, List.mem_singleton]
            exact or_comm
      rw [hcases]
      constructor
      · rintro (rfl | ⟨u, hu, ht⟩)
        · exact ⟨[], by simp, Nat.zero_le _, List.nil_prefix, rfl⟩
        · obtain ⟨_, ⟨c, hc, rfl⟩, hstretch, rfl⟩ := (reads_one p s u).mp hu
          obtain ⟨w, hw, hlength, hstretch', rfl⟩ := ih.mp ht
          exact ⟨[c] ++ w, List.forall_mem_cons.mpr ⟨hc, hw⟩,
            Nat.succ_le_succ hlength,
            append_prefix_iff.mpr ⟨hstretch, hstretch'⟩,
            (s.pass_append [c] w).symm⟩
      · rintro ⟨w, hw, hlength, hstretch, rfl⟩
        cases w with
        | nil => exact .inl rfl
        | cons c w =>
            obtain ⟨hc, hw⟩ := List.forall_mem_cons.mp hw
            obtain ⟨hfirst, hmore⟩ :=
              append_prefix_iff (v := [c]) (w := w).mp hstretch
            exact .inr ⟨s.pass [c],
              (reads_one p s _).mpr ⟨[c], ⟨c, hc, rfl⟩, hfirst, rfl⟩,
              ih.mpr ⟨w, hw, Nat.le_of_succ_le_succ hlength, hmore,
                s.pass_append [c] w⟩⟩

/-- A repetition reads every stretch of its class, the longer ones first,
    which does not matter here. -/
theorem reads_many (p : Char → Bool) :
    (many (one p)).Reads fun w => ∀ c ∈ w, p c = true := by
  intro s t
  refine mem_iterate_one.trans (exists_congr fun w => ?_)
  constructor
  · rintro ⟨hw, _, hstretch, ht⟩
    exact ⟨hw, hstretch, ht⟩
  · rintro ⟨hw, hstretch, ht⟩
    exact ⟨hw, hstretch.length_le, hstretch, ht⟩

/-- A repetition that is not empty reads the stretches of its class that are
    not empty. -/
theorem reads_many1 (p : Char → Bool) :
    (many1 (one p)).Reads fun w => w ≠ [] ∧ ∀ c ∈ w, p c = true := by
  refine (reads_seq (reads_one p) (reads_many p)).congr fun w => ?_
  constructor
  · rintro ⟨_, v, rfl, ⟨c, hc, rfl⟩, hv⟩
    exact ⟨List.cons_ne_nil _ _, List.forall_mem_cons.mpr ⟨hc, hv⟩⟩
  · rintro ⟨hne, hw⟩
    obtain ⟨c, v, rfl⟩ := List.exists_cons_of_ne_nil hne
    obtain ⟨hc, hv⟩ := List.forall_mem_cons.mp hw
    exact ⟨[c], v, rfl, ⟨c, hc, rfl⟩, hv⟩

/-! ## Memory and conditions -/

/-- A group remembers the stretch that it passes. -/
theorem Reads.mem_results_group {p : Pattern} {L : Text → Prop}
    (h : p.Reads L) {index : Nat} {s t : Cursor} :
    t ∈ (group index p).results s
      ↔ ∃ w, L w ∧ w <+: s.rest
        ∧ t = { s.pass w with
            captures := (index, ⟨s.offset, w⟩) :: s.captures } := by
  rw [Pattern.mem_results_group]
  constructor
  · rintro ⟨u, hu, rfl⟩
    obtain ⟨w, hw, hstretch, rfl⟩ := (h s u).mp hu
    exact ⟨w, hw, hstretch, Cursor.remember_pass hstretch index⟩
  · rintro ⟨w, hw, hstretch, rfl⟩
    exact ⟨s.pass w, (h s _).mpr ⟨w, hw, hstretch, rfl⟩,
      Cursor.remember_pass hstretch index⟩

/-- At an edge nothing is consumed. -/
theorem mem_results_edge {e : Edge} {s t : Cursor} :
    t ∈ (edge e).results s ↔ s.isAt e = true ∧ t = s := by
  rw [results]
  split
  · rename_i he
    rw [List.mem_singleton]
    exact ⟨fun ht => ⟨he, ht⟩, And.right⟩
  · rename_i he
    exact iff_of_false List.not_mem_nil fun ht => he ht.1

/-- Looking ahead consumes nothing and asks whether there is a way, or that
    there is none. -/
theorem mem_results_ahead {wanted : Bool} {p : Pattern} {s t : Cursor} :
    t ∈ (ahead wanted p).results s
      ↔ (p.results s).isEmpty ≠ wanted ∧ t = s := by
  rw [results]
  split
  · rename_i h
    exact iff_of_false List.not_mem_nil fun ht => ht.1 (beq_iff_eq.mp h)
  · rename_i h
    rw [List.mem_singleton]
    exact ⟨fun ht => ⟨fun heq => h (beq_iff_eq.mpr heq), ht⟩, And.right⟩

/-! ## Where a pattern matches -/

/-- A pattern has a match at a place if it has any way to match there. -/
theorem isSome_matchAt_iff {p : Pattern} {s : Cursor} :
    (p.matchAt s).isSome = true ↔ p.results s ≠ [] := by
  rw [matchAt_eq]
  cases p.results s with
  | nil => simp
  | cons t ts => simp

/-- A pattern matches at the start of a text if it has any way to match
    there. -/
theorem startsIn_iff {p : Pattern} {text : Text} :
    p.startsIn text = true ↔ p.results (.atStart text) ≠ [] :=
  isSome_matchAt_iff

/-- A search succeeds exactly if the pattern has a way to match at some
    place of the text. -/
theorem isSome_searchFrom_iff {p : Pattern} :
    ∀ {text : Text} {before : Option Char} {offset : Nat},
      (p.searchFrom before offset text).isSome = true
        ↔ ∃ w, w <+: text
          ∧ p.results (Cursor.pass ⟨before, text, offset, []⟩ w) ≠ [] := by
  intro text
  -- induction over the text: a place of it is its start, or one of the rest
  induction text with
  | nil =>
      intro before offset
      rw [searchFrom, isSome_matchAt_iff]
      constructor
      · intro h
        exact ⟨[], List.nil_prefix, h⟩
      · rintro ⟨w, hw, h⟩
        rwa [List.prefix_nil.mp hw] at h
  | cons c rest ih =>
      intro before offset
      have hfirst : (p.searchFrom before offset (c :: rest)).isSome = true
          ↔ p.results ⟨before, c :: rest, offset, []⟩ ≠ []
            ∨ (p.searchFrom (some c) (offset + 1) rest).isSome = true := by
        rw [searchFrom, ← isSome_matchAt_iff]
        cases p.matchAt ⟨before, c :: rest, offset, []⟩ <;> simp
      rw [hfirst, ih]
      constructor
      · rintro (h | ⟨w, hw, h⟩)
        · exact ⟨[], List.nil_prefix, h⟩
        · refine ⟨c :: w, (List.prefix_cons_inj c).mpr hw, ?_⟩
          rw [Cursor.pass_cons]
          exact h
      · rintro ⟨w, hw, h⟩
        cases w with
        | nil => exact .inl h
        | cons c' w =>
            obtain ⟨rfl, hrest⟩ := List.cons_prefix_cons.mp hw
            rw [Cursor.pass_cons] at h
            exact .inr ⟨w, hrest, h⟩

/-- A pattern occurs in a text if it matches at some place in it. -/
theorem occursIn_iff {p : Pattern} {text : Text} :
    p.occursIn text = true
      ↔ ∃ w, w <+: text ∧ p.results ((Cursor.atStart text).pass w) ≠ [] :=
  isSome_searchFrom_iff

/-- A pattern that reads a class occurs in the texts that hold one of its
    stretches. -/
theorem Reads.occursIn_iff {p : Pattern} {L : Text → Prop} (h : p.Reads L)
    {text : Text} : p.occursIn text = true ↔ ∃ w, L w ∧ w <:+: text := by
  rw [Pattern.occursIn_iff]
  constructor
  · rintro ⟨front, ⟨back, rfl⟩, hresults⟩
    obtain ⟨t, ht⟩ := List.exists_mem_of_ne_nil _ hresults
    obtain ⟨w, hw, hstretch, -⟩ := (h _ t).mp ht
    have hback : w <+: back := by
      rwa [Cursor.pass, Cursor.atStart, List.drop_left] at hstretch
    obtain ⟨more, rfl⟩ := hback
    exact ⟨w, hw, front, more, List.append_assoc _ _ _⟩
  · rintro ⟨w, hw, front, more, rfl⟩
    rw [List.append_assoc]
    refine ⟨front, List.prefix_append _ _,
      List.ne_nil_of_mem ((h _ _).mpr ⟨w, hw, ?_, rfl⟩)⟩
    rw [Cursor.pass, Cursor.atStart, List.drop_left]
    exact List.prefix_append _ _

/-- A pattern that is anchored at both ends matches the texts of a class,
    also with a newline behind them. -/
theorem Reads.startsIn_anchored_iff {p : Pattern} {L : Text → Prop}
    (h : p.Reads L) {text : Text} :
    (edge .textStart ++ p ++ edge .textEnd).startsIn text = true
      ↔ L text ∨ ∃ w, L w ∧ text = w ++ ['\n'] := by
  -- the edge at the end is also there in front of a last newline
  have hends : ∀ w more : Text,
      ((Cursor.atStart (w ++ more)).pass w).isAt .textEnd = true
        ↔ more = [] ∨ more = ['\n'] := by
    intro w more
    simp [Cursor.isAt, Cursor.pass, Cursor.atStart]
  rw [startsIn_iff]
  constructor
  · intro hresults
    obtain ⟨t, ht⟩ := List.exists_mem_of_ne_nil _ hresults
    obtain ⟨u, hu, hend⟩ := mem_results_seq.mp ht
    obtain ⟨_, hstart, hu⟩ := mem_results_seq.mp hu
    obtain ⟨-, rfl⟩ := mem_results_edge.mp hstart
    obtain ⟨w, hw, ⟨more, rfl⟩, rfl⟩ := (h _ u).mp hu
    rcases (hends w more).mp (mem_results_edge.mp hend).1 with rfl | rfl
    · exact .inl ((List.append_nil w).symm ▸ hw)
    · exact .inr ⟨w, hw, rfl⟩
  · intro htext
    obtain ⟨w, more, rfl, hw, hmore⟩ : ∃ w more : Text, text = w ++ more ∧ L w
        ∧ (more = [] ∨ more = ['\n']) := by
      rcases htext with hw | ⟨w, hw, rfl⟩
      · exact ⟨text, [], (List.append_nil text).symm, hw, .inl rfl⟩
      · exact ⟨w, ['\n'], rfl, hw, .inr rfl⟩
    refine List.ne_nil_of_mem (mem_results_seq.mpr
      ⟨(Cursor.atStart (w ++ more)).pass w, mem_results_seq.mpr
        ⟨_, mem_results_edge.mpr ⟨rfl, rfl⟩,
          (h _ _).mpr ⟨w, hw, List.prefix_append _ _, rfl⟩⟩,
        mem_results_edge.mpr ⟨(hends w more).mpr hmore, rfl⟩⟩)

/-- A match behind what is skipped is found. -/
theorem findAllFrom_skip_ne_nil {p : Pattern} {back : Text} :
    ∀ {skip : Nat} {front : Text} {before : Option Char} {offset : Nat},
      skip ≤ front.length →
      p.results (Cursor.pass ⟨before, front ++ back, offset, []⟩ front) ≠ [] →
      p.findAllFrom before offset skip (front ++ back) ≠ [] := by
  intro skip
  induction skip with
  | zero =>
      intro front before offset _ h
      refine findAllFrom_ne_nil ?_
      rwa [Cursor.pass, List.drop_left] at h
  | succ skip ih =>
      intro front before offset hskip h
      cases front with
      | nil => exact absurd hskip (Nat.not_succ_le_zero skip)
      | cons c front =>
          rw [List.cons_append, Cursor.pass_cons] at h
          rw [List.cons_append, findAllFrom]
          exact ih (Nat.le_of_succ_le_succ hskip) h

/-- **THE ONLY MATCH**: where a pattern matches at a place that no earlier
    match reaches beyond, the first match of a text is the one at that
    place if there is no other. -/
theorem searchFrom_of_only {p : Pattern} {back : Text} :
    ∀ {front : Text} {before : Option Char} {offset : Nat},
      p.results (Cursor.pass ⟨before, front ++ back, offset, []⟩ front) ≠ [] →
      (∀ w, w <+: front → w.length < front.length →
        ∀ t ∈ p.results (Cursor.pass ⟨before, front ++ back, offset, []⟩ w),
          t.offset ≤ offset + front.length) →
      (p.findAllFrom before offset 0 (front ++ back)).length = 1 →
      p.searchFrom before offset (front ++ back)
        = p.matchAt (Cursor.pass ⟨before, front ++ back, offset, []⟩ front) := by
  intro front
  induction front with
  | nil =>
      intro before offset hplace _ _
      obtain ⟨m, hm⟩ := Option.isSome_iff_exists.mp
        (isSome_matchAt_iff.mpr hplace)
      rw [Cursor.pass_nil] at hm ⊢
      cases back with
      | nil => rfl
      | cons c back =>
          rw [List.nil_append] at hm ⊢
          rw [searchFrom, hm]
          rfl
  | cons c front ih =>
      intro before offset hplace hreach hcount
      rw [List.cons_append, Cursor.pass_cons] at hplace ⊢
      have hlater : ∀ skip, skip ≤ front.length →
          p.findAllFrom (some c) (offset + 1) skip (front ++ back) ≠ [] :=
        fun skip hskip => findAllFrom_skip_ne_nil hskip hplace
      rw [List.cons_append, findAllFrom] at hcount
      cases hfirst : p.matchAt ⟨before, c :: (front ++ back), offset, []⟩ with
      | none =>
          rw [hfirst] at hcount
          have hnext : p.searchFrom before offset (c :: (front ++ back))
              = p.searchFrom (some c) (offset + 1) (front ++ back) := by
            rw [searchFrom, hfirst]
            rfl
          refine hnext.trans (ih hplace ?_ hcount)
          intro w hw hlt t ht
          rw [← Cursor.pass_cons before c] at ht
          have hle := hreach (c :: w) ((List.prefix_cons_inj c).mpr hw)
            (Nat.succ_lt_succ hlt) t ht
          rw [List.length_cons] at hle
          omega
      | some m =>
          -- a second match follows: the first one ends before its place
          rw [hfirst] at hcount
          obtain ⟨t, ht, rfl⟩ : ∃ t ∈ p.results
              ⟨before, c :: (front ++ back), offset, []⟩,
              Match.between _ t = m := by
            rw [matchAt_eq] at hfirst
            exact List.mem_map.mp (List.mem_of_head? hfirst)
          have hle := hreach [] List.nil_prefix (Nat.succ_pos _) t ht
          rw [List.length_cons] at hle
          have hstop : t.offset - offset - 1 ≤ front.length := by omega
          refine absurd (List.length_eq_zero_iff.mp ?_) (hlater _ hstop)
          exact Nat.succ.inj hcount

/-- Where a text has one match only, a search finds it at any place that
    matches, provided that no earlier match reaches over that place. -/
theorem search_of_count_eq_one {p : Pattern} {front back : Text}
    (hplace : p.results ((Cursor.atStart (front ++ back)).pass front) ≠ [])
    (hreach : ∀ w, w <+: front → w.length < front.length →
      ∀ t ∈ p.results ((Cursor.atStart (front ++ back)).pass w),
        t.offset ≤ front.length)
    (hcount : p.count (front ++ back) = 1) :
    p.search (front ++ back)
      = p.matchAt ((Cursor.atStart (front ++ back)).pass front) := by
  refine searchFrom_of_only hplace ?_ hcount
  intro w hw hlt t ht
  rw [Nat.zero_add]
  exact hreach w hw hlt t ht

end Pattern

/-! ## Stretches with an end -/

namespace Text

/-- A run of characters of a class, up to one that is not, can be cut off a
    text in one way. -/
theorem run_append_inj {p : Char → Bool} {v w x y : Text}
    (hv : ∀ c ∈ v, p c = true) (hw : ∀ c ∈ w, p c = true)
    (hx : x.head?.any p = false) (hy : y.head?.any p = false)
    (h : v ++ x = w ++ y) : v = w ∧ x = y := by
  have hstop : ∀ {rest : Text}, rest.head?.any p = false →
      rest.takeWhile p = [] := by
    intro rest hrest
    cases rest with
    | nil => rfl
    | cons c rest => exact List.takeWhile_cons_of_neg (by simpa using hrest)
  have htake := congrArg (List.takeWhile p) h
  rw [List.takeWhile_append_of_pos hv, List.takeWhile_append_of_pos hw,
    hstop hx, hstop hy, List.append_nil, List.append_nil] at htake
  exact List.append_inj h (congrArg List.length htake)

/-- Whether a text holds a stretch of a class, with nothing behind it or a
    character that ends it. -/
def Holds (IsStretch : Text → Prop) (ends : Char → Bool) (text : Text) : Prop :=
  ∃ front w more, text = front ++ (w ++ more) ∧ IsStretch w
    ∧ more.head?.all ends = true

variable {IsStretch : Text → Prop} {ends : Char → Bool}

/-- **ONE LINE OR THE OTHER**: a stretch without newlines stands before a
    newline or behind it, and a newline ends it. -/
theorem holds_append_newline (hends : ends '\n' = true)
    (hstretch : ∀ w, IsStretch w → '\n' ∉ w) {x y : Text} :
    Holds IsStretch ends (x ++ '\n' :: y)
      ↔ Holds IsStretch ends x ∨ Holds IsStretch ends y := by
  constructor
  · rintro ⟨front, w, more, htext, hw, hmore⟩
    rw [← List.append_assoc] at htext
    rcases List.append_eq_append_iff.mp htext with
      ⟨past, hpast, hrest⟩ | ⟨left, hleft, hrest⟩
    · rcases List.cons_eq_append_iff.mp hrest with ⟨rfl, _⟩ | ⟨past, rfl, rfl⟩
      · -- the stretch ends at the newline
        rw [List.append_nil] at hpast
        exact .inl ⟨front, w, [], by rw [List.append_nil, hpast], hw, rfl⟩
      · -- a stretch that goes past the newline lies behind it altogether,
        -- since it holds none
        rcases List.append_eq_append_iff.mp hpast with
          ⟨back, _, hback⟩ | ⟨back, _, hback⟩
        · exact absurd (hback ▸ List.mem_append_right back List.mem_cons_self)
            (hstretch w hw)
        · rcases List.cons_eq_append_iff.mp hback with ⟨_, hcons⟩ | ⟨back, _, rfl⟩
          · exact absurd (hcons ▸ List.mem_cons_self) (hstretch w hw)
          · exact .inr ⟨back, w, more, List.append_assoc .., hw, hmore⟩
    · -- the stretch ends before the newline
      refine .inl ⟨front, w, left, by rw [hleft, List.append_assoc], hw, ?_⟩
      cases left with
      | nil => rfl
      | cons c left =>
          rw [hrest] at hmore
          exact hmore
  · rintro (⟨front, w, more, rfl, hw, hmore⟩ | ⟨front, w, more, rfl, hw, hmore⟩)
    · refine ⟨front, w, more ++ '\n' :: y, by simp, hw, ?_⟩
      cases more with
      | nil => exact hends
      | cons c more => exact hmore
    · exact ⟨x ++ '\n' :: front, w, more, by simp, hw, hmore⟩

/-- Joined lines hold a stretch if one of the lines does. -/
theorem holds_unlines (hends : ends '\n' = true)
    (hstretch : ∀ w, IsStretch w → '\n' ∉ w) (line : Text) (rest : List Text) :
    Holds IsStretch ends (unlines (line :: rest))
      ↔ ∃ other ∈ line :: rest, Holds IsStretch ends other := by
  induction rest generalizing line with
  | nil => simp [unlines, join]
  | cons next rest ih =>
      have hjoin : unlines (line :: next :: rest)
          = line ++ '\n' :: unlines (next :: rest) := by
        rw [unlines, join_cons _ _ (List.cons_ne_nil next rest)]
        exact List.append_assoc ..
      rw [hjoin, holds_append_newline hends hstretch, ih next]
      simp only [List.mem_cons, exists_eq_or_imp]

end Text

namespace Pattern

/-- A character of a class follows, or nothing does. -/
theorem results_end_ne_nil {ends : Char → Bool} (hends : ends '\n' = true)
    {s : Cursor} :
    ((one ends ||| edge .textEnd).results s).isEmpty ≠ true
      ↔ s.rest.head?.all ends = true := by
  obtain ⟨before, rest, offset, captures⟩ := s
  have hresults : (one ends ||| edge .textEnd).results
        ⟨before, rest, offset, captures⟩
      = (one ends).results ⟨before, rest, offset, captures⟩
        ++ (edge .textEnd).results ⟨before, rest, offset, captures⟩ := rfl
  rw [hresults]
  cases rest with
  | nil => simp [results, Cursor.isAt]
  | cons c rest =>
      by_cases hc : ends c = true
      · simp [results, Cursor.advance, hc]
      · have hne : c ≠ '\n' := by
          rintro rfl
          exact hc hends
        simp [results, Cursor.advance, Cursor.isAt, hc, hne]

/-- **STRETCHES WITH AN END**: a pattern with a condition on what follows
    occurs in the texts that hold one of its stretches with such an
    end. -/
theorem occursIn_ended_iff {p : Pattern} {L : Text → Prop} (hp : p.Reads L)
    {ends : Char → Bool} (hends : ends '\n' = true) {text : Text} :
    (p ++ ahead true (one ends ||| edge .textEnd)).occursIn text = true
      ↔ Text.Holds L ends text := by
  rw [occursIn_iff]
  constructor
  · rintro ⟨front, ⟨back, rfl⟩, hresults⟩
    obtain ⟨t, ht⟩ := List.exists_mem_of_ne_nil _ hresults
    obtain ⟨u, hu, hahead⟩ := mem_results_seq.mp ht
    obtain ⟨w, hw, hstretch, rfl⟩ := (hp _ u).mp hu
    obtain ⟨hend, _⟩ := mem_results_ahead.mp hahead
    refine ⟨front, w, _, ?_, hw, (results_end_ne_nil hends).mp hend⟩
    rw [← Cursor.rest_eq_append hstretch]
    exact congrArg (front ++ ·) (List.drop_left).symm
  · rintro ⟨front, w, more, rfl, hw, hmore⟩
    let place := (Cursor.atStart (front ++ (w ++ more))).pass front
    have hrest : place.rest = w ++ more := List.drop_left
    refine ⟨front, List.prefix_append _ _,
      List.ne_nil_of_mem (a := place.pass w) (mem_results_seq.mpr ?_)⟩
    refine ⟨place.pass w, (hp _ _).mpr ⟨w, hw, ?_, rfl⟩,
      mem_results_ahead.mpr ⟨(results_end_ne_nil hends).mpr ?_, rfl⟩⟩
    · rw [hrest]
      exact List.prefix_append _ _
    · rw [Cursor.pass, hrest, List.drop_left]
      exact hmore

end Pattern

end CodeReview
