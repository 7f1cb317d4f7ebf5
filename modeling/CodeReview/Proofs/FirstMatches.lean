import Mathlib.Data.List.Basic
import CodeReview.Proofs.Stretches

/-! # Which match comes first

    The ways to match at a place are in order of preference, and a search
    takes the first of them.  `Takes` says of a part of a pattern which
    stretch its first way passes before a given rest, and `Refuses` that it
    has no way at all; from such statements about the parts follows the
    first way of the whole.  Repetitions need a bound on their number, but
    no more than there are characters left (`iterate_of_le`), so they unfold
    one by one (`results_star`).

    The matches of a text are found from place to place: what lies between
    two matches is passed over (`allFrom_quiet`), and what a match took is
    behind it (`allFrom_match`). -/

namespace CodeReview

/-! ## Results lie behind a stretch -/

namespace Cursor

/-- Whether a place lies behind a stretch of what follows another one. -/
def Reaches (s t : Cursor) : Prop :=
  ∃ w, w <+: s.rest ∧ t = { s.pass w with captures := t.captures }

/-- A place is reached from itself, behind the empty stretch. -/
theorem Reaches.refl (s : Cursor) : s.Reaches s := ⟨[], List.nil_prefix, rfl⟩

/-- Stretches behind one another are one stretch. -/
theorem Reaches.trans {s t u : Cursor} (hst : s.Reaches t)
    (htu : t.Reaches u) : s.Reaches u := by
  obtain ⟨v, hv, ht⟩ := hst
  obtain ⟨w, hw, hu⟩ := htu
  rw [ht] at hw hu
  refine ⟨v ++ w, append_prefix_iff.mpr ⟨hv, hw⟩, hu.trans ?_⟩
  rw [pass_append]
  rfl

/-- What is consumed is missing behind it. -/
theorem Reaches.extent {s t : Cursor} (h : s.Reaches t) :
    t.offset + t.rest.length = s.offset + s.rest.length := by
  obtain ⟨w, hw, ht⟩ := h
  have hlength := hw.length_le
  rw [ht]
  simp only [pass, List.length_drop]
  omega

end Cursor

namespace Pattern

/-- **EXTENT**: every way to match passes a stretch of what follows. -/
theorem reaches_of_mem_results (p : Pattern) :
    ∀ s, ∀ t ∈ p.results s, s.Reaches t := by
  refine Carries.of_mem_results ⟨.refl, fun _ _ _ => .trans, ?_, ?_⟩
  · intro p s t ht
    obtain ⟨w, _, hw, rfl⟩ := (reads_one p s t).mp ht
    exact ⟨w, hw, rfl⟩
  · -- a group passes the same stretch, and only remembers it
    rintro index _ s t ⟨w, hw, hpass⟩
    refine ⟨w, hw, ?_⟩
    rw [Cursor.remember, hpass]

/-! ## Repetitions, one by one -/

section Repetition

variable {step : Cursor → List Cursor}

/-- One repetition more than there are characters changes nothing. -/
theorem iterate_succ (hstep : ∀ s, ∀ t ∈ step s, s.Reaches t)
    (isLazy : Bool) :
    ∀ {fuel : Nat} {s : Cursor}, s.rest.length ≤ fuel →
      iterate step isLazy (fuel + 1) s = iterate step isLazy fuel s := by
  intro fuel
  induction fuel with
  | zero =>
      intro s hfuel
      have hmore : ((step s).flatMap fun t =>
          if s.offset < t.offset then iterate step isLazy 0 t else []) = [] := by
        refine List.flatMap_eq_nil_iff.mpr fun t ht => if_neg ?_
        -- nothing is left to read, so no turn moves
        have hextent := (hstep s t ht).extent
        omega
      show (if isLazy then s :: _ else _ ++ [s]) = [s]
      rw [hmore]
      cases isLazy <;> rfl
  | succ fuel ih =>
      intro s hfuel
      have hmore : ((step s).flatMap fun t =>
            if s.offset < t.offset then iterate step isLazy (fuel + 1) t
            else [])
          = (step s).flatMap fun t =>
            if s.offset < t.offset then iterate step isLazy fuel t else [] := by
        refine List.flatMap_congr fun t ht => ?_
        -- a turn that moves leaves less to read, and one that does not ends
        -- the repetition
        have hextent := (hstep s t ht).extent
        split
        · exact ih (by omega)
        · rfl
      rw [iterate, hmore]
      rfl

/-- As many repetitions as there are characters are enough. -/
theorem iterate_of_le (hstep : ∀ s, ∀ t ∈ step s, s.Reaches t)
    (isLazy : Bool) {fuel : Nat} {s : Cursor} (hfuel : s.rest.length ≤ fuel) :
    iterate step isLazy fuel s = iterate step isLazy s.rest.length s := by
  induction hfuel with
  | refl => rfl
  | step hle ih => exact (iterate_succ hstep isLazy hle).trans ih

end Repetition

/-- A repetition stops here, or passes its part once and goes on. -/
theorem results_star (isLazy : Bool) (p : Pattern) (s : Cursor) :
    (star isLazy p).results s
      = (let more := (p.results s).flatMap fun t =>
            if s.offset < t.offset then (star isLazy p).results t else []
        if isLazy then s :: more else more ++ [s]) := by
  have hstep := reaches_of_mem_results p
  have hmore : ((p.results s).flatMap fun t =>
        if s.offset < t.offset then
          iterate p.results isLazy s.rest.length t
        else [])
      = (p.results s).flatMap fun t =>
        if s.offset < t.offset then (star isLazy p).results t else [] := by
    refine List.flatMap_congr fun t ht => ?_
    have hextent := (hstep s t ht).extent
    split
    · exact iterate_of_le hstep isLazy (by omega)
    · rfl
  rw [← hmore, results, ← iterate_succ hstep isLazy (Nat.le_refl _)]
  rfl

/-! ## The first way to match -/

/-- The first way of a sequence takes the first way of each part, if the
    second part can go on from there; there is no need to look back. -/
theorem head?_results_seq {p q : Pattern} {s u t : Cursor}
    (hp : (p.results s).head? = some u) (hq : (q.results u).head? = some t) :
    ((p ++ q).results s).head? = some t := by
  obtain ⟨us, hus⟩ := List.head?_eq_some_iff.mp hp
  obtain ⟨ts, hts⟩ := List.head?_eq_some_iff.mp hq
  show ((p.results s).flatMap q.results).head? = some t
  rw [hus, List.flatMap_cons, hts]
  rfl

/-- The first way of a group is that of what it holds, with the stretch
    remembered. -/
theorem head?_results_group {p : Pattern} {s t : Cursor}
    (h : (p.results s).head? = some t) (index : Nat) :
    ((group index p).results s).head? = some (s.remember t index) := by
  rw [results, List.head?_map, h]
  rfl

/-- At its edge, a pattern that asks for one stays where it is. -/
theorem head?_results_edge {e : Edge} {s : Cursor} (h : s.isAt e = true) :
    ((edge e).results s).head? = some s := by
  rw [results, if_pos h]
  rfl

/-- The match at a place is the first way to match there. -/
theorem matchAt_of_head? {p : Pattern} {s t : Cursor}
    (h : (p.results s).head? = some t) :
    p.matchAt s = some (Match.between s t) := by
  rw [matchAt_eq, List.head?_map, h]
  rfl

/-- Whether the first way of a pattern to match before a rest passes a given
    stretch, whatever stands before it. -/
def Takes (p : Pattern) (w rest : Text) : Prop :=
  ∀ s, s.rest = w ++ rest → (p.results s).head? = some (s.pass w)

/-- Whether a pattern matches nowhere before a text. -/
def Refuses (p : Pattern) (text : Text) : Prop :=
  ∀ s, s.rest = text → p.results s = []

/-- A character of a class takes one such character. -/
theorem takes_one {p : Char → Bool} {c : Char} (hc : p c = true)
    (rest : Text) : (one p).Takes [c] rest := by
  rintro ⟨before, _, offset, captures⟩ rfl
  simp [results, Cursor.advance, Cursor.pass, hc]

/-- A character takes itself. -/
theorem takes_char (c : Char) (rest : Text) : (char c).Takes [c] rest :=
  takes_one (p := (· == c)) (beq_self_eq_true c) rest

/-- A character of a class refuses a text that starts with another one, and
    the empty text. -/
theorem refuses_one {p : Char → Bool} {text : Text}
    (h : text.head?.any p = false) : (one p).Refuses text := by
  rintro ⟨before, rest, offset, captures⟩ hs
  obtain rfl : rest = text := hs
  cases rest with
  | nil => rfl
  | cons c rest =>
      have hc : p c = false := h
      simp [results, Cursor.advance, hc]

/-- A character refuses a text that starts with another one. -/
theorem refuses_char {c d : Char} (h : d ≠ c) (text : Text) :
    (char c).Refuses (d :: text) :=
  refuses_one (by simpa using h)

/-- Where the first part has no way, a sequence has none. -/
theorem Refuses.seq {p : Pattern} {text : Text} (h : p.Refuses text)
    (q : Pattern) : (p ++ q).Refuses text := by
  intro s hs
  show (p.results s).flatMap q.results = []
  rw [h s hs]
  rfl

/-- Where neither side has a way, an alternative has none. -/
theorem Refuses.alt {p q : Pattern} {text : Text} (hp : p.Refuses text)
    (hq : q.Refuses text) : (p ||| q).Refuses text := by
  intro s hs
  show p.results s ++ q.results s = []
  rw [hp s hs, hq s hs]
  rfl

/-- Where there is nothing to remember, a group has no way. -/
theorem Refuses.group {p : Pattern} {text : Text} (h : p.Refuses text)
    (index : Nat) : (group index p).Refuses text := by
  intro s hs
  rw [results, h s hs]
  rfl

/-- What is refused behind a character is refused with it. -/
theorem Refuses.one_seq {p : Pattern} {rest : Text} (h : p.Refuses rest)
    (q : Char → Bool) (c : Char) : (one q ++ p).Refuses (c :: rest) := by
  rintro ⟨before, text, offset, captures⟩ hs
  obtain rfl : text = c :: rest := hs
  show ((one q).results _).flatMap p.results = []
  cases hc : q c with
  | false => simp [results, Cursor.advance, hc]
  | true =>
      have hp := h ⟨some c, rest, offset + 1, captures⟩ rfl
      simpa [results, Cursor.advance, hc] using hp

/-- Behind a stretch stands what follows it. -/
theorem rest_pass {s : Cursor} {w rest : Text} (h : s.rest = w ++ rest) :
    (s.pass w).rest = rest := by
  rw [Cursor.pass, h, List.drop_left]

/-- What a group takes is remembered. -/
theorem Takes.head?_group {p : Pattern} {w rest : Text} (h : p.Takes w rest)
    {s : Cursor} (hs : s.rest = w ++ rest) (index : Nat) :
    ((group index p).results s).head? = some { s.pass w with
      captures := (index, ⟨s.offset, w⟩) :: s.captures } := by
  rw [head?_results_group (h s hs) index,
    Cursor.remember_pass ⟨rest, hs.symm⟩ index]

/-- A sequence takes the stretches of its parts, one behind the other. -/
theorem Takes.seq {p q : Pattern} {v w rest : Text}
    (hp : p.Takes v (w ++ rest)) (hq : q.Takes w rest) :
    (p ++ q).Takes (v ++ w) rest := by
  intro s hs
  rw [List.append_assoc] at hs
  rw [Cursor.pass_append]
  exact head?_results_seq (hp s hs) (hq _ (rest_pass hs))

/-- The left side of an alternative is preferred. -/
theorem Takes.alt_left {p : Pattern} {w rest : Text} (hp : p.Takes w rest)
    (q : Pattern) : (p ||| q).Takes w rest := by
  intro s hs
  show (p.results s ++ q.results s).head? = _
  rw [List.head?_append, hp s hs]
  rfl

/-- The right side of an alternative is taken where the left one has no
    way. -/
theorem Takes.alt_right {p q : Pattern} {w rest : Text}
    (hp : p.Refuses (w ++ rest)) (hq : q.Takes w rest) :
    (p ||| q).Takes w rest := by
  intro s hs
  show (p.results s ++ q.results s).head? = _
  rw [hp s hs]
  exact hq s hs

/-- A repetition stops before what its part refuses. -/
theorem takes_many_nil {p : Pattern} {rest : Text} (h : p.Refuses rest) :
    (many p).Takes [] rest := by
  intro s hs
  rw [many, results_star, h s hs]
  rfl

/-- A repetition passes what its part takes, and goes on. -/
theorem takes_many_cons {p : Pattern} {v w rest : Text} (hv : v ≠ [])
    (hp : p.Takes v (w ++ rest)) (hmany : (many p).Takes w rest) :
    (many p).Takes (v ++ w) rest := by
  intro s hs
  rw [List.append_assoc] at hs
  obtain ⟨us, hus⟩ := List.head?_eq_some_iff.mp (hp s hs)
  have hlater : s.offset < (s.pass v).offset := by
    have hlength := List.length_pos_iff.mpr hv
    show s.offset < s.offset + v.length
    omega
  have hrest := hmany _ (rest_pass hs)
  rw [many] at hrest ⊢
  rw [results_star, hus, List.flatMap_cons, if_pos hlater,
    if_neg Bool.false_ne_true, Cursor.pass_append, List.head?_append,
    List.head?_append, hrest]
  rfl

/-- **PARTS IN A ROW**: a repetition passes parts that its pattern takes
    before any rest, up to one that it refuses. -/
theorem takes_many_flatten {p : Pattern} {parts : List Text}
    (hparts : ∀ w ∈ parts, w ≠ [] ∧ ∀ rest, p.Takes w rest) {rest : Text}
    (hrest : p.Refuses rest) : (many p).Takes parts.flatten rest := by
  induction parts with
  | nil => exact takes_many_nil hrest
  | cons w parts ih =>
      obtain ⟨⟨hne, htakes⟩, hparts⟩ := List.forall_mem_cons.mp hparts
      exact takes_many_cons hne (htakes _) (ih hparts)

/-- A run of characters is passed whole. -/
theorem takes_many_one {p : Char → Bool} {w rest : Text}
    (hw : ∀ c ∈ w, p c = true) (hrest : rest.head?.any p = false) :
    (many (one p)).Takes w rest := by
  induction w with
  | nil => exact takes_many_nil (refuses_one hrest)
  | cons c w ih =>
      obtain ⟨hc, hw⟩ := List.forall_mem_cons.mp hw
      exact takes_many_cons (List.cons_ne_nil c []) (takes_one hc _) (ih hw)

/-- A run of a class is taken whole, if the character behind it is not of
    the class. -/
theorem takes_many1_one {p : Char → Bool} {w rest : Text} (hne : w ≠ [])
    (hw : ∀ c ∈ w, p c = true) (hrest : rest.head?.any p = false) :
    (many1 (one p)).Takes w rest := by
  obtain ⟨c, w, rfl⟩ := List.exists_cons_of_ne_nil hne
  obtain ⟨hc, hw⟩ := List.forall_mem_cons.mp hw
  exact Takes.seq (v := [c]) (takes_one hc _) (takes_many_one hw hrest)

/-- Characters behind one another take the word they spell. -/
theorem takes_ofList (word rest : Text) :
    (ofList (word.map char)).Takes word rest := by
  induction word with
  | nil => exact fun _ _ => rfl
  | cons c word ih => exact Takes.seq (v := [c]) (takes_char c _) ih

/-- A fixed text takes itself. -/
theorem takes_text (word : String) (rest : Text) :
    (text word).Takes word.toList rest :=
  takes_ofList word.toList rest

/-! ## The matches behind a place -/

/-- The matches from a place on. -/
def allFrom (p : Pattern) (s : Cursor) : List Match :=
  p.findAllFrom s.before s.offset 0 s.rest

/-- All matches of a text are those from its start. -/
theorem findAll_eq_allFrom (p : Pattern) (text : Text) :
    p.findAll text = p.allFrom (.atStart text) := rfl

/-- What is still to be skipped is passed over. -/
theorem findAllFrom_skip (p : Pattern) (w rest : Text) :
    ∀ (before : Option Char) (offset : Nat),
      p.findAllFrom before offset w.length (w ++ rest)
        = p.findAllFrom (w.getLast?.or before) (offset + w.length) 0 rest := by
  induction w with
  | nil => intro before offset; rfl
  | cons c w ih =>
      intro before offset
      rw [List.cons_append, List.length_cons, findAllFrom, ih]
      congr 1
      · cases hlast : w.getLast? with
        | none => rw [List.getLast?_eq_none_iff.mp hlast]; rfl
        | some d =>
            rw [List.getLast?_cons, hlast]
            rfl
      · omega

variable {p : Pattern} {s : Cursor} {w rest : Text}

/-- **BETWEEN MATCHES**: a stretch without matches is passed over. -/
theorem allFrom_quiet (hs : s.captures = []) (hrest : s.rest = w ++ rest)
    (hquiet : ∀ v c, v ++ [c] <+: w → p.results (s.pass v) = []) :
    p.allFrom s = p.allFrom (s.pass w) := by
  induction w generalizing s with
  | nil => rfl
  | cons c w ih =>
      obtain ⟨before, text, offset, captures⟩ := s
      obtain rfl : captures = [] := hs
      obtain rfl : text = c :: (w ++ rest) := hrest
      have hnone : p.matchAt ⟨before, c :: (w ++ rest), offset, []⟩ = none := by
        have hresults := hquiet [] c ⟨w, rfl⟩
        rw [Cursor.pass_nil] at hresults
        rw [matchAt_eq, hresults]
        rfl
      have hfirst : p.allFrom ⟨before, c :: (w ++ rest), offset, []⟩
          = p.allFrom ⟨some c, w ++ rest, offset + 1, []⟩ := by
        rw [allFrom, findAllFrom, hnone]
        rfl
      rw [hfirst, Cursor.pass_cons]
      refine ih rfl rfl fun v d hv => ?_
      rw [← Cursor.pass_cons before c]
      exact hquiet (c :: v) d ((List.prefix_cons_inj c).mpr hv)

/-- **BEHIND A MATCH**: the search goes on where a match ends. -/
theorem allFrom_match (hs : s.captures = []) (hrest : s.rest = w ++ rest)
    (hne : w ≠ []) {t : Cursor} (hfirst : (p.results s).head? = some t)
    (hstop : t.offset = s.offset + w.length) :
    p.allFrom s = Match.between s t :: p.allFrom (s.pass w) := by
  obtain ⟨c, w, rfl⟩ := List.exists_cons_of_ne_nil hne
  obtain ⟨before, text, offset, captures⟩ := s
  obtain rfl : captures = [] := hs
  obtain rfl : text = c :: (w ++ rest) := hrest
  have hskip : (Match.between ⟨before, c :: (w ++ rest), offset, []⟩ t).stop
      - offset - 1 = w.length := by
    show t.offset - offset - 1 = w.length
    rw [hstop, List.length_cons]
    show offset + (w.length + 1) - offset - 1 = w.length
    omega
  have hbehind : (Cursor.pass ⟨before, c :: (w ++ rest), offset, []⟩ (c :: w))
      = Cursor.pass ⟨some c, w ++ rest, offset + 1, []⟩ w :=
    Cursor.pass_cons ..
  rw [allFrom, findAllFrom, matchAt_of_head? hfirst]
  show _ :: p.findAllFrom _ _ (_ - offset - 1) _ = _
  rw [hskip, findAllFrom_skip, hbehind, allFrom, Cursor.pass]
  show _ = _ :: p.findAllFrom _ _ 0 ((w ++ rest).drop w.length)
  rw [List.drop_left]

/-- Every match is a way of the pattern at some place, which lies behind a
    stretch of the text. -/
theorem exists_place_of_mem_findAllFrom {m : Match} :
    ∀ {text : Text} {before : Option Char} {offset skip : Nat},
      m ∈ p.findAllFrom before offset skip text →
      ∃ front, front <+: text
        ∧ ∃ t ∈ p.results (Cursor.pass ⟨before, text, offset, []⟩ front),
          m = Match.between (Cursor.pass ⟨before, text, offset, []⟩ front) t := by
  intro text
  induction text with
  | nil =>
      intro before offset skip hm
      cases skip with
      | zero =>
          obtain ⟨t, ht, rfl⟩ :=
            exists_results_of_matchAt (Option.mem_toList.mp hm)
          exact ⟨[], List.nil_prefix, t, ht, rfl⟩
      | succ skip => exact nomatch hm
  | cons c rest ih =>
      intro before offset skip hm
      -- a match here, or one behind the next character
      have hcases : p.matchAt ⟨before, c :: rest, offset, []⟩ = some m
          ∨ ∃ skip', m ∈ p.findAllFrom (some c) (offset + 1) skip' rest := by
        cases skip with
        | succ skip => exact .inr ⟨skip, hm⟩
        | zero =>
            rw [findAllFrom] at hm
            split at hm
            · exact .inr ⟨0, hm⟩
            · rename_i first hfirst
              rcases List.mem_cons.mp hm with rfl | hlater
              · exact .inl hfirst
              · exact .inr ⟨_, hlater⟩
      rcases hcases with hfirst | ⟨skip', hlater⟩
      · obtain ⟨t, ht, rfl⟩ := exists_results_of_matchAt hfirst
        exact ⟨[], List.nil_prefix, t, ht, rfl⟩
      · obtain ⟨front, hfront, hplace⟩ := ih hlater
        refine ⟨c :: front, (List.prefix_cons_inj c).mpr hfront, ?_⟩
        rw [Cursor.pass_cons]
        exact hplace

/-- **PLACES OF MATCHES**: a match of a text is one at a place in it. -/
theorem exists_place_of_mem_findAll {text : Text} {m : Match}
    (h : m ∈ p.findAll text) :
    ∃ front, front <+: text
      ∧ ∃ t ∈ p.results ((Cursor.atStart text).pass front),
        m = Match.between ((Cursor.atStart text).pass front) t :=
  exists_place_of_mem_findAllFrom h

end Pattern

end CodeReview
