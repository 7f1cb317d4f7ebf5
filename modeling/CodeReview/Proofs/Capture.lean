import CodeReview.Pattern.Search

/-! # What a match remembers

    A match comes from a result of the pattern at its place
    (`exists_results_of_matchAt`).  What holds of each step on the way holds
    of the whole way (`Carries.of_mem_results`).  So a pattern changes only
    what is remembered under its own numbers (`lookup_captures_results`), and
    the stretch of a group is the one it matched, whatever came after it. -/

namespace CodeReview

namespace Pattern

/-! ## Results, constructor by constructor -/

theorem mem_results_seq {p q : Pattern} {s t : Cursor} :
    t ∈ (p ++ q).results s ↔ ∃ u ∈ p.results s, t ∈ q.results u :=
  List.mem_flatMap

theorem mem_results_group {index : Nat} {p : Pattern} {s t : Cursor} :
    t ∈ (group index p).results s
      ↔ ∃ u ∈ p.results s, s.remember u index = t :=
  List.mem_map

/-- One character is consumed, which then stands before the place, and
    nothing is remembered. -/
theorem of_mem_results_one {p : Char → Bool} {s t : Cursor}
    (h : t ∈ (one p).results s) :
    ∃ c, s.rest = c :: t.rest ∧ p c = true ∧ t.before = some c
      ∧ t.offset = s.offset + 1 ∧ t.captures = s.captures := by
  have hadvance : s.advance p = some t := Option.mem_toList.mp h
  rw [Cursor.advance] at hadvance
  split at hadvance
  · exact nomatch hadvance
  · rename_i c rest hrest
    by_cases hc : p c = true
    · rw [if_pos hc] at hadvance
      have heq := Option.some.inj hadvance
      subst heq
      exact ⟨c, hrest, hc, rfl, rfl, rfl⟩
    · rw [if_neg hc] at hadvance
      exact nomatch hadvance

/-- What every step preserves, a repetition preserves. -/
theorem iterate_preserves {R : Cursor → Cursor → Prop}
    (hrefl : ∀ s, R s s) (htrans : ∀ s t u, R s t → R t u → R s u)
    {step : Cursor → List Cursor} (hstep : ∀ s, ∀ t ∈ step s, R s t)
    (isLazy : Bool) :
    ∀ (fuel : Nat) (s : Cursor), ∀ t ∈ iterate step isLazy fuel s, R s t := by
  intro fuel
  induction fuel with
  | zero =>
      intro s t ht
      rw [List.mem_singleton.mp ht]
      exact hrefl s
  | succ fuel ih =>
      intro s t ht
      have hcases : t = s ∨ t ∈ (step s).flatMap fun u =>
          if s.offset < u.offset then iterate step isLazy fuel u else [] := by
        cases isLazy with
        | true => exact List.mem_cons.mp ht
        | false =>
            rcases List.mem_append.mp ht with hmore | hstop
            · exact Or.inr hmore
            · exact Or.inl (List.mem_singleton.mp hstop)
      -- either the repetition stops here, or it goes on from a later place
      rcases hcases with rfl | hmore
      · exact hrefl t
      · obtain ⟨u, hu, hrest⟩ := List.mem_flatMap.mp hmore
        by_cases hprogress : s.offset < u.offset
        · rw [if_pos hprogress] at hrest
          exact htrans s u t (hstep s u hu) (ih u t hrest)
        · rw [if_neg hprogress] at hrest
          exact nomatch hrest

/-! ## What is remembered -/

/-- The numbers under which a pattern remembers stretches. -/
def groups : Pattern → List Nat
  | nothing => []
  | one _ => []
  | seq p q => groups p ++ groups q
  | alt p q => groups p ++ groups q
  | star _ p => groups p
  | group index p => index :: groups p
  | edge _ => []
  | ahead _ _ => []
  | notAfter _ => []

private theorem mem_ite_singleton {c : Prop} [Decidable c] {s t : Cursor}
    (h : t ∈ (if c then [] else [s])) : t = s := by
  by_cases hc : c
  · rw [if_pos hc] at h
    exact nomatch h
  · rw [if_neg hc] at h
    exact List.mem_singleton.mp h

/-- Whether a relation leads along with every way to match: it can be put
    together, it holds for one character, and remembering a stretch under
    one of some numbers does not end it. -/
structure Carries (R : Cursor → Cursor → Prop) (indexes : List Nat) :
    Prop where
  refl : ∀ s, R s s
  trans : ∀ s t u, R s t → R t u → R s u
  one : ∀ (p : Char → Bool) s, ∀ t ∈ (one p).results s, R s t
  remember : ∀ index ∈ indexes, ∀ s t, R s t → R s (s.remember t index)

/-- Fewer numbers ask for less. -/
theorem Carries.mono {R : Cursor → Cursor → Prop} {indexes more : List Nat}
    (h : Carries R more) (hsub : indexes ⊆ more) : Carries R indexes where
  refl := h.refl
  trans := h.trans
  one := h.one
  remember index hindex := h.remember index (hsub hindex)

/-- **WAYS**: what is carried along leads from a place to every place that
    a pattern leads to from there, by induction over the pattern. -/
theorem Carries.of_mem_results {R : Cursor → Cursor → Prop} {p : Pattern}
    (h : Carries R p.groups) : ∀ s, ∀ t ∈ p.results s, R s t := by
  induction p with
  | nothing =>
      intro s t ht
      rw [List.mem_singleton.mp ht]
      exact h.refl s
  | one p => exact h.one p
  | seq p q ihp ihq =>
      intro s t ht
      obtain ⟨u, hu, hrest⟩ := mem_results_seq.mp ht
      exact h.trans s u t
        (ihp (h.mono (List.subset_append_left _ _)) s u hu)
        (ihq (h.mono (List.subset_append_right _ _)) u t hrest)
  | alt p q ihp ihq =>
      intro s t ht
      rcases List.mem_append.mp ht with hp | hq
      · exact ihp (h.mono (List.subset_append_left _ _)) s t hp
      · exact ihq (h.mono (List.subset_append_right _ _)) s t hq
  | star isLazy p ih =>
      -- each turn carries the relation, and so do all of them
      intro s t ht
      exact iterate_preserves h.refl h.trans (ih h) isLazy _ s t ht
  | group index p ih =>
      intro s t ht
      obtain ⟨u, hu, rfl⟩ := mem_results_group.mp ht
      exact h.remember index List.mem_cons_self s u
        (ih (h.mono (List.subset_cons_self _ _)) s u hu)
  | edge e =>
      intro s t ht
      by_cases he : s.isAt e = true
      · rw [results, if_pos he] at ht
        rw [List.mem_singleton.mp ht]
        exact h.refl s
      · rw [results, if_neg he] at ht
        exact absurd ht List.not_mem_nil
  | ahead wanted p _ =>
      intro s t ht
      rw [results] at ht
      rw [mem_ite_singleton ht]
      exact h.refl s
  | notAfter p =>
      intro s t ht
      rw [results] at ht
      rw [mem_ite_singleton ht]
      exact h.refl s

/-- **FRAME**: what is remembered under other numbers stays. -/
theorem lookup_captures_results {index : Nat} {p : Pattern}
    (hindex : index ∉ p.groups) :
    ∀ s, ∀ t ∈ p.results s,
      t.captures.lookup index = s.captures.lookup index := by
  refine Carries.of_mem_results
    (R := fun s t => t.captures.lookup index = s.captures.lookup index)
    ⟨fun _ => rfl, fun _ _ _ hst htu => htu.trans hst, ?_, ?_⟩
  · intro p s t ht
    obtain ⟨_, _, _, _, _, hcaptures⟩ := of_mem_results_one ht
    rw [hcaptures]
  · -- what another group remembers hides nothing
    intro other hother s t hst
    have hne : index ≠ other := fun heq => hindex (heq ▸ hother)
    show ((other, _) :: t.captures).lookup index = _
    rw [List.lookup_cons, beq_false_of_ne hne]
    exact hst

/-! ## Literal texts -/

/-- A literal text is what stands between a place and its result. -/
theorem of_mem_results_text {word : Text} :
    ∀ {s t : Cursor}, t ∈ (ofList (word.map char)).results s →
      s.rest = word ++ t.rest ∧ t.offset = s.offset + word.length := by
  induction word with
  | nil =>
      intro s t ht
      rw [List.mem_singleton.mp ht]
      exact ⟨rfl, rfl⟩
  | cons c word ih =>
      intro s t ht
      obtain ⟨u, hu, hrest⟩ := mem_results_seq.mp ht
      obtain ⟨c', hhead, hc, _, hoffset, _⟩ := of_mem_results_one hu
      obtain ⟨htail, hlength⟩ := ih hrest
      constructor
      · rw [hhead, htail, beq_iff_eq.mp hc]
        rfl
      · rw [hlength, hoffset, List.length_cons]
        omega

/-- One of some literal texts stands between a place and a result of
    theirs. -/
theorem of_mem_results_texts {words : List String} {s t : Cursor}
    (h : t ∈ (texts words).results s) :
    ∃ word ∈ words,
      s.rest = word.toList ++ t.rest
        ∧ t.offset = s.offset + word.toList.length := by
  induction words with
  | nil =>
      obtain ⟨_, _, hc, _⟩ := of_mem_results_one h
      exact nomatch hc
  | cons word words ih =>
      cases words with
      | nil => exact ⟨word, List.mem_cons_self, of_mem_results_text h⟩
      | cons next words =>
          rcases List.mem_append.mp h with hfirst | hothers
          · exact ⟨word, List.mem_cons_self, of_mem_results_text hfirst⟩
          · obtain ⟨other, hother, hmatch⟩ := ih hothers
            exact ⟨other, List.mem_cons_of_mem _ hother, hmatch⟩

/-- A group of literal texts remembers one of them. -/
theorem lookup_captures_group_texts {index : Nat} {words : List String}
    {s t : Cursor} (h : t ∈ (group index (texts words)).results s) :
    ∃ word ∈ words,
      t.captures.lookup index = some ⟨s.offset, word.toList⟩ := by
  obtain ⟨u, hu, rfl⟩ := mem_results_group.mp h
  obtain ⟨word, hword, hrest, hoffset⟩ := of_mem_results_texts hu
  refine ⟨word, hword, ?_⟩
  -- what lies between the places is as long as the word
  have htext : s.textTo u = word.toList := by
    rw [Cursor.textTo, hoffset, hrest, Nat.add_sub_cancel_left]
    exact List.take_left
  show ((index, (⟨s.offset, s.textTo u⟩ : Capture)) :: u.captures).lookup
    index = _
  rw [List.lookup_cons, beq_self_eq_true, htext]

/-! ## Where matches come from -/

/-- A match leads from its place to a result of the pattern there. -/
theorem exists_results_of_matchAt {p : Pattern} {s : Cursor}
    {m : Match} (h : p.matchAt s = some m) :
    ∃ t ∈ p.results s, m = Match.between s t := by
  rw [matchAt_eq] at h
  obtain ⟨t, ht, rfl⟩ := List.mem_map.mp (List.mem_of_head? h)
  exact ⟨t, ht, rfl⟩

end Pattern

end CodeReview
