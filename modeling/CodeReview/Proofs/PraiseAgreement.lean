import CodeReview.Proofs.BlockFindings
import CodeReview.Proofs.Merits
import CodeReview.Proofs.Stretches

/-! # Praise and findings agree

    What a file is praised for and what is found wrong with it are told
    apart by patterns of their own.  The two agree since each way for the
    narrower pattern to match is one for the wider pattern
    (`scopedStyle_within`), or since the one ends in a text that is enough
    for the other (`occursIn_permittedParameters`). -/

namespace CodeReview

/-! ## Patterns inside others -/

namespace Pattern

/-- Whether each way for a pattern to match is one for another. -/
def Within (p q : Pattern) : Prop := ∀ s, p.results s ⊆ q.results s

variable {p q p' q' : Pattern}

theorem Within.refl (p : Pattern) : p.Within p := fun _ => List.Subset.refl _

/-- A sequence matches less if each part does. -/
theorem Within.seq (hp : p.Within p') (hq : q.Within q') :
    (p ++ q).Within (p' ++ q') := by
  intro s t ht
  obtain ⟨u, hu, ht⟩ := mem_results_seq.mp ht
  exact mem_results_seq.mpr ⟨u, hp s hu, hq u ht⟩

/-- Each side of an alternative matches less than both. -/
theorem within_alt_right (p q : Pattern) : q.Within (p ||| q) :=
  fun _ => List.subset_append_right _ _

/-- A pattern that reads less matches less. -/
theorem Reads.within {L M : Text → Prop} (hp : p.Reads L) (hq : q.Reads M)
    (h : ∀ w, L w → M w) : p.Within q := by
  intro s t ht
  obtain ⟨w, hw, hstretch⟩ := (hp s t).mp ht
  exact (hq s t).mpr ⟨w, h w hw, hstretch⟩

/-- Where the one matches, so does the other. -/
theorem Within.occursIn (h : p.Within q) {text : Text}
    (hp : p.occursIn text = true) : q.occursIn text = true := by
  obtain ⟨w, hw, hresults⟩ := occursIn_iff.mp hp
  obtain ⟨t, ht⟩ := List.exists_mem_of_ne_nil _ hresults
  exact occursIn_iff.mpr ⟨w, hw, List.ne_nil_of_mem (h _ ht)⟩

end Pattern

/-! ## What is found in praised files -/

open Pattern PraiseDetector Detector

namespace Detector

/-- A detector that follows rules and never looks at blocks reports what it
    finds, also about a file whose blocks are not within it. -/
theorem Blind.run_eq_ok_iff {d : Detector} {rules : List Rule}
    (hblind : d.Blind) (hd : d.Follows rules) (hsaid : ∀ r ∈ rules, r.IsSaid)
    {s : Subject} {found : List Finding} :
    d.run s = .ok found ↔ d.findings s = .ok found := by
  obtain ⟨hfindings, hrun, _⟩ := hd.reports hsaid s.blocksWithin_bare
  rw [hblind] at hfindings
  rw [run, hblind, ← run] at hrun
  rw [hrun, hfindings, Except.ok.injEq, Except.ok.injEq]

/-- A scoped style section does not leak. -/
theorem scopedStyle_within : scopedStyle.Within containedStyle := by
  refine Within.seq (Within.seq (Within.refl _) ?_) (Within.refl _)
  refine (reads_text "scoped").within (reads_texts _) ?_
  rintro w rfl
  exact ⟨"scoped", by simp, rfl⟩

/-- Where every style is scoped, no unscoped style is reported. -/
theorem run_unscopedStyles_of_scoped {s : Subject}
    (h : ∀ m ∈ styleTag.findAll s.content,
      scopedStyle.occursIn (m.group 1) = true) :
    unscopedStyles.run s = .ok [] := by
  have hblind : unscopedStyles.Blind := fun _ => rfl
  refine (hblind.run_eq_ok_iff unscopedStyles_follows (by decide +kernel)).mpr
    (congrArg Except.ok ?_)
  refine List.filterMap_eq_nil_iff.mpr ?_
  rintro ⟨line, m⟩ hm
  exact if_pos (scopedStyle_within.occursIn (h m (Subject.mem_allMatches hm).1))

/-- No list without keys is found if every list has keys. -/
theorem run_unkeyedLists_eq_nil_iff {s : Subject} :
    unkeyedLists.run s = .ok []
      ↔ ∀ tag ∈ tags s, listDirective.occursIn tag.attrs = true →
        keyBinding.occursIn tag.attrs = true := by
  have hblind : unkeyedLists.Blind := fun _ => rfl
  rw [hblind.run_eq_ok_iff unkeyedLists_follows (by decide +kernel),
    unkeyedLists, Except.ok.injEq, List.filterMap_eq_nil_iff]
  refine forall₂_congr fun tag _ => ?_
  cases hsearch : listDirective.search tag.attrs with
  | none => simp [Pattern.occursIn, hsearch]
  | some m => simp [Pattern.occursIn, hsearch, Option.isSome_iff_ne_none]

/-- Parameters that are required and permitted are permitted. -/
theorem occursIn_permittedParameters {content : Text}
    (h : PraiseDetector.strongParameters.occursIn content = true) :
    permittedParameters.occursIn content = true := by
  refine (within_alt_right _ _).occursIn ((reads_text _).occursIn_iff.mpr ?_)
  obtain ⟨w, ⟨front, call, rfl, _, rfl⟩, hw⟩ :=
    (reads_seq (reads_seq (reads_text _) (reads_many _))
      (reads_text _)).occursIn_iff.mp h
  -- the call that permits is behind a bracket
  have hcall : ".permit(".toList <:+: front ++ ").permit(".toList :=
    ⟨front ++ [')'], [], by simp⟩
  exact ⟨_, rfl, hcall.trans hw⟩

/-- Where parameters are permitted, no raw parameter is reported. -/
theorem run_unpermittedParams_of_strong {s : Subject}
    (h : PraiseDetector.strongParameters.occursIn s.content = true) :
    unpermittedParams.run s = .ok [] := by
  have hblind : unpermittedParams.Blind := fun _ => rfl
  refine (hblind.run_eq_ok_iff unpermittedParams_follows
    (by decide +kernel)).mpr (congrArg Except.ok ?_)
  exact if_pos (occursIn_permittedParameters h)

/-- The message about records that are loaded without their
    associations. -/
def eagerLoadingMessage : String :=
  "Using .all without eager loading can cause N+1 query problems"

/-- A lookup in an iteration is not reported as missing eager loading. -/
theorem message_of_mem_perItemLookups {s : Subject} {found : List Iteration}
    {f : Finding} (hf : f ∈ perItemLookups s found) :
    f.message ≠ eagerLoadingMessage := by
  obtain ⟨it, _, rfl⟩ := List.mem_map.mp hf
  intro heq
  have hbeginning : beginning eagerLoadingMessage
      = beginning "Potential N+1 query: per-item lookup inside ." := by
    rw [← heq]
    exact (congrArg beginning String.append_assoc).trans
      (beginning_append (by decide +kernel) _)
  exact absurd hbeginning (by decide +kernel)

/-- Where associations are loaded in advance, only lookups in iterations are
    reported. -/
theorem run_nPlusOne_of_eagerLoading {s : Subject}
    (h : eagerLoading.occursIn s.content = true) :
    ∃ found, nPlusOne.run s = .ok found
      ∧ ∀ f ∈ found, f.message ≠ eagerLoadingMessage := by
  obtain ⟨found, hfound, _⟩ := exists_iterations s
  have hmissing : eagerLoadingMissing s = [] :=
    if_neg (by simp [h])
  have hfindings : nPlusOne.findings s = .ok (perItemLookups s found) := by
    show iterations s >>= _ = _
    rw [hfound, ← List.append_nil (perItemLookups s found), ← hmissing]
    rfl
  have hblind : nPlusOne.Blind := fun _ => rfl
  exact ⟨_, (hblind.run_eq_ok_iff nPlusOne_follows (by decide +kernel)).mpr
    hfindings, fun _ => message_of_mem_perItemLookups⟩

end Detector

namespace PraiseDetector

/-- **PRAISE AGREES WITH FINDINGS**: where scoped styles are noted, no
    global style is reported; where strong parameters are noted, no direct
    access is; where eager loading is noted, no record without its
    associations is.  Stable keys are noted about the components in which
    some tag is a list and no list without keys is reported. -/
theorem praise_agrees_with_findings (s : Subject) :
    (IsNoted s (Merit.scopedStyles.note s) → unscopedStyles.run s = .ok [])
    ∧ (IsNoted s (Merit.stableKeys.note s) ↔
      s.language = some .vue
        ∧ (∃ tag ∈ tags s, listDirective.occursIn tag.attrs = true)
        ∧ unkeyedLists.run s = .ok [])
    ∧ (IsNoted s (Merit.strongParameters.note s) →
      unpermittedParams.run s = .ok [])
    ∧ (IsNoted s (Merit.eagerLoading.note s) →
      ∃ found, nPlusOne.run s = .ok found
        ∧ ∀ f ∈ found, f.message ≠ eagerLoadingMessage) := by
  simp only [isNoted_note_iff]
  refine ⟨?_, ?_, ?_, ?_⟩
  · rintro ⟨_, _, hscoped⟩
    exact run_unscopedStyles_of_scoped hscoped
  · rw [run_unkeyedLists_eq_nil_iff]
    exact Iff.rfl
  · rintro ⟨_, hstrong⟩
    exact run_unpermittedParams_of_strong hstrong
  · rintro ⟨_, hloading⟩
    exact run_nPlusOne_of_eagerLoading hloading

/-- A list with keys in a file that is no component. -/
def keyedScript : Subject :=
  .ofContent "cart.js" "<li v-for=\"item in items\" :key=\"item.id\">".toList
    (some .javascript) {}

/-- Its keys are stable and nobody reports them, but outside of components
    nobody notes them either. -/
theorem keyedScript_not_noted :
    ¬ (IsNoted keyedScript (Merit.stableKeys.note keyedScript) ↔
      (∃ tag ∈ tags keyedScript, listDirective.occursIn tag.attrs = true)
        ∧ unkeyedLists.run keyedScript = .ok []) := by
  have hlist : ∃ tag ∈ tags keyedScript,
      listDirective.occursIn tag.attrs = true := by decide +kernel
  have hnothing : unkeyedLists.run keyedScript = .ok [] := by decide +kernel
  intro hiff
  obtain ⟨hvue, _⟩ := isNoted_note_iff.mp (hiff.mpr ⟨hlist, hnothing⟩)
  exact nomatch hvue

end PraiseDetector

end CodeReview
