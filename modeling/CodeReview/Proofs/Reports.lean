import CodeReview.Proofs.Location
import Mathlib.Data.List.Basic

/-! # What detectors report

    The findings about a file are those of the detectors of its language,
    without those that are made to fail.  A finding belongs to one detector
    only, since its message is worded by the rules of one: so a detector
    that fails takes its own findings away and no other
    (`value_detectAll_failing`). -/

namespace CodeReview

namespace Faults

/-- The names of the detectors that are made to fail. -/
def names (faults : Faults) : List String := faults.detectors.map (·.1)

theorem isSome_lookup_iff {faults : Faults} {name : String} :
    (faults.detectors.lookup name).isSome = true ↔ name ∈ faults.names := by
  rw [List.lookup_isSome_iff, names, List.mem_map]
  refine exists_congr fun failure => and_congr_right fun _ => ?_
  rw [beq_iff_eq]
  exact eq_comm

/-- A detector that fails is one of the named ones. -/
theorem mem_names_of_lookup {faults : Faults} {name : String}
    {failure : String} (h : faults.detectors.lookup name = some failure) :
    name ∈ faults.names := by
  rw [← isSome_lookup_iff, h]
  rfl

/-- A detector that does not fail is none of the named ones. -/
theorem not_mem_names_of_lookup {faults : Faults} {name : String}
    (h : faults.detectors.lookup name = none) : name ∉ faults.names := by
  rw [← isSome_lookup_iff, h]
  exact Bool.false_ne_true

end Faults

/-- What is left of a detector's findings under some faults. -/
theorem value_detectWith (faults : Faults) (s : Subject) (d : Detector) :
    (detectWith faults s d).value
      = if d.name ∈ faults.names then [] else d.reports s := by
  rw [detectWith, Faults.attempt]
  cases hlookup : faults.detectors.lookup d.name with
  | some failure =>
      rw [if_pos (Faults.mem_names_of_lookup hlookup)]
      rfl
  | none =>
      rw [if_neg (Faults.not_mem_names_of_lookup hlookup), Detector.reports]
      cases d.run s with
      | ok findings => rfl
      | error failure => rfl

theorem value_detectAll (faults : Faults) (s : Subject) :
    (detectAll faults s).value
      = (Detector.ofLanguage s.language).flatMap fun d =>
          if d.name ∈ faults.names then [] else d.reports s := by
  simp only [detectAll, Logged.value_bind, Logged.value_mapM,
    Logged.value_pure, value_detectWith]
  rfl

/-- Without faults, all detectors report. -/
theorem value_detectAll_of_nil {faults : Faults}
    (h : faults.detectors = []) (s : Subject) :
    (detectAll faults s).value
      = (Detector.ofLanguage s.language).flatMap fun d => d.reports s := by
  rw [value_detectAll, Faults.names, h]
  rfl

namespace Detector

/-- What an entry's detector reports is reported under its rules. -/
theorem reported_of_mem_reports {s : Subject} (hblocks : s.BlocksWithin)
    {e : Entry} (he : e ∈ Entry.catalogue) {f : Finding}
    (hf : f ∈ e.detector.reports s) : Reported s e.rules f :=
  (e.follows.reports (Entry.isSaid_of_mem he) hblocks).2.2 f hf

/-- A finding is reported by one detector of a language at most. -/
theorem eq_of_mem_reports {s : Subject} (hblocks : s.BlocksWithin)
    {language : Language} {d d' : Detector}
    (hd : d ∈ ofLanguage (some language))
    (hd' : d' ∈ ofLanguage (some language)) {f : Finding}
    (hf : f ∈ d.reports s) (hf' : f ∈ d'.reports s) : d = d' := by
  obtain ⟨e, he, rfl⟩ := Entry.exists_entry hd
  obtain ⟨e', he', rfl⟩ := Entry.exists_entry hd'
  obtain ⟨r, hr, hcovers⟩ :=
    (reported_of_mem_reports hblocks (List.mem_filter.mp he).1 hf).covered
  obtain ⟨r', hr', hcovers'⟩ :=
    (reported_of_mem_reports hblocks (List.mem_filter.mp he').1 hf').covered
  rw [Entry.eq_of_entry_words he he' ⟨r, hr, hcovers.words⟩
    ⟨r', hr', hcovers'.words⟩]

end Detector

/-- The findings about a file of the detectors with some names. -/
def Subject.reportsOf (s : Subject) (names : List String) : List Finding :=
  ((Detector.ofLanguage s.language).filter (·.name ∈ names)).flatMap
    fun d => d.reports s

theorem Subject.mem_reportsOf {s : Subject} {names : List String}
    {f : Finding} :
    f ∈ s.reportsOf names
      ↔ ∃ d ∈ Detector.ofLanguage s.language,
        d.name ∈ names ∧ f ∈ d.reports s := by
  rw [reportsOf, List.mem_flatMap]
  simp only [List.mem_filter, decide_eq_true_eq, and_assoc]

/-- **ONE FILE**: further detectors that fail take their own findings
    away. -/
theorem value_detectAll_failing {s : Subject} (hblocks : s.BlocksWithin)
    {language : Language} (hlanguage : s.language = some language)
    {clean faults : Faults} {names : List String}
    (hnames : ∀ name, name ∈ faults.names ↔ name ∈ clean.names ∨ name ∈ names) :
    (detectAll faults s).value
      = (detectAll clean s).value.filter (· ∉ s.reportsOf names) := by
  rw [value_detectAll, value_detectAll, List.filter_flatMap]
  refine List.flatMap_congr ?_
  intro d hd
  by_cases hclean : d.name ∈ clean.names
  · rw [if_pos hclean, if_pos ((hnames d.name).mpr (.inl hclean))]
    rfl
  rw [if_neg hclean]
  by_cases hname : d.name ∈ names
  · rw [if_pos ((hnames d.name).mpr (.inr hname))]
    refine (List.filter_eq_nil_iff.mpr ?_).symm
    intro f hf hstays
    exact of_decide_eq_true hstays (Subject.mem_reportsOf.mpr ⟨d, hd, hname, hf⟩)
  · rw [if_neg fun h => ((hnames d.name).mp h).elim hclean hname]
    refine (List.filter_eq_self.mpr ?_).symm
    intro f hf
    refine decide_eq_true ?_
    intro hgone
    -- a failing detector that reports the same would be this one
    obtain ⟨d', hd', hname', hf'⟩ := Subject.mem_reportsOf.mp hgone
    rw [hlanguage] at hd hd'
    rw [Detector.eq_of_mem_reports hblocks hd hd' hf hf'] at hname
    exact hname hname'

end CodeReview
