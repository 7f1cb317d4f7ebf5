import CodeReview.Proofs.Reports

/-! # Findings that come from blocks

    Four kinds of findings are about the blocks of a file: methods that are
    long or complex, names of Ruby methods, and actions that are not RESTful.
    Without its blocks a file has exactly the other findings
    (`value_detectAll_bare`).  Four detectors lose the part that comes from
    blocks, whose wording is its own; all others never look at blocks, and
    report no such finding, since a finding has one detector only. -/

namespace CodeReview

open Detector

namespace Subject

/-- The file, without its blocks. -/
def bare (s : Subject) : Subject := { s with blocks := [] }

/-- A file without blocks has none that start outside it. -/
theorem blocksWithin_bare (s : Subject) : s.bare.BlocksWithin :=
  fun _ h => nomatch h

/-- Long and complex methods. -/
def methodFindings (s : Subject) : List Finding :=
  longBlocks.reports s ++ complexBlocks.reports s

/-- Actions that are not RESTful, in a file that is a controller. -/
def actionFindings (s : Subject) : List Finding :=
  if !s.inFolder "controllers" || s.isTest then [] else nonRestfulActions s

/-- The findings about a file that come from its blocks. -/
def blockFindings (s : Subject) : List Finding :=
  match s.language with
  | some .ruby => s.methodFindings ++ rubyMethodNaming s ++ s.actionFindings
  | some .javascript | some .vue => s.methodFindings
  | _ => []

end Subject

/-! ## Their rules -/

/-- The rules of the findings that come from blocks. -/
def blockRules : List Rule :=
  [longBlocksRule, complexBlocksRule, rubyMethodNamingRule,
   nonRestfulActionsRule]

variable {s : Subject}

/-- Long and complex methods are reported under the rules for blocks. -/
theorem reported_methodFindings (hblocks : s.BlocksWithin) :
    ∀ f ∈ s.methodFindings, Reported s blockRules f := by
  obtain ⟨_, _, hlong⟩ := longBlocks_follows.reports (by decide) hblocks
  obtain ⟨_, _, hcomplex⟩ := complexBlocks_follows.reports (by decide) hblocks
  refine reported_append ?_ ?_
  · exact fun f hf => (hlong f hf).mono (by simp [blockRules])
  · exact fun f hf => (hcomplex f hf).mono (by simp [blockRules])

/-- Every finding that comes from blocks follows one of their rules. -/
theorem reported_blockFindings (hblocks : s.BlocksWithin) :
    ∀ f ∈ s.blockFindings, Reported s blockRules f := by
  have hmethods := reported_methodFindings hblocks
  rw [Subject.blockFindings]
  split
  · refine reported_append (reported_append hmethods ?_)
      (reported_ite reported_nil ?_)
    · exact fun f hf => (reported_rubyMethodNaming hblocks f hf).mono
        (by simp [blockRules])
    · exact fun f hf => (reported_nonRestfulActions s f hf).mono
        (by simp [blockRules])
  · exact hmethods
  · exact hmethods
  · exact reported_nil

/-- What is worded by other rules does not come from blocks. -/
theorem filter_blockFindings_eq_self (hblocks : s.BlocksWithin)
    {rules : List Rule} (hapart : ∀ r ∈ rules, ∀ b ∈ blockRules, r.Apart b)
    {findings : List Finding} (h : ∀ f ∈ findings, Reported s rules f) :
    findings.filter (· ∉ s.blockFindings) = findings := by
  refine List.filter_eq_self.mpr ?_
  intro f hf
  refine decide_eq_true ?_
  intro hblock
  obtain ⟨r, hr, hcovers⟩ := (h f hf).covered
  obtain ⟨b, hb, hcovers'⟩ := (reported_blockFindings hblocks f hblock).covered
  exact Rule.not_apart_of_words hcovers.words hcovers'.words (hapart r hr b hb)

/-- Of findings that come from blocks nothing is left without them. -/
theorem filter_blockFindings_eq_nil {findings : List Finding}
    (h : findings ⊆ s.blockFindings) :
    findings.filter (· ∉ s.blockFindings) = [] := by
  refine List.filter_eq_nil_iff.mpr ?_
  intro f hf hstays
  exact of_decide_eq_true hstays (h hf)

/-! ## Detectors without blocks -/

namespace Detector

/-- Whether a detector never looks at blocks. -/
def Blind (d : Detector) : Prop :=
  ∀ s : Subject, d.findings s.bare = d.findings s

/-- A detector that never looks at blocks reports the same without them. -/
theorem Blind.reports_bare {d : Detector} (h : d.Blind) (s : Subject) :
    d.reports s.bare = d.reports s := by
  rw [reports, reports, run, run, h]

/-- Without the blocks of a file, a detector for some languages loses the
    findings that come from them. -/
def Sheds (d : Detector) (languages : List Language) : Prop :=
  ∀ s : Subject, s.BlocksWithin → ∀ language ∈ languages,
    s.language = some language →
      d.reports s.bare = (d.reports s).filter (· ∉ s.blockFindings)

/-- A detector of methods loses everything. -/
theorem sheds_of_methods {d : Detector}
    (hbare : ∀ s : Subject, d.reports s.bare = [])
    (hmethods : ∀ s : Subject, d.reports s ⊆ s.methodFindings) :
    d.Sheds [.ruby, .javascript, .vue] := by
  intro s _ language hlanguage heq
  have hblock : s.methodFindings ⊆ s.blockFindings := by
    rw [Subject.blockFindings, heq]
    simp only [List.mem_cons, List.not_mem_nil, or_false] at hlanguage
    rcases hlanguage with rfl | rfl | rfl
    · exact fun f hf => List.mem_append_left _ (List.mem_append_left _ hf)
    · exact List.Subset.refl _
    · exact List.Subset.refl _
  rw [hbare, filter_blockFindings_eq_nil (List.Subset.trans (hmethods s) hblock)]

/-- Without blocks no method is long. -/
theorem longBlocks_sheds : longBlocks.Sheds [.ruby, .javascript, .vue] :=
  sheds_of_methods (fun _ => rfl) fun _ => List.subset_append_left _ _

/-- Without blocks no method is complex. -/
theorem complexBlocks_sheds :
    complexBlocks.Sheds [.ruby, .javascript, .vue] :=
  sheds_of_methods (fun _ => rfl) fun _ => List.subset_append_right _ _

/-- The names in a Ruby file are reported kind by kind; methods are one
    kind. -/
theorem reports_rubyNaming (hblocks : s.BlocksWithin) :
    rubyNaming.reports s
      = rubyClassNaming s ++ rubyMethodNaming s ++ rubyConstantNaming s
        ++ rubyVariableNaming s :=
  (Except.ok.inj (rubyNaming_follows.reports (by decide) hblocks).1).symm

/-- Without blocks the names of methods are lost, and those of classes,
    constants and variables stay. -/
theorem rubyNaming_sheds : rubyNaming.Sheds [.ruby] := by
  intro s hblocks language hlanguage heq
  rw [List.mem_singleton.mp hlanguage] at heq
  have hmethods : rubyMethodNaming s ⊆ s.blockFindings := by
    rw [Subject.blockFindings, heq]
    exact fun f hf => List.mem_append_left _ (List.mem_append_right _ hf)
  rw [reports_rubyNaming hblocks, reports_rubyNaming s.blocksWithin_bare,
    List.filter_append, List.filter_append, List.filter_append,
    filter_blockFindings_eq_self hblocks (by decide)
      (reported_rubyClassNaming s),
    filter_blockFindings_eq_nil hmethods,
    filter_blockFindings_eq_self hblocks (by decide)
      (reported_rubyConstantNaming s),
    filter_blockFindings_eq_self hblocks (by decide)
      (reported_rubyVariableNaming s)]
  rfl

/-- A controller is reported on for its actions, its writes and its error
    handling. -/
theorem reports_controllerConventions (hblocks : s.BlocksWithin) :
    controllerConventions.reports s
      = if !s.inFolder "controllers" || s.isTest then []
        else nonRestfulActions s ++ missingTransaction s
          ++ missingErrorHandling s :=
  (Except.ok.inj
    (controllerConventions_follows.reports (by decide) hblocks).1).symm

/-- Without blocks a controller has no actions. -/
theorem nonRestfulActions_bare (s : Subject) :
    nonRestfulActions s.bare = [] := by
  have hpublic : publicBlocks s.bare = [] := by
    rw [publicBlocks]
    split
    · rfl
    · rfl
  rw [nonRestfulActions, customActions, hpublic]
  rfl

/-- Without blocks the unusual actions are lost, and the rest about a
    controller stays. -/
theorem controllerConventions_sheds : controllerConventions.Sheds [.ruby] := by
  intro s hblocks language hlanguage heq
  rw [List.mem_singleton.mp hlanguage] at heq
  have hactions : s.actionFindings ⊆ s.blockFindings := by
    rw [Subject.blockFindings, heq]
    exact fun f hf => List.mem_append_right _ hf
  rw [Subject.actionFindings] at hactions
  rw [reports_controllerConventions hblocks,
    reports_controllerConventions s.blocksWithin_bare, nonRestfulActions_bare]
  show (if !s.inFolder "controllers" || s.isTest then [] else _) = _
  split
  · rfl
  · rename_i hcontroller
    rw [if_neg hcontroller] at hactions
    rw [List.filter_append, List.filter_append,
      filter_blockFindings_eq_nil hactions,
      filter_blockFindings_eq_self hblocks (by decide)
        (reported_missingTransaction s),
      filter_blockFindings_eq_self hblocks (by decide)
        (reported_missingErrorHandling s)]
    rfl

end Detector

/-! ## All detectors together -/

/-- Every entry of the catalogue: four detectors look at blocks, each with
    a lemma of its own, and the others do not. -/
theorem Entry.blind_or_sheds :
    catalogue.Forall fun e =>
      e.detector.Blind ∨ e.detector.Sheds e.languages := by
  refine ⟨?_, ?_, .inr longBlocks_sheds, .inr complexBlocks_sheds, ?_,
    .inr rubyNaming_sheds, ?_, ?_, ?_, ?_, ?_, ?_, ?_, ?_,
    .inr controllerConventions_sheds, ?_, ?_, ?_, ?_, ?_, ?_, ?_, ?_, ?_, ?_,
    ?_, ?_, ?_, ?_, ?_, ?_, ?_, ?_, ?_, ?_⟩
  all_goals exact .inl fun _ => rfl

namespace Detector

/-- A detector registered for a language runs on files of that language. -/
theorem mem_ofLanguage {d : Detector} {languages : List Language}
    (h : (d, languages) ∈ registered) {language : Language}
    (hlanguage : language ∈ languages) : d ∈ ofLanguage (some language) :=
  List.mem_map.mpr ⟨(d, languages), List.mem_filter.mpr
    ⟨h, List.contains_iff_mem.mpr hlanguage⟩, rfl⟩

/-- What is about methods is reported by a detector that looks at blocks. -/
theorem exists_method_reader {f : Finding} (hf : f ∈ s.methodFindings) :
    ∃ d, (d, [.ruby, .javascript, .vue]) ∈ registered
      ∧ d.Sheds [.ruby, .javascript, .vue] ∧ f ∈ d.reports s := by
  rcases List.mem_append.mp hf with hlong | hcomplex
  · exact ⟨longBlocks, by simp [registered], longBlocks_sheds, hlong⟩
  · exact ⟨complexBlocks, by simp [registered], complexBlocks_sheds, hcomplex⟩

/-- What comes from blocks is reported by a detector that looks at them. -/
theorem exists_reader (hblocks : s.BlocksWithin) {language : Language}
    (hlanguage : s.language = some language) {f : Finding}
    (hf : f ∈ s.blockFindings) :
    ∃ d languages, (d, languages) ∈ registered ∧ language ∈ languages
      ∧ d.Sheds languages ∧ f ∈ d.reports s := by
  rw [Subject.blockFindings, hlanguage] at hf
  cases language with
  | ruby =>
      rcases List.mem_append.mp hf with hf | haction
      · rcases List.mem_append.mp hf with hmethod | hname
        · obtain ⟨d, hd, hsheds, hf⟩ := exists_method_reader hmethod
          exact ⟨d, _, hd, by decide, hsheds, hf⟩
        · -- the names of methods are one of four kinds of names
          refine ⟨rubyNaming, [.ruby], by simp [registered],
            List.mem_cons_self, rubyNaming_sheds, ?_⟩
          rw [reports_rubyNaming hblocks]
          simp [hname]
      · -- and the actions one of three parts about controllers
        refine ⟨controllerConventions, [.ruby], by simp [registered],
          List.mem_cons_self, controllerConventions_sheds, ?_⟩
        rw [reports_controllerConventions hblocks]
        rw [Subject.actionFindings] at haction
        split at haction
        · exact nomatch haction
        · rename_i hcontroller
          rw [if_neg hcontroller]
          simp [haction]
  | javascript =>
      obtain ⟨d, hd, hsheds, hf⟩ := exists_method_reader hf
      exact ⟨d, _, hd, by decide, hsheds, hf⟩
  | vue =>
      obtain ⟨d, hd, hsheds, hf⟩ := exists_method_reader hf
      exact ⟨d, _, hd, by decide, hsheds, hf⟩
  | graphql => exact nomatch hf
  | template => exact nomatch hf

/-- What a detector reports that never looks at blocks does not come from
    them. -/
theorem Blind.not_mem_blockFindings {d : Detector} (h : d.Blind)
    (hblocks : s.BlocksWithin) {language : Language}
    (hlanguage : s.language = some language)
    (hd : d ∈ ofLanguage (some language)) {f : Finding}
    (hf : f ∈ d.reports s) : f ∉ s.blockFindings := by
  intro hblock
  obtain ⟨d', languages, hd', hmem, hsheds, hf'⟩ :=
    exists_reader hblocks hlanguage hblock
  -- the two detectors are one, which loses the finding and does not
  obtain rfl : d = d' :=
    eq_of_mem_reports hblocks hd (mem_ofLanguage hd' hmem) hf hf'
  rw [← h.reports_bare, hsheds s hblocks language hmem hlanguage] at hf
  exact of_decide_eq_true (List.mem_filter.mp hf).2 hblock

end Detector

/-- **WITHOUT BLOCKS**: the findings about a file without its blocks are
    those that do not come from them. -/
theorem value_detectAll_bare (hblocks : s.BlocksWithin) {language : Language}
    (hlanguage : s.language = some language) {clean faults : Faults}
    (hclean : clean.detectors = []) (hfaults : faults.detectors = []) :
    (detectAll faults s.bare).value
      = (detectAll clean s).value.filter (· ∉ s.blockFindings) := by
  rw [value_detectAll_of_nil hclean, value_detectAll_of_nil hfaults,
    List.filter_flatMap]
  refine List.flatMap_congr ?_
  intro d hd
  have hd' : d ∈ ofLanguage (some language) := hlanguage ▸ hd
  obtain ⟨e, he, rfl⟩ := Entry.exists_entry hd'
  obtain ⟨hmem, hcontains⟩ := List.mem_filter.mp he
  rcases List.forall_iff_forall_mem.mp Entry.blind_or_sheds e hmem with
    hblind | hsheds
  · rw [hblind.reports_bare]
    refine (List.filter_eq_self.mpr ?_).symm
    intro f hf
    exact decide_eq_true
      (hblind.not_mem_blockFindings hblocks hlanguage hd' hf)
  · exact hsheds s hblocks language (List.contains_iff_mem.mp hcontains)
      hlanguage

end CodeReview
