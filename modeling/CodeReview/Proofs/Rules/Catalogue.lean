import Mathlib.Data.List.Pairwise
import CodeReview.Detector.Registry
import CodeReview.Proofs.Rules.Client
import CodeReview.Proofs.Rules.Schema
import CodeReview.Proofs.Rules.Server

/-! # The catalogue of rules

    Every registered detector with the rules it follows.  Two facts about
    the catalogue carry what is said about all detectors at once: no
    message can be worded like those of two rules for one language
    (`pairwise_apart_rulesOf`), and no message of a rule is blank. -/

namespace CodeReview

namespace Rule

/-- Whether two rules have no message in common: they open differently or
    end differently. -/
def Apart (r r' : Rule) : Prop :=
  ¬ (r.opening.toList <+: r'.opening.toList
      ∨ r'.opening.toList <+: r.opening.toList)
    ∨ ¬ (r.ending.toList <:+ r'.ending.toList
      ∨ r'.ending.toList <:+ r.ending.toList)

instance (r r' : Rule) : Decidable (r.Apart r') :=
  inferInstanceAs (Decidable (_ ∨ _))

instance : Std.Symm Apart where
  symm r r' h := by
    rcases h with hopening | hending
    · exact Or.inl fun h => hopening h.symm
    · exact Or.inr fun h => hending h.symm

/-- Two starts, and two ends, of one message are comparable. -/
theorem not_apart_of_words {r r' : Rule} {message : String}
    (h : r.Words message) (h' : r'.Words message) : ¬ r.Apart r' := by
  rintro (hopening | hending)
  · exact hopening (List.prefix_or_prefix_of_prefix h.opens h'.opens)
  · exact hending (List.suffix_or_suffix_of_suffix h.ends h'.ends)

/-- Whether the start or the end of a rule's messages is more than
    blanks. -/
def IsSaid (r : Rule) : Prop :=
  Text.isAllBlank r.opening.toList = false
    ∨ Text.isAllBlank r.ending.toList = false

instance (r : Rule) : Decidable r.IsSaid :=
  inferInstanceAs (Decidable (_ ∨ _))

/-- A message with a part that is not blank is not blank. -/
theorem not_isAllBlank_of_subset {part message : Text}
    (h : ∀ c ∈ part, c ∈ message) (hpart : Text.isAllBlank part = false) :
    Text.isAllBlank message = false := by
  obtain ⟨c, hc, hblank⟩ := List.all_eq_false.mp hpart
  exact List.all_eq_false.mpr ⟨c, h c hc, hblank⟩

/-- The messages of a rule that is said are not blank. -/
theorem not_isAllBlank_of_words {r : Rule} {message : String}
    (hsaid : r.IsSaid) (h : r.Words message) :
    Text.isAllBlank message.toList = false := by
  have hwording : ∀ c ∈ wording message, c ∈ message.toList :=
    fun c hc => (List.mem_filter.mp hc).1
  rcases hsaid with hopening | hending
  · exact not_isAllBlank_of_subset
      (fun c hc => hwording c (h.opens.subset hc)) hopening
  · exact not_isAllBlank_of_subset
      (fun c hc => hwording c (h.ends.subset hc)) hending

end Rule

/-- A detector with the languages it looks at and the rules it follows. -/
structure Entry where
  detector : Detector
  languages : List Language
  rules : List Rule
  follows : detector.Follows rules

namespace Entry

open Detector

/-- Every registered detector, in the order they run. -/
def catalogue : List Entry :=
  let code : List Language := [.ruby, .javascript, .vue]
  let script : List Language := [.javascript, .vue]
  let markup : List Language := [.javascript, .vue, .template]
  [⟨_, Language.all, _, fileSize_follows⟩,
   ⟨_, Language.all, _, longLines_follows⟩,
   ⟨_, code, _, longBlocks_follows⟩,
   ⟨_, code, _, complexBlocks_follows⟩,
   ⟨_, code, _, complexConditionals_follows⟩,
   ⟨_, [.ruby], _, rubyNaming_follows⟩,
   ⟨_, script, _, scriptClassNaming_follows⟩,
   ⟨_, [.ruby], _, csrfDisabled_follows⟩,
   ⟨_, [.ruby], _, sqlInterpolation_follows⟩,
   ⟨_, [.ruby], _, unpermittedParams_follows⟩,
   ⟨_, [.ruby], _, nPlusOne_follows⟩,
   ⟨_, [.ruby], _, missingIndexes_follows⟩,
   ⟨_, [.ruby], _, unbatchedWrites_follows⟩,
   ⟨_, [.ruby], _, modelWithoutValidations_follows⟩,
   ⟨_, [.ruby], _, controllerConventions_follows⟩,
   ⟨_, [.ruby], _, migrationAppCode_follows⟩,
   ⟨_, [.ruby], _, hardcodedStrings_follows⟩,
   ⟨_, [.ruby], _, sparseDocumentation_follows⟩,
   ⟨_, markup, _, markupAccessibility_follows⟩,
   ⟨_, script, _, scriptAccessibility_follows⟩,
   ⟨_, [.vue], _, unkeyedLists_follows⟩,
   ⟨_, [.vue], _, untypedProps_follows⟩,
   ⟨_, [.vue], _, unscopedStyles_follows⟩,
   ⟨_, [.vue], _, componentStructure_follows⟩,
   ⟨_, [.vue], _, eventConventions_follows⟩,
   ⟨_, [.graphql], _, undocumentedFields_follows⟩,
   ⟨_, [.graphql], _, nullableIds_follows⟩,
   ⟨_, [.graphql], _, unpaginatedLists_follows⟩,
   ⟨_, [.graphql], _, inputValidation_follows⟩,
   ⟨_, script, _, varDeclarations_follows⟩,
   ⟨_, script, _, promiseChains_follows⟩,
   ⟨_, script, _, debugStatements_follows⟩,
   ⟨_, script, _, legacyFunctions_follows⟩,
   ⟨_, script, _, domAccesses_follows⟩,
   ⟨_, script, _, hookOveruse_follows⟩]

/-- The catalogue is that of the registered detectors. -/
theorem registered_eq :
    registered = catalogue.map fun e => (e.detector, e.languages) := rfl

/-- The rules for a language. -/
def rulesOf (language : Language) : List Rule :=
  (catalogue.filter fun e => e.languages.contains language).flatMap (·.rules)

/-- No two rules of a language word a message in the same way. -/
theorem pairwise_apart_rulesOf (language : Language) :
    (rulesOf language).Pairwise Rule.Apart := by
  cases language <;> decide +kernel

/-- Every rule of the catalogue says something. -/
theorem isSaid_of_mem {e : Entry} (he : e ∈ catalogue) :
    ∀ r ∈ e.rules, r.IsSaid := by
  have hall : ∀ e ∈ catalogue, ∀ r ∈ e.rules, r.IsSaid := by decide +kernel
  exact hall e he

/-- Every rule of a language says something, so no message is blank. -/
theorem isSaid_of_mem_rulesOf {language : Language} {r : Rule}
    (hr : r ∈ rulesOf language) : r.IsSaid := by
  obtain ⟨e, he, hr⟩ := List.mem_flatMap.mp hr
  exact isSaid_of_mem (List.mem_filter.mp he).1 r hr

/-- A message belongs to at most one rule for a language. -/
theorem eq_of_words {language : Language} {r r' : Rule} {message : String}
    (hr : r ∈ rulesOf language) (hr' : r' ∈ rulesOf language)
    (h : r.Words message) (h' : r'.Words message) : r = r' := by
  by_contra hne
  exact Rule.not_apart_of_words h h'
    ((pairwise_apart_rulesOf language).forall hr hr' hne)

/-- The detectors of a language are those of entries for it. -/
theorem exists_entry {language : Language} {d : Detector}
    (h : d ∈ ofLanguage (some language)) :
    ∃ e ∈ catalogue.filter (·.languages.contains language),
      e.detector = d := by
  have h' : d ∈ (registered.filter fun entry =>
      entry.2.contains language).map (·.1) := h
  rw [registered_eq, List.filter_map, List.map_map] at h'
  exact List.mem_map.mp h'

/-- A message belongs to the rules of at most one entry for a language. -/
theorem eq_of_entry_words {language : Language} {e e' : Entry}
    {message : String}
    (he : e ∈ catalogue.filter (·.languages.contains language))
    (he' : e' ∈ catalogue.filter (·.languages.contains language))
    (h : ∃ r ∈ e.rules, r.Words message)
    (h' : ∃ r ∈ e'.rules, r.Words message) : e = e' := by
  by_contra hne
  obtain ⟨r, hr, hwords⟩ := h
  obtain ⟨r', hr', hwords'⟩ := h'
  have hpairs := (List.pairwise_flatMap.mp (pairwise_apart_rulesOf language)).2
  have : Std.Symm fun e e' : Entry =>
      ∀ r ∈ e.rules, ∀ r' ∈ e'.rules, r.Apart r' :=
    ⟨fun _ _ hapart r hr r' hr' => Std.Symm.symm _ _ (hapart r' hr' r hr)⟩
  exact Rule.not_apart_of_words hwords hwords'
    (hpairs.forall he he' hne r hr r' hr')

/-- Every detector of a language follows rules for it. -/
theorem follows_rulesOf {language : Language} {d : Detector}
    (h : d ∈ ofLanguage (some language)) : d.Follows (rulesOf language) := by
  obtain ⟨e, he, rfl⟩ := exists_entry h
  intro s hblocks
  obtain ⟨findings, hfindings, hreported⟩ := e.follows s hblocks
  refine ⟨findings, hfindings, ?_⟩
  intro f hf
  exact (hreported f hf).mono fun r hr => List.mem_flatMap.mpr ⟨e, he, hr⟩

end Entry

end CodeReview
