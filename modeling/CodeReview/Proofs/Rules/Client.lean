import CodeReview.Detector.Component
import CodeReview.Detector.Script
import CodeReview.Proofs.Rule

/-! # Rules for markup, components and scripts

    The rules of the detectors for client code, each with the lemma that
    the detector follows them.  The only step that may fail follows the
    braces of a component's properties: their opening matches nothing in an
    empty file, so the line it stands on exists. -/

namespace CodeReview.Detector

open Pattern Rule

/-- A finding under a condition follows the rules if the finding does. -/
theorem reported_findingIf {s : Subject} {rules : List Rule}
    {condition : Bool} {f : Finding} (h : Reported s rules f) :
    ∀ g ∈ findingIf condition f, Reported s rules g :=
  reported_ite (reported_singleton h) reported_nil

/-! ## Accessibility -/

/-- Elements that react to a click without saying what they are. -/
def unannouncedElementRule : Rule where
  category := .accessibility
  severity := .warning
  opening := "Interactive <"
  suggestion := fun _ =>
    "Add a role and aria-label (or use a native <button>) so screen readers can announce it"

/-- Elements that only a mouse can use. -/
def mouseOnlyElementRule : Rule where
  category := .accessibility
  severity := .warning
  opening := "Mouse-only handler on <"
  suggestion := fun _ =>
    "Add keydown/keypress handlers to ensure keyboard accessibility"

/-- Images without a text to stand for them. -/
def imageTextRule : Rule where
  category := .accessibility
  severity := .warning
  opening := "Image is missing"
  suggestion := fun _ =>
    "Add a meaningful alt attribute (alt=\"\" for decorative images)"

/-- Inputs without a label; the name of the element opens the message,
    behind its bracket. -/
def unlabelledElementRule : Rule where
  category := .accessibility
  severity := .warning
  opening := "<"
  suggestion := fun _ => "Add a <label for=...> or an aria-label attribute"

/-- The rules for the tags of a markup file. -/
def markupRules : List Rule :=
  [unannouncedElementRule, mouseOnlyElementRule, imageTextRule,
   unlabelledElementRule]

/-- A tag stands on a line of the file. -/
theorem hasLine_of_mem_tags {s : Subject} {tag : Tag} (h : tag ∈ tags s) :
    s.HasLine tag.line := by
  obtain ⟨⟨line, m⟩, hmem, rfl⟩ := List.mem_map.mp h
  exact Subject.hasLine_of_mem_allMatches hmem

/-- Each of the four findings on one tag follows its rule, at the line of
    the tag. -/
theorem reported_tagFindings {s : Subject} {tag : Tag} (h : tag ∈ tags s) :
    ∀ f ∈ tagFindings s tag, Reported s markupRules f := by
  have hline := hasLine_of_mem_tags h
  refine reported_append (reported_append (reported_append
    (reported_findingIf ?_) (reported_findingIf ?_))
    (reported_findingIf ?_)) (reported_findingIf ?_)
  · exact reported_line (r := unannouncedElementRule) (by simp [markupRules])
      (words_around _ (by decide)) hline
  · exact reported_line (r := mouseOnlyElementRule) (by simp [markupRules])
      (words_around _ (by decide)) hline
  · exact reported_line (r := imageTextRule) (by simp [markupRules])
      (by decide) hline
  · exact reported_line (r := unlabelledElementRule) (by simp [markupRules])
      (words_around _ (by decide)) hline

/-- The detector of inaccessible markup follows the rules for tags. -/
theorem markupAccessibility_follows :
    markupAccessibility.Follows markupRules := by
  refine follows_of_ok (fun s => rfl) ?_
  intro s _ f hf
  obtain ⟨tag, htag, hf⟩ := List.mem_flatMap.mp hf
  exact reported_tagFindings htag f hf

/-- Scripts that listen to the mouse and not to the keyboard. -/
def mouseListenerRule : Rule where
  category := .accessibility
  severity := .warning
  opening := "Mouse event listener"
  suggestion := fun _ =>
    "Register keydown/keypress listeners alongside mouse listeners"

/-- Scripts that move the focus where nothing can receive it in order. -/
def focusRule : Rule where
  category := .accessibility
  severity := .warning
  opening := "Custom focus management"
  suggestion := fun _ =>
    "Ensure elements that receive focus have appropriate tabindex values"

/-- The detector of inaccessible scripts reports at first matches only,
    under its two rules. -/
theorem scriptAccessibility_follows :
    scriptAccessibility.Follows [mouseListenerRule, focusRule] := by
  refine follows_of_ok (fun s => rfl) ?_
  intro s _
  refine reported_append (reported_ite reported_nil ?_)
    (reported_ite reported_nil ?_)
  · exact reported_firstLine (r := mouseListenerRule) (by simp) (by decide)
      mouseListener
  · exact reported_firstLine (r := focusRule) (by simp) (by decide) focusCall

/-! ## Components -/

/-- Repeated elements without a key. -/
def unkeyedListsRule : Rule where
  category := .bestPractice
  severity := .critical
  opening := "v-for directive used without"
  suggestion := fun _ =>
    "Always bind a stable unique :key with v-for to keep component state and rendering correct"

/-- A repeated element is reported at the line of its tag. -/
theorem unkeyedLists_follows : unkeyedLists.Follows [unkeyedListsRule] := by
  refine follows_of_ok (fun s => rfl) ?_
  intro s _ f hf
  obtain ⟨tag, _, hsome⟩ := List.mem_filterMap.mp hf
  split at hsome
  · exact nomatch hsome
  · exact reported_unless (r := unkeyedListsRule) List.mem_cons_self
      (by decide) (Subject.hasLine_lineOf s _) hsome

/-- No properties are declared in an empty file. -/
theorem content_ne_nil_of_firstLine {s : Subject} {line : Nat}
    (h : s.firstLine (propsOpening '{') = some line) : s.content ≠ [] := by
  obtain ⟨m, hm, _⟩ := Option.map_eq_some_iff.mp h
  intro hnil
  rw [hnil] at hm
  exact nomatch (show none = some m from hm)

/-- Looking for untyped properties succeeds, and what it finds is a line of
    the file. -/
theorem exists_untypedPropsLine (s : Subject) :
    ∃ found, untypedPropsLine s = .ok found
      ∧ ∀ line ∈ found, s.HasLine line := by
  rw [untypedPropsLine]
  split
  · rename_i line hline
    refine ⟨some line, rfl, ?_⟩
    intro n hn
    rw [← Option.some.inj hn]
    exact Subject.hasLine_of_firstLine hline
  · split
    · exact ⟨none, rfl, fun _ hn => nomatch hn⟩
    · rename_i line hline
      -- a match needs a character, so the file has the line of the match
      have hstart : line - 1 < (s.lines.map BlockMarks.script.profile).length := by
        rw [List.length_map]
        exact (Subject.hasLine_of_firstLine hline).index_lt
          (content_ne_nil_of_firstLine hline)
      obtain ⟨last, hlast⟩ := exists_blockEnd hstart
      show ∃ found, (blockEnd _ (line - 1) >>= _) = .ok found ∧ _
      rw [hlast]
      refine ⟨_, rfl, ?_⟩
      intro n hn
      obtain ⟨_, heq⟩ := Option.ite_none_left_eq_some.mp hn
      rw [← Option.some.inj heq]
      exact Subject.hasLine_of_firstLine hline

/-- Properties declared without their types. -/
def untypedPropsRule : Rule where
  category := .bestPractice
  severity := .warning
  opening := "Props are declared"
  suggestion := fun _ =>
    "Define prop types and required status for better component documentation and error prevention"

/-- The detector of untyped properties follows its rule, whichever way it
    finds the line. -/
theorem untypedProps_follows : untypedProps.Follows [untypedPropsRule] := by
  refine follows_of_step _ (fun s => rfl) exists_untypedPropsLine ?_
  intro s found hlines f hf
  obtain ⟨line, hline, rfl⟩ := List.mem_map.mp hf
  exact reported_line (r := untypedPropsRule) List.mem_cons_self (by decide)
    (hlines line (Option.mem_toList.mp hline))

/-- Styles that reach other components. -/
def unscopedStylesRule : Rule where
  category := .style
  severity := .suggestion
  opening := "Component uses global styles"
  suggestion := fun _ =>
    "Use <style scoped> to prevent CSS leaking to other components"

/-- A style that is not scoped is reported at the line of its element. -/
theorem unscopedStyles_follows :
    unscopedStyles.Follows [unscopedStylesRule] := by
  refine follows_of_ok (fun s => rfl) ?_
  intro s _ f hf
  obtain ⟨⟨line, m⟩, hmem, hsome⟩ := List.mem_filterMap.mp hf
  exact reported_unless (r := unscopedStylesRule) List.mem_cons_self
    (by decide) (Subject.hasLine_of_mem_allMatches hmem) hsome

/-- Components without a template or without a script. -/
def missingSectionRule : Rule where
  category := .structural
  severity := .warning
  opening := "Component is missing"
  suggestion := fun _ =>
    "Ensure the component has both <template> and <script> sections"

/-- Components with a template that is too long. -/
def largeTemplateRule : Rule where
  category := .structural
  severity := .warning
  opening := "Component template is very large"
  suggestion := fun _ =>
    "Break large components into smaller, focused components"

/-- Components that keep data and compute nothing from it. -/
def missingComputedRule : Rule where
  category := .bestPractice
  severity := .suggestion
  opening := "Component uses data()"
  suggestion := fun _ =>
    "Use computed properties for data that depends on other data"

/-- The rules for the parts of a component. -/
def componentRules : List Rule :=
  [missingSectionRule, largeTemplateRule, missingComputedRule]

/-- A large template is reported where it opens, so that line is one of the
    file. -/
theorem reported_largeTemplate (s : Subject) :
    ∀ f ∈ largeTemplate s, Reported s componentRules f := by
  rw [largeTemplate]
  split
  · rename_i first last hfirst _
    refine reported_findingIf ?_
    exact reported_line (r := largeTemplateRule) (by simp [componentRules])
      (words_around _ (by decide))
      (Subject.hasLine_of_mem_lineNumbers (List.mem_of_head? hfirst))
  · exact reported_nil

/-- The detector of a component's parts follows their rules: a missing
    section is reported at no line, the others at lines of the file. -/
theorem componentStructure_follows :
    componentStructure.Follows componentRules := by
  refine follows_of_ok (fun s => rfl) ?_
  intro s _
  refine reported_append (reported_append (reported_findingIf ?_)
    (reported_largeTemplate s)) (reported_findingIf ?_)
  · exact reported_whole (r := missingSectionRule) (by simp [componentRules])
      (by decide)
  · exact reported_findingAt (r := missingComputedRule)
      (by simp [componentRules]) (by decide)
      fun _ hn => Subject.hasLine_of_firstLine hn

/-- Events with names that are not in kebab case; the name stands behind the
    quote. -/
def unconventionalEventsRule : Rule where
  category := .naming
  severity := .suggestion
  opening := "Custom event '"
  suggestion := fun _ =>
    "Use kebab-case event names, or the update:<prop> form for v-model support"

/-- Event handling that a modifier would do. -/
def manualEventsRule : Rule where
  category := .bestPractice
  severity := .suggestion
  opening := "Manual event handling"
  suggestion := fun _ =>
    "Use event modifiers like .prevent, .stop, .once for cleaner code"

/-- The detector of event handling follows its two rules. -/
theorem eventConventions_follows :
    eventConventions.Follows [unconventionalEventsRule, manualEventsRule] := by
  refine follows_of_ok (fun s => rfl) ?_
  intro s _
  refine reported_append ?_ (reported_ite reported_nil ?_)
  · intro f hf
    obtain ⟨⟨line, m⟩, hmem, hsome⟩ := List.mem_filterMap.mp hf
    exact reported_unless (r := unconventionalEventsRule) (by simp)
      (words_around _ (by decide))
      (Subject.hasLine_of_mem_allMatches hmem) hsome
  · exact reported_firstLine (r := manualEventsRule) (by simp) (by decide)
      manualEventHandling

/-! ## Scripts -/

/-- Declarations with the scope of a whole function. -/
def varDeclarationsRule : Rule where
  category := .style
  severity := .suggestion
  opening := "Using var"
  suggestion := fun _ => "Prefer let and const over var for block scoping"

/-- Every line with such a declaration is reported. -/
theorem varDeclarations_follows :
    varDeclarations.Follows [varDeclarationsRule] := by
  refine follows_of_ok (fun s => rfl) ?_
  intro s _
  exact reported_linesWith (r := varDeclarationsRule) List.mem_cons_self
    (by decide) varDeclaration

/-- Chains of promises in files that await nothing. -/
def promiseChainsRule : Rule where
  category := .bestPractice
  severity := .suggestion
  opening := "Using promise chains"
  suggestion := fun _ =>
    "Consider using async/await for more readable asynchronous code"

/-- A chain of promises is reported once, where the first step stands. -/
theorem promiseChains_follows :
    promiseChains.Follows [promiseChainsRule] := by
  refine follows_of_ok (fun s => rfl) ?_
  intro s _
  refine reported_ite reported_nil ?_
  exact reported_firstLine (r := promiseChainsRule) List.mem_cons_self
    (by decide) promiseStep

/-- Output to the console; the method stands behind the dot. -/
def consoleRule : Rule where
  category := .bestPractice
  severity := .warning
  opening := "Found console."
  suggestion := fun _ =>
    "Remove debug statements before committing or use a logger library"

/-- Statements that stop in the debugger. -/
def debuggerRule : Rule where
  category := .bestPractice
  severity := .warning
  opening := "Found debugger statement"
  suggestion := fun _ => "Remove debugger statements before committing"

/-- Each statement for debugging is reported where its match starts. -/
theorem debugStatements_follows :
    debugStatements.Follows [consoleRule, debuggerRule] := by
  refine follows_of_ok (fun s => rfl) ?_
  intro s _
  refine reported_ite reported_nil (reported_append ?_ ?_)
  · intro f hf
    obtain ⟨⟨line, m⟩, hmem, rfl⟩ := List.mem_map.mp hf
    exact reported_line (r := consoleRule) (by simp)
      (words_around _ (by decide)) (Subject.hasLine_of_mem_allMatches hmem)
  · intro f hf
    obtain ⟨⟨line, m⟩, hmem, rfl⟩ := List.mem_map.mp hf
    exact reported_line (r := debuggerRule) (by simp) (by decide)
      (Subject.hasLine_of_mem_allMatches hmem)

/-- Function expressions where an arrow would do. -/
def legacyFunctionsRule : Rule where
  category := .style
  severity := .suggestion
  opening := "Using function expressions"
  suggestion := fun _ =>
    "Consider arrow functions for more concise syntax and lexical this binding"

/-- A function expression is reported once, at the first. -/
theorem legacyFunctions_follows :
    legacyFunctions.Follows [legacyFunctionsRule] := by
  refine follows_of_ok (fun s => rfl) ?_
  intro s _
  refine reported_ite reported_nil ?_
  exact reported_firstLine (r := legacyFunctionsRule) List.mem_cons_self
    (by decide) functionExpression

/-- Direct access to the document or the window. -/
def domAccessesRule : Rule where
  category := .bestPractice
  severity := .warning
  opening := "Direct DOM manipulation"
  suggestion := fun _ =>
    "Use framework-specific methods (refs, bindings) instead of document/window access"

/-- An access to the document is reported once, at the first. -/
theorem domAccesses_follows : domAccesses.Follows [domAccessesRule] := by
  refine follows_of_ok (fun s => rfl) ?_
  intro s _
  exact reported_firstLine (r := domAccessesRule) List.mem_cons_self
    (by decide) domAccess

/-- Components with too many state variables; their number stands between
    the two fixed parts. -/
def stateOveruseRule : Rule where
  category := .maintainability
  severity := .suggestion
  opening := "Component has "
  ending := " state variables"
  suggestion := fun _ =>
    "Consider breaking this component into smaller ones or using useReducer"

/-- Components with too many effects; their number stands between the two
    fixed parts. -/
def effectOveruseRule : Rule where
  category := .maintainability
  severity := .suggestion
  opening := "Component has "
  ending := " useEffect hooks"
  suggestion := fun _ =>
    "Multiple effects may indicate the component has too many responsibilities"

/-- Both findings on hooks are about the component as a whole, and differ in
    how their messages end. -/
theorem hookOveruse_follows :
    hookOveruse.Follows [stateOveruseRule, effectOveruseRule] := by
  refine follows_of_ok (fun s => rfl) ?_
  intro s _
  refine reported_append
    (reported_ite reported_nil (reported_singleton ?_))
    (reported_ite reported_nil (reported_singleton ?_))
  · exact reported_whole (r := stateOveruseRule) (by simp)
      (words_around _ (by decide))
  · exact reported_whole (r := effectOveruseRule) (by simp)
      (words_around _ (by decide))

end CodeReview.Detector
