import CodeReview.Detector.Conventions
import CodeReview.Detector.Naming
import CodeReview.Detector.Performance
import CodeReview.Detector.Security
import CodeReview.Detector.Structure
import CodeReview.Proofs.FirstMatches
import CodeReview.Proofs.Rule

/-! # Rules for code

    The rules of the detectors for sizes, names, security, performance and
    the conventions of server code, each with the lemma that the detector
    follows them. -/

namespace CodeReview.Detector

open Pattern Rule

/-! ## Size and complexity -/

/-- Files with more lines than the configured bound; the count and the bound
    stand within the message. -/
def fileSizeRule : Rule where
  category := .structural
  severity := .warning
  opening := "File has "
  ending := ")"
  suggestion := fun _ =>
    "Consider splitting this file into smaller, more focused modules"

/-- A large file is reported as a whole, at no line. -/
theorem fileSize_follows : fileSize.Follows [fileSizeRule] := by
  refine follows_of_ok (fun s => rfl) ?_
  intro s _
  refine reported_ite reported_nil (reported_singleton ?_)
  exact reported_whole (r := fileSizeRule) List.mem_cons_self
    (words_around _ ⟨opens_append _ (opens_append _ (by decide)), by decide⟩)

/-- Lines longer than the configured bound; the bound and the length stand
    within the message. -/
def longLinesRule : Rule where
  category := .style
  severity := .suggestion
  opening := "Line exceeds "
  ending := ")"
  suggestion := fun _ =>
    "Break this line into multiple lines for better readability"

/-- Every line that is too long is reported at its own number. -/
theorem longLines_follows : longLines.Follows [longLinesRule] := by
  refine follows_of_ok (fun s => rfl) ?_
  intro s _ f hf
  obtain ⟨⟨line, index⟩, hmem, hsome⟩ := List.mem_filterMap.mp hf
  obtain ⟨_, heq⟩ := Option.ite_none_right_eq_some.mp hsome
  rw [← Option.some.inj heq]
  exact reported_line (r := longLinesRule) List.mem_cons_self
    (words_around _ ⟨opens_append _ (opens_append _ (by decide)), by decide⟩)
    (Subject.hasLine_of_mem_zipIdx hmem)

/-- Methods longer than the configured bound; the advice depends on the
    folder of the file. -/
def longBlocksRule : Rule where
  category := .structural
  severity := .warning
  opening := "Method '"
  ending := " lines (max recommended: )"
  suggestion := longBlockAdvice

/-- A long method is reported at the line of its head. -/
theorem longBlocks_follows : longBlocks.Follows [longBlocksRule] := by
  refine follows_of_ok (fun s => rfl) ?_
  intro s hblocks f hf
  obtain ⟨block, hblock, rfl⟩ := List.mem_map.mp hf
  refine reported_line (r := longBlocksRule) List.mem_cons_self ⟨?_, ?_⟩
    (Subject.hasLine_of_mem_blocks hblocks (List.mem_filter.mp hblock).1)
  · simp only [String.append_assoc]
    exact opens_append _ (by decide)
  · exact ends_append_number _ _ (by decide)

/-- Methods with more branches than the configured bound. -/
def complexBlocksRule : Rule where
  category := .maintainability
  severity := .warning
  opening := "Method '"
  ending := ", threshold )"
  suggestion := fun _ =>
    "Refactor complex methods into smaller, focused methods"

/-- A complex method is reported at the line of its head. -/
theorem complexBlocks_follows : complexBlocks.Follows [complexBlocksRule] := by
  refine follows_of_ok (fun s => rfl) ?_
  intro s hblocks f hf
  obtain ⟨block, hblock, hsome⟩ := List.mem_filterMap.mp hf
  obtain ⟨_, heq⟩ := Option.ite_none_right_eq_some.mp hsome
  rw [← Option.some.inj heq]
  refine reported_line (r := complexBlocksRule) List.mem_cons_self ⟨?_, ?_⟩
    (Subject.hasLine_of_mem_blocks hblocks hblock)
  · simp only [String.append_assoc]
    exact opens_append _ (by decide)
  · exact ends_append_number _ _ (by decide)

/-- Lines that combine many conditions. -/
def complexConditionalsRule : Rule where
  category := .cleanCode
  severity := .suggestion
  opening := "Complex conditional logic"
  suggestion := fun _ =>
    "Consider extracting conditions into well-named methods"

/-- Every line with a complex conditional is reported. -/
theorem complexConditionals_follows :
    complexConditionals.Follows [complexConditionalsRule] := by
  refine follows_of_ok (fun s => rfl) ?_
  intro s _ f hf
  obtain ⟨line, hline, rfl⟩ := List.mem_map.mp hf
  exact reported_line (r := complexConditionalsRule) List.mem_cons_self
    (by decide) (Subject.hasLine_of_mem_lineNumbers hline)

/-! ## Names -/

/-- Classes and modules with names that are not in camel case; the message
    says which of the two it is. -/
def rubyClassNamingRule (kind : String) : Rule where
  category := .naming
  severity := .warning
  opening := kind ++ " name '"
  suggestion := fun _ => "Use CamelCase for class and module names"

/-- Methods with names that are not in snake case. -/
def rubyMethodNamingRule : Rule where
  category := .naming
  severity := .warning
  opening := "Method name '"
  suggestion := fun _ => "Use snake_case for method and variable names"

/-- Constants with names that are not in capitals. -/
def rubyConstantNamingRule : Rule where
  category := .naming
  severity := .warning
  opening := "Constant name '"
  suggestion := fun _ => "Use SCREAMING_SNAKE_CASE for constants"

/-- Variables with names that are not in snake case; the advice is that for
    methods. -/
def rubyVariableNamingRule : Rule where
  category := .naming
  severity := .warning
  opening := "Variable name '"
  suggestion := fun _ => "Use snake_case for method and variable names"

/-- The rules for Ruby names. -/
def rubyNamingRules : List Rule :=
  [rubyClassNamingRule "Class", rubyClassNamingRule "Module",
   rubyMethodNamingRule, rubyConstantNamingRule, rubyVariableNamingRule]

/-- The head of a class or module remembers one of the two keywords. -/
theorem name_rubyClass {text : Text} {m : Match}
    (h : m ∈ rubyClass.findAll text) :
    m.name 1 = "class" ∨ m.name 1 = "module" := by
  obtain ⟨front, _, t, ht, rfl⟩ := exists_place_of_mem_findAll h
  -- from the back: the name, the spaces before it, and the keyword
  obtain ⟨u, hu, hname⟩ := mem_results_seq.mp ht
  obtain ⟨v, hv, hspaces⟩ := mem_results_seq.mp hu
  obtain ⟨w, _, hkeyword⟩ := mem_results_seq.mp hv
  obtain ⟨word, hword, hlookup⟩ := lookup_captures_group_texts hkeyword
  have hcapture : t.captures.lookup 1 = some ⟨w.offset, word.toList⟩ := by
    rw [lookup_captures_results (by decide) u t hname,
      lookup_captures_results (by decide) v u hspaces, hlookup]
  have hword' : (Match.between ((Cursor.atStart text).pass front) t).name 1
      = word := by
    show String.ofList (((t.captures.lookup 1).map Capture.text).getD []) = _
    rw [hcapture]
    exact String.ofList_toList
  rw [hword']
  rcases List.mem_cons.mp hword with hclass | hmodule
  · exact Or.inl hclass
  · exact Or.inr (List.mem_singleton.mp hmodule)

/-- The keyword that the head remembers decides which of the two rules a
    finding on a name follows. -/
theorem reported_rubyClassNaming (s : Subject) :
    ∀ f ∈ rubyClassNaming s,
      Reported s [rubyClassNamingRule "Class", rubyClassNamingRule "Module"] f := by
  intro f hf
  obtain ⟨⟨line, m⟩, hmem, hsome⟩ := List.mem_filterMap.mp hf
  obtain ⟨_, heq⟩ := Option.ite_none_left_eq_some.mp hsome
  rw [← Option.some.inj heq]
  have hline := Subject.hasLine_of_mem_allMatches hmem
  rcases name_rubyClass (Subject.mem_allMatches hmem).1 with hclass | hmodule
  · rw [hclass]
    exact reported_line (r := rubyClassNamingRule "Class") (by simp)
      (words_around _ (by decide)) hline
  · rw [hmodule]
    exact reported_line (r := rubyClassNamingRule "Module") (by simp)
      (words_around _ (by decide)) hline

/-- A method's name is reported at the line of its block. -/
theorem reported_rubyMethodNaming {s : Subject} (hblocks : s.BlocksWithin) :
    ∀ f ∈ rubyMethodNaming s, Reported s [rubyMethodNamingRule] f := by
  intro f hf
  obtain ⟨block, hblock, rfl⟩ := List.mem_map.mp hf
  exact reported_line (r := rubyMethodNamingRule) List.mem_cons_self
    (words_around _ (by decide))
    (Subject.hasLine_of_mem_blocks hblocks (List.mem_filter.mp hblock).1)

/-- A constant's name is reported at the line of its assignment. -/
theorem reported_rubyConstantNaming (s : Subject) :
    ∀ f ∈ rubyConstantNaming s, Reported s [rubyConstantNamingRule] f := by
  intro f hf
  obtain ⟨⟨line, m⟩, hmem, hsome⟩ := List.mem_filterMap.mp hf
  exact reported_unless (r := rubyConstantNamingRule) List.mem_cons_self
    (words_around _ (by decide))
    (Subject.hasLine_of_mem_allMatches hmem) hsome

/-- A variable's name is reported at the line of its assignment. -/
theorem reported_rubyVariableNaming (s : Subject) :
    ∀ f ∈ rubyVariableNaming s, Reported s [rubyVariableNamingRule] f := by
  intro f hf
  obtain ⟨⟨line, m⟩, hmem, hsome⟩ := List.mem_filterMap.mp hf
  exact reported_unless (r := rubyVariableNamingRule) List.mem_cons_self
    (words_around _ (by decide))
    (Subject.hasLine_of_mem_allMatches hmem) hsome

/-- The four parts of the detector of Ruby names follow their rules. -/
theorem rubyNaming_follows : rubyNaming.Follows rubyNamingRules := by
  refine follows_of_ok (fun s => rfl) ?_
  intro s hblocks
  refine reported_append (reported_append (reported_append ?_ ?_) ?_) ?_
  · exact fun f hf => (reported_rubyClassNaming s f hf).mono
      (by simp [rubyNamingRules])
  · exact fun f hf => (reported_rubyMethodNaming hblocks f hf).mono
      (by simp [rubyNamingRules])
  · exact fun f hf => (reported_rubyConstantNaming s f hf).mono
      (by simp [rubyNamingRules])
  · exact fun f hf => (reported_rubyVariableNaming s f hf).mono
      (by simp [rubyNamingRules])

/-- Classes in scripts with names that are not in camel case. -/
def scriptClassNamingRule : Rule where
  category := .naming
  severity := .warning
  opening := "Class name '"
  suggestion := fun _ => "Use CamelCase for class names"

/-- A class name in a script is reported at the line of its head. -/
theorem scriptClassNaming_follows :
    scriptClassNaming.Follows [scriptClassNamingRule] := by
  refine follows_of_ok (fun s => rfl) ?_
  intro s _ f hf
  obtain ⟨⟨line, m⟩, hmem, hsome⟩ := List.mem_filterMap.mp hf
  exact reported_unless (r := scriptClassNamingRule) List.mem_cons_self
    (words_around _ (by decide))
    (Subject.hasLine_of_mem_allMatches hmem) hsome

/-! ## Security -/

/-- Controllers that turn the protection against forged requests off. -/
def csrfDisabledRule : Rule where
  category := .security
  severity := .critical
  opening := "Request-forgery (CSRF) protection"
  suggestion := fun _ =>
    "Remove skip_before_action or use protect_from_forgery with: :exception"

/-- Every line that turns the protection off is reported. -/
theorem csrfDisabled_follows : csrfDisabled.Follows [csrfDisabledRule] := by
  refine follows_of_ok (fun s => rfl) ?_
  intro s _
  exact reported_linesWith (r := csrfDisabledRule) List.mem_cons_self
    (by decide) forgeryProtectionOff

/-- Queries with values written into their text. -/
def sqlInterpolationRule : Rule where
  category := .security
  severity := .critical
  opening := "String interpolation in SQL"
  suggestion := fun _ =>
    "Use parameterized queries or ActiveRecord methods with placeholders"

/-- Every line with such a query is reported. -/
theorem sqlInterpolation_follows :
    sqlInterpolation.Follows [sqlInterpolationRule] := by
  refine follows_of_ok (fun s => rfl) ?_
  intro s _
  exact reported_linesWith (r := sqlInterpolationRule) List.mem_cons_self
    (by decide) queryInterpolation

/-- Parameters that are used without being permitted. -/
def unpermittedParamsRule : Rule where
  category := .security
  severity := .warning
  opening := "Direct parameter access"
  suggestion := fun _ =>
    "Use strong parameters with params.require().permit()"

/-- Raw parameters are reported once, at the first, and only in files that
    permit none. -/
theorem unpermittedParams_follows :
    unpermittedParams.Follows [unpermittedParamsRule] := by
  refine follows_of_ok (fun s => rfl) ?_
  intro s _
  refine reported_ite reported_nil ?_
  exact reported_firstLine (r := unpermittedParamsRule) List.mem_cons_self
    (by decide) rawParameter

/-! ## Performance -/

/-- Iterations can be followed to their ends, and start within the
    file. -/
theorem exists_iterationOn {lines : List Text} {line : Text} {index : Nat}
    (h : (line, index) ∈ lines.zipIdx) :
    ∃ found, iterationOn lines (lines.map BlockMarks.ruby.profile)
        (lines.map BlockMarks.script.profile) line index = .ok found
      ∧ ∀ it ∈ found, it.line = index + 1 := by
  have hindex : index < lines.length :=
    (List.getElem?_eq_some_iff.mp (List.mem_zipIdx_iff_getElem?.mp h)).1
  rw [iterationOn]
  split
  · exact ⟨none, rfl, fun _ hit => nomatch hit⟩
  · rename_i m _
    -- each way to the end starts on the line of the head
    have hend : ∃ last, iterationEnd (lines.map BlockMarks.ruby.profile)
        (lines.map BlockMarks.script.profile) index m = .ok last := by
      rw [iterationEnd]
      split
      · exact exists_blockEnd (by rw [List.length_map]; exact hindex)
      · split
        · exact ⟨index, rfl⟩
        · exact exists_blockEnd (by rw [List.length_map]; exact hindex)
    obtain ⟨last, hlast⟩ := hend
    rw [hlast]
    refine ⟨_, rfl, ?_⟩
    intro it hit
    rw [← Option.some.inj hit]

/-- Following all iterations of a file to their ends succeeds, and each has
    a line of the file. -/
theorem exists_iterations (s : Subject) :
    ∃ found, iterations s = .ok found ∧ ∀ it ∈ found, s.HasLine it.line := by
  have hsteps : ∀ x ∈ s.lines.zipIdx, ∃ found,
      iterationOn s.lines (s.lines.map BlockMarks.ruby.profile)
          (s.lines.map BlockMarks.script.profile) x.1 x.2 = .ok found
        ∧ ∀ it ∈ found, s.HasLine it.line := by
    intro x hx
    obtain ⟨found, hfound, hline⟩ := exists_iterationOn hx
    refine ⟨found, hfound, ?_⟩
    intro it hit
    rw [hline it hit]
    exact Subject.hasLine_of_mem_zipIdx hx
  obtain ⟨found, hfound, hlines⟩ := exists_mapM_ok hsteps
  refine ⟨found.filterMap id, ?_, ?_⟩
  · show (s.lines.zipIdx.mapM fun x => iterationOn s.lines _ _ x.1 x.2) >>= _ = _
    rw [hfound]
    rfl
  · intro it hit
    obtain ⟨_, hmem, hsome⟩ := List.mem_filterMap.mp hit
    exact hlines _ hmem it hsome

/-- Lookups for each element of an iteration. -/
def perItemLookupRule : Rule where
  category := .performance
  severity := .warning
  opening := "Potential N+ query"
  suggestion := fun _ =>
    "Use includes(), eager_load(), or preload() to avoid N+1 queries"

/-- All records loaded without what belongs to them. -/
def eagerLoadingRule : Rule where
  category := .performance
  severity := .warning
  opening := "Using .all without eager loading"
  suggestion := fun _ =>
    "Consider using .includes() to eager load associations"

/-- A lookup is reported where its iteration starts, and missing eager
    loading at the first place. -/
theorem nPlusOne_follows :
    nPlusOne.Follows [perItemLookupRule, eagerLoadingRule] := by
  refine follows_of_step _ (fun s => rfl) exists_iterations ?_
  intro s found hlines
  refine reported_append ?_ (reported_ite ?_ reported_nil)
  · intro f hf
    obtain ⟨it, hit, rfl⟩ := List.mem_map.mp hf
    exact reported_line (r := perItemLookupRule) (by simp)
      (words_around _ (by decide)) (hlines it (List.mem_filter.mp hit).1)
  · exact reported_firstLine (r := eagerLoadingRule) (by simp) (by decide)
      allRecords

/-- Migrations that create a table without an index. -/
def missingIndexesRule : Rule where
  category := .performance
  severity := .warning
  opening := "Table is created"
  suggestion := fun _ =>
    "Add indexes for foreign keys and frequently queried columns"

/-- Every table is reported, unless the file adds an index somewhere. -/
theorem missingIndexes_follows :
    missingIndexes.Follows [missingIndexesRule] := by
  refine follows_of_ok (fun s => rfl) ?_
  intro s _
  refine reported_ite reported_nil ?_
  exact reported_linesWith (r := missingIndexesRule) List.mem_cons_self
    (by decide) tableCreation

/-- Writes for each element of an iteration. -/
def unbatchedWritesRule : Rule where
  category := .performance
  severity := .warning
  opening := "Per-row database writes"
  suggestion := fun _ =>
    "Use .find_each for batched iteration or bulk operations like insert_all/update_all"

/-- A write is reported where its iteration starts. -/
theorem unbatchedWrites_follows :
    unbatchedWrites.Follows [unbatchedWritesRule] := by
  refine follows_of_step _ (fun s => rfl) exists_iterations ?_
  intro s found hlines f hf
  obtain ⟨it, hit, rfl⟩ := List.mem_map.mp hf
  exact reported_line (r := unbatchedWritesRule) List.mem_cons_self
    (words_around _ (by decide)) (hlines it (List.mem_filter.mp hit).1)

/-! ## Conventions -/

/-- Models that validate nothing. -/
def modelWithoutValidationsRule : Rule where
  category := .bestPractice
  severity := .warning
  opening := "Rails model"
  suggestion := fun _ =>
    "Consider adding appropriate validations to ensure data integrity"

/-- A model without validations is reported at the head of its class. -/
theorem modelWithoutValidations_follows :
    modelWithoutValidations.Follows [modelWithoutValidationsRule] := by
  refine follows_of_ok (fun s => rfl) ?_
  intro s _
  refine reported_ite reported_nil ?_
  exact reported_firstLine (r := modelWithoutValidationsRule)
    List.mem_cons_self (by decide) modelClass

/-- Controllers with actions beyond the usual seven; their names end the
    message. -/
def nonRestfulActionsRule : Rule where
  category := .bestPractice
  severity := .suggestion
  opening := "Controller has non-RESTful actions: "
  suggestion := fun _ =>
    "Consider using RESTful actions or moving custom logic to service objects"

/-- Controllers that write to the database outside a transaction. -/
def missingTransactionRule : Rule where
  category := .bestPractice
  severity := .warning
  opening := "Controller performs database operations"
  suggestion := fun _ =>
    "Consider wrapping related database operations in ActiveRecord::Base.transaction blocks"

/-- Controllers that handle no errors. -/
def missingErrorHandlingRule : Rule where
  category := .bestPractice
  severity := .warning
  opening := "Controller lacks visible error handling"
  suggestion := fun _ =>
    "Add proper error handling with rescue blocks or rescue_from callbacks"

/-- The rules for controllers. -/
def controllerRules : List Rule :=
  [nonRestfulActionsRule, missingTransactionRule, missingErrorHandlingRule]

/-- Unusual actions are reported together, at no line. -/
theorem reported_nonRestfulActions (s : Subject) :
    ∀ f ∈ nonRestfulActions s, Reported s [nonRestfulActionsRule] f := by
  rw [nonRestfulActions]
  split
  · exact reported_nil
  · refine reported_singleton ?_
    exact reported_whole (r := nonRestfulActionsRule) List.mem_cons_self
      ⟨opens_append _ (by decide), List.nil_suffix⟩

/-- A missing transaction is reported at the first write. -/
theorem reported_missingTransaction (s : Subject) :
    ∀ f ∈ missingTransaction s, Reported s [missingTransactionRule] f := by
  refine reported_ite reported_nil ?_
  exact reported_firstLine (r := missingTransactionRule) List.mem_cons_self
    (by decide) databaseWrite

/-- Missing error handling is reported for the whole file. -/
theorem reported_missingErrorHandling (s : Subject) :
    ∀ f ∈ missingErrorHandling s, Reported s [missingErrorHandlingRule] f := by
  refine reported_ite reported_nil (reported_singleton ?_)
  exact reported_whole (r := missingErrorHandlingRule) List.mem_cons_self
    (by decide)

/-- The three parts of the detector of controllers follow their rules. -/
theorem controllerConventions_follows :
    controllerConventions.Follows controllerRules := by
  refine follows_of_ok (fun s => rfl) ?_
  intro s _
  refine reported_ite reported_nil (reported_append (reported_append ?_ ?_) ?_)
  · exact fun f hf => (reported_nonRestfulActions s f hf).mono
      (by simp [controllerRules])
  · exact fun f hf => (reported_missingTransaction s f hf).mono
      (by simp [controllerRules])
  · exact fun f hf => (reported_missingErrorHandling s f hf).mono
      (by simp [controllerRules])

/-- Migrations that run code of the application. -/
def migrationAppCodeRule : Rule where
  category := .bestPractice
  severity := .warning
  opening := "Migration may contain application code"
  suggestion := fun _ =>
    "Keep application code out of migrations; use SQL for simple changes"

/-- Code of the application in a migration is reported at the first
    place. -/
theorem migrationAppCode_follows :
    migrationAppCode.Follows [migrationAppCodeRule] := by
  refine follows_of_ok (fun s => rfl) ?_
  intro s _
  refine reported_ite reported_nil ?_
  exact reported_firstLine (r := migrationAppCodeRule) List.mem_cons_self
    (by decide) migrationCode

/-- Texts for users in the code; their number stands within the message. -/
def hardcodedStringsRule : Rule where
  category := .bestPractice
  severity := .suggestion
  opening := "Found "
  ending := " potentially hardcoded user-facing strings"
  suggestion := fun _ => "Consider using I18n.t() for user-facing strings"

/-- Texts in the code are counted and reported once for the file. -/
theorem hardcodedStrings_follows :
    hardcodedStrings.Follows [hardcodedStringsRule] := by
  refine follows_of_ok (fun s => rfl) ?_
  intro s _
  refine reported_ite reported_nil (reported_singleton ?_)
  exact reported_whole (r := hardcodedStringsRule) List.mem_cons_self
    (words_around _ (by decide))

/-- Large files with few comments. -/
def sparseDocumentationRule : Rule where
  category := .maintainability
  severity := .suggestion
  opening := "Large file with minimal comments"
  suggestion := fun _ =>
    "Add comments explaining complex business logic and method purposes"

/-- A file with few comments is reported as a whole. -/
theorem sparseDocumentation_follows :
    sparseDocumentation.Follows [sparseDocumentationRule] := by
  refine follows_of_ok (fun s => rfl) ?_
  intro s _
  refine reported_ite reported_nil (reported_singleton ?_)
  exact reported_whole (r := sparseDocumentationRule) List.mem_cons_self
    (by decide)

end CodeReview.Detector
