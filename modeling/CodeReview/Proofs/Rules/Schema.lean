import CodeReview.Proofs.Readings
import CodeReview.Proofs.Rule

/-! # Rules for schemas

    The rules of the detectors for schemas, each with the lemma that the
    detector follows them.  A definition lies within the file: it starts on
    a line of it, and its members stand on lines of its body. -/

namespace CodeReview.Detector

open Pattern Rule

/-! ## Definitions and members -/

/-- Whether a definition starts on a line of the file, with its body on the
    lines after that. -/
structure Definition.Within (s : Subject) (d : Definition) : Prop where
  line_pos : 1 ≤ d.line
  body_within : d.line + d.body.length ≤ s.lines.length

/-- No definition starts in an empty file. -/
theorem content_ne_nil_of_mem_allMatches {s : Subject} {line : Nat} {m : Match}
    (h : (line, m) ∈ s.allMatches definitionHead) : s.content ≠ [] := by
  intro hnil
  have hm := (Subject.mem_allMatches h).1
  rw [hnil] at hm
  exact nomatch (show m ∈ [] from hm)

/-- Following the definitions of a schema succeeds, and each lies within the
    file. -/
theorem exists_definitions (s : Subject) :
    ∃ found, definitions s = .ok found ∧ ∀ d ∈ found, d.Within s := by
  refine exists_mapM_ok ?_
  rintro ⟨line, m⟩ hmem
  have hcontent := content_ne_nil_of_mem_allMatches hmem
  have hlines : s.lines ≠ [] :=
    fun hnil => hcontent (Text.lines_eq_nil_iff.mp hnil)
  have hline := Subject.hasLine_of_mem_allMatches hmem
  have hstart : line - 1 < (s.lines.map BlockMarks.script.profile).length := by
    rw [List.length_map]
    exact hline.index_lt hcontent
  obtain ⟨last, hlast⟩ := exists_blockEnd hstart
  refine ⟨⟨m.name 1, m.name 2, line, (s.lines.drop line).take (last - line)⟩,
    ?_, (hline hlines).1, ?_⟩
  · show blockEnd _ (line - 1) >>= _ = _
    rw [hlast]
    rfl
  -- however far the braces reach, the body is cut at the end of the file
  · show line + ((s.lines.drop line).take (last - line)).length ≤ _
    have hle := (hline hlines).2
    rw [List.length_take, List.length_drop]
    omega

/-- A member stands as many lines below the head of its definition as its
    place in the body says, which is within the file. -/
theorem hasLine_of_mem_members {s : Subject} {d : Definition}
    (hd : d.Within s) {index : Nat} {line : Text}
    (h : (index, line) ∈ d.members) : s.HasLine (d.line + index + 1) := by
  intro _
  have hread : (index, line)
      ∈ Reading.start.members (memberPattern d.kind) 0 d.body := h
  have hlt : index < 0 + d.body.length :=
    (Reading.bounds_of_mem_members hread).2
  have hwithin := hd.body_within
  omega

/-- The head of a definition stands on a line of the file. -/
theorem Definition.Within.hasLine {s : Subject} {d : Definition}
    (h : d.Within s) : s.HasLine d.line := by
  intro _
  have hpos := h.line_pos
  have hwithin := h.body_within
  omega

/-! ## Rules -/

/-- Definitions with members that nothing describes; the counts open the
    message, so only its end is fixed. -/
def undocumentedFieldsRule : Rule where
  category := .maintainability
  severity := .suggestion
  opening := ""
  ending := " without descriptions"
  suggestion := fun _ =>
    "Add descriptions using \"\"\" block strings \"\"\" for types and fields"

/-- Undescribed members are reported at the head of their definition. -/
theorem undocumentedFields_follows :
    undocumentedFields.Follows [undocumentedFieldsRule] := by
  refine follows_of_step _ (fun s => rfl) exists_definitions ?_
  intro s found hfound f hf
  obtain ⟨d, hd, hsome⟩ := List.mem_filterMap.mp hf
  exact reported_unless (r := undocumentedFieldsRule) List.mem_cons_self
    ⟨List.nil_prefix, ends_append _ (by decide)⟩ (hfound d hd).hasLine hsome

/-- Identifiers that may be null; the name of the field stands within the
    quotes. -/
def nullableIdsRule : Rule where
  category := .bestPractice
  severity := .warning
  opening := "Field '"
  ending := "' is a nullable ID"
  suggestion := fun _ =>
    "Make identifier fields non-nullable with the ID! type"

/-- An identifier that may be null is reported at its own line. -/
theorem nullableIds_follows : nullableIds.Follows [nullableIdsRule] := by
  refine follows_of_ok (fun s => rfl) ?_
  intro s _ f hf
  obtain ⟨⟨line, index⟩, hmem, hsome⟩ := List.mem_filterMap.mp hf
  obtain ⟨m, _, rfl⟩ := Option.map_eq_some_iff.mp hsome
  exact reported_line (r := nullableIdsRule) List.mem_cons_self
    (words_around _ (by decide)) (Subject.hasLine_of_mem_zipIdx hmem)

/-- Queries that return a whole list; the name of the query stands within
    the quotes. -/
def unpaginatedListsRule : Rule where
  category := .performance
  severity := .suggestion
  opening := "Query '"
  ending := "' returns a list without pagination"
  suggestion := fun _ =>
    "Implement Relay-style connections or limit/offset pagination for lists"

/-- A query without pagination is reported at the line of the member. -/
theorem unpaginatedLists_follows :
    unpaginatedLists.Follows [unpaginatedListsRule] := by
  refine follows_of_step _ (fun s => rfl) exists_definitions ?_
  intro s found hfound f hf
  obtain ⟨d, hd, hf⟩ := List.mem_flatMap.mp hf
  obtain ⟨⟨index, line⟩, hmember, hsome⟩ := List.mem_filterMap.mp hf
  have hline :=
    hasLine_of_mem_members (hfound d (List.mem_filter.mp hd).1) hmember
  dsimp only at hsome
  split at hsome
  · exact nomatch hsome
  · exact reported_unless (r := unpaginatedListsRule) List.mem_cons_self
      (words_around _ (by decide)) hline hsome

/-- Inputs in a schema that has no way to say what is wrong with them. -/
def inputValidationRule : Rule where
  category := .bestPractice
  severity := .warning
  opening := "Input type '"
  ending := "' has no validation-error convention"
  suggestion := fun _ =>
    "Return a ValidationError/UserError payload for invalid input"

/-- Inputs are reported where they are defined, and the definitions are
    followed only if the schema has no such convention. -/
theorem inputValidation_follows :
    inputValidation.Follows [inputValidationRule] := by
  intro s _
  obtain ⟨found, hfound, hwithin⟩ := exists_definitions s
  show ∃ findings, (if validationConvention.occursIn s.content then .ok []
    else definitions s >>= _) = .ok findings ∧ _
  split
  · exact ⟨[], rfl, reported_nil⟩
  · rw [hfound]
    refine ⟨_, rfl, ?_⟩
    intro f hf
    obtain ⟨d, hd, rfl⟩ := List.mem_map.mp hf
    exact reported_line (r := inputValidationRule) List.mem_cons_self
      (words_around _ (by decide))
      (hwithin d (List.mem_filter.mp hd).1).hasLine

end CodeReview.Detector
