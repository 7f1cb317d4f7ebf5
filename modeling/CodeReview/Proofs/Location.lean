import CodeReview.Proofs.Rules.Catalogue

/-! # Where findings are

    Every detector succeeds on every file, and its findings are about that
    file, on lines that it has.  The rules of the detector say so of what
    it reports; what remains is that the blocks of a file start within it
    and that no finding is refused. -/

namespace CodeReview

/-! ## Blocks start within the file -/

/-- A block starts within the lines it is found in. -/
theorem Block.startLine_le_of_mem_scanFrom {block : Block}
    {lines : List LineProfile} :
    ∀ {before : Nat}, block ∈ scanFrom before lines →
      block.startLine ≤ before + lines.length := by
  induction lines with
  | nil =>
      intro before h
      exact nomatch h
  | cons line rest ih =>
      intro before h
      rw [List.length_cons]
      -- a block starts on the first line or is found behind it
      have hcases : block.startLine = before + 1
          ∨ block ∈ scanFrom (before + 1) rest := by
        rw [scanFrom] at h
        split at h
        · exact Or.inr h
        · rcases List.mem_cons.mp h with rfl | hlater
          · exact Or.inl rfl
          · exact Or.inr hlater
      rcases hcases with hfirst | hlater
      · omega
      · have hle := ih hlater
        omega

/-- A block starts within its file. -/
theorem Block.startLine_le_of_mem_scan {block : Block} {content : Text}
    {language : Option Language} (h : block ∈ scan content language) :
    block.startLine ≤ (Text.lines content).length := by
  rw [scan] at h
  split at h
  · exact absurd h List.not_mem_nil
  · have hle := startLine_le_of_mem_scanFrom h
    rw [List.length_map, Nat.zero_add] at hle
    exact hle

/-- The blocks that are found in a content start within it. -/
theorem Subject.blocksWithin_ofContent (path : String) (content : Text)
    (language : Option Language) (config : Config) :
    (ofContent path content language config).BlocksWithin :=
  fun _ h => Block.startLine_le_of_mem_scan h

/-! ## No finding is refused -/

/-- A finding with a message and no line zero passes the check. -/
theorem Finding.checked_eq_ok {f : Finding} (hline : f.line ≠ some 0)
    (hmessage : Text.isAllBlank f.message.toList = false) :
    f.checked = .ok f := by
  have hlineFlaw : lineFlaw? f.line = none := if_neg hline
  have hempty : f.message.isEmpty = false := by
    cases hempty : f.message.isEmpty with
    | false => rfl
    | true =>
        rw [String.isEmpty_iff.mp hempty] at hmessage
        exact nomatch hmessage
  have hmessageFlaw : messageFlaw? f.message = none := by
    rw [messageFlaw?, hempty, hmessage]
    rfl
  rw [checked, hlineFlaw, hmessageFlaw]

/-- What is reported under rules that are said passes the checks. -/
theorem Reported.checked_eq_ok {s : Subject} {rules : List Rule}
    (hsaid : ∀ r ∈ rules, r.IsSaid) {f : Finding} (h : Reported s rules f) :
    f.checked = .ok f := by
  obtain ⟨r, hr, hcovers⟩ := h.covered
  -- the rule sees to the message, the location to the line
  refine Finding.checked_eq_ok ?_
    (Rule.not_isAllBlank_of_words (hsaid r hr) hcovers.words)
  intro hzero
  have hpos := (h.located.line_within 0 hzero).1
  omega

namespace Detector

/-- What a detector reports about a file; nothing if it fails. -/
def reports (d : Detector) (s : Subject) : List Finding :=
  match d.run s with
  | .ok findings => findings
  | .error _ => []

/-- A detector that follows rules succeeds with what it reports, all of it
    under the rules. -/
theorem Follows.reports {d : Detector} {rules : List Rule}
    (h : d.Follows rules) (hsaid : ∀ r ∈ rules, r.IsSaid) {s : Subject}
    (hblocks : s.BlocksWithin) :
    d.findings s = .ok (d.reports s) ∧ d.run s = .ok (d.reports s)
      ∧ ∀ f ∈ d.reports s, Reported s rules f := by
  obtain ⟨findings, hfindings, hreported⟩ := h s hblocks
  -- a rule says something, and lines are numbered from one: no check fails
  have hchecked : findings.mapM Finding.checked = .ok findings := by
    clear hfindings
    induction findings with
    | nil => rfl
    | cons f findings ih =>
        rw [List.forall_mem_cons] at hreported
        rw [List.mapM_cons, hreported.1.checked_eq_ok hsaid, ih hreported.2]
        rfl
  have hrun : d.run s = .ok findings := by
    rw [run, hfindings]
    show (findings.mapM Finding.checked).mapError _ = _
    rw [hchecked]
    rfl
  have hreports : d.reports s = findings := by
    rw [Detector.reports, hrun]
  rw [hreports]
  exact ⟨hfindings, hrun, hreported⟩

/-- Every detector of a language succeeds and reports under the rules for
    the language. -/
theorem exists_run {s : Subject} (hblocks : s.BlocksWithin)
    {language : Language} {d : Detector}
    (hd : d ∈ ofLanguage (some language)) :
    ∃ findings, d.run s = .ok findings
      ∧ ∀ f ∈ findings, Reported s (Entry.rulesOf language) f := by
  obtain ⟨_, hrun, hreported⟩ := (Entry.follows_rulesOf hd).reports
    (fun _ => Entry.isSaid_of_mem_rulesOf) hblocks
  exact ⟨_, hrun, hreported⟩

end Detector

/-- **LOCATION**: every detector of a file's language succeeds, and its
    findings are about the file, on lines that the file has. -/
theorem run_ofContent_within (path : String) (content : Text)
    (language : Option Language) (config : Config) {d : Detector}
    (hd : d ∈ Detector.ofLanguage language) :
    ∃ findings,
      d.run (Subject.ofContent path content language config) = .ok findings
        ∧ ∀ f ∈ findings, f.file = path
          ∧ (∀ line, f.line = some line →
              1 ≤ line ∧ line ≤ (Text.lines content).length)
          ∧ (Text.lines content = [] → f.line = none) := by
  cases language with
  | none => exact nomatch hd
  | some language =>
      obtain ⟨findings, hrun, hreported⟩ := Detector.exists_run
        (Subject.blocksWithin_ofContent path content (some language) config) hd
      refine ⟨findings, hrun, ?_⟩
      intro f hf
      have hlocated := (hreported f hf).located
      refine ⟨hlocated.file_eq, hlocated.line_within, ?_⟩
      intro hnil
      cases hline : f.line with
      | none => rfl
      | some line =>
          have hwithin : 1 ≤ line ∧ line ≤ (Text.lines content).length :=
            hlocated.line_within line hline
          rw [hnil] at hwithin
          exact absurd (Nat.le_trans hwithin.1 hwithin.2) (by decide)

/-- A schema whose only list is returned whole, on its second line. -/
def storeSchema : Text := "type Query \x7b\n  carts: [Cart]\n\x7d\n".toList

/-- The list is found, within the three lines of the schema. -/
theorem run_storeSchema_within :
    Detector.unpaginatedLists ∈ Detector.ofLanguage (some .graphql)
      ∧ ∃ findings,
        Detector.unpaginatedLists.run
            (Subject.ofContent "store.graphql" storeSchema (some .graphql) {})
          = .ok findings
        ∧ findings.map (·.line) = [some 2]
        ∧ ∀ f ∈ findings, f.file = "store.graphql"
          ∧ (∀ line, f.line = some line →
              1 ≤ line ∧ line ≤ (Text.lines storeSchema).length)
          ∧ (Text.lines storeSchema = [] → f.line = none) := by
  have hd : Detector.unpaginatedLists
      ∈ Detector.ofLanguage (some .graphql) := by
    show _ ∈ [Detector.fileSize, Detector.longLines,
      Detector.undocumentedFields, Detector.nullableIds,
      Detector.unpaginatedLists, Detector.inputValidation]
    simp only [List.mem_cons, true_or, or_true]
  have hlines : (Detector.unpaginatedLists.run (Subject.ofContent
      "store.graphql" storeSchema (some .graphql) {})).toOption.map
        (List.map (·.line)) = some [some 2] := by
    decide +kernel
  obtain ⟨findings, hrun, hwithin⟩ :=
    run_ofContent_within "store.graphql" storeSchema _ {} hd
  rw [hrun] at hlines
  exact ⟨hd, findings, hrun, Option.some.inj hlines, hwithin⟩

end CodeReview
