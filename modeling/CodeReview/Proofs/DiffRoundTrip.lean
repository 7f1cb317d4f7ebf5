import CodeReview.Diff.Reader
import CodeReview.Proofs.DiffLines

/-! # Reading printed diffs

    A printed diff is read back.  One line of a body leaves the counts of
    the lines behind it; so a body is over exactly at its end, whatever its
    lines hold.  From this follows what one hunk, one change and a list of
    changes do to the state of the reader. -/

namespace CodeReview

/-! ## Lines -/

namespace Diff

/-- A line is read with its line break, and the rest on its own. -/
theorem lines_append {line : Text} (h : '\n' ∉ line) (rest : Text) :
    lines (line ++ '\n' :: rest) = (line ++ ['\n']) :: lines rest := by
  induction line with
  | nil => rw [List.nil_append, lines, if_pos rfl, List.nil_append]
  | cons c line ih =>
      rw [List.mem_cons, not_or] at h
      rw [List.cons_append, lines, if_neg (Ne.symm h.1), ih h.2]
      rfl

/-- Lines that hold no newlines come back. -/
theorem lines_ofLines {ls : List Text} (h : ∀ line ∈ ls, '\n' ∉ line) :
    lines (ofLines ls) = ls.map (· ++ ['\n']) := by
  induction ls with
  | nil => rfl
  | cons line ls ih =>
      obtain ⟨hline, hls⟩ := List.forall_mem_cons.mp h
      rw [ofLines, List.flatMap_cons, List.append_assoc, List.singleton_append,
        lines_append hline, List.map_cons]
      exact congrArg _ (ih hls)

end Diff

namespace DiffState

/-- Takes lines one after the other, each with its newline. -/
def read (s : DiffState) (ls : List Text) : Except DiffError DiffState :=
  ls.foldlM (fun s line => s.step (line ++ ['\n'])) s

variable {s s' : DiffState}

/-- Reading goes on with the state behind the first line. -/
theorem read_cons {line : Text} (h : s.step (line ++ ['\n']) = .ok s')
    (ls : List Text) : s.read (line :: ls) = s'.read ls := by
  rw [read, List.foldlM_cons, h]
  rfl

/-- Reading goes on with the state behind the first lines. -/
theorem read_append {ls : List Text} (h : s.read ls = .ok s') (more : List Text) :
    s.read (ls ++ more) = s'.read more := by
  rw [read, List.foldlM_append]
  show s.read ls >>= _ = _
  rw [h]
  rfl

/-- Outside the body of a hunk, a line is read by what it starts with. -/
theorem step_of_body_eq_none (h : s.body = none) (line : Text) :
    s.step line = s.stepLine line (.parse line) := by
  rw [step, h]

end DiffState

/-- A text made of lines is read line by line. -/
theorem Diff.parse_ofLines {ls : List Text} (h : ∀ line ∈ ls, '\n' ∉ line) :
    parse (ofLines ls) = DiffState.read {} ls >>= DiffState.finish := by
  rw [parse, lines_ofLines h, List.foldlM_map]
  rfl

/-! ## Bodies -/

namespace Remaining

/-- The lines of a body on each side. -/
def ofBody (body : List BodyLine) : Remaining :=
  ⟨body.countP BodyLine.isOnSource, body.countP BodyLine.isOnTarget⟩

/-- A line is taken from the sides where it stands. -/
theorem step_line (b : BodyLine) (body : List BodyLine) :
    (ofBody (b :: body)).step (b.line ++ ['\n']) = .ok (ofBody body) := by
  cases b with
  | context text =>
      show (ofBody (.context text :: body)).take 1 1 = _
      rw [ofBody, List.countP_cons_of_pos rfl, List.countP_cons_of_pos rfl]
      exact if_pos (by simp)
  | removed text =>
      show (ofBody (.removed text :: body)).take 1 0 = _
      rw [ofBody, List.countP_cons_of_pos rfl,
        List.countP_cons_of_neg Bool.false_ne_true]
      exact if_pos (by simp)
  | inserted text =>
      show (ofBody (.inserted text :: body)).take 0 1 = _
      rw [ofBody, List.countP_cons_of_neg Bool.false_ne_true,
        List.countP_cons_of_pos rfl]
      exact if_pos (by simp)

/-- Every line stands on some side, so only an empty body is complete. -/
theorem isDone_ofBody_cons (b : BodyLine) (body : List BodyLine) :
    (ofBody (b :: body)).isDone = false := by
  cases b <;> simp [ofBody, isDone, BodyLine.isOnSource, BodyLine.isOnTarget]

end Remaining

namespace DiffState

variable {s : DiffState}

/-- A body ends after its last line. -/
theorem read_body {b : BodyLine} {body : List BodyLine}
    (h : s.body = some (.ofBody (b :: body))) :
    s.read ((b :: body).map BodyLine.line) = .ok { s with body := none } := by
  have hstep (s : DiffState) (b : BodyLine) (body : List BodyLine)
      (h : s.body = some (.ofBody (b :: body))) :
      s.step (b.line ++ ['\n']) = .ok { s with
        body := if (Remaining.ofBody body).isDone then none
          else some (.ofBody body) } := by
    rw [step, h]
    show ((Remaining.ofBody (b :: body)).step _ >>= _) = _
    rw [Remaining.step_line]
    rfl
  -- along the body, the counts stay those of the lines that are left
  induction body generalizing s b with
  | nil =>
      rw [List.map_cons, read_cons (hstep s b [] h)]
      rfl
  | cons c body ih =>
      rw [List.map_cons, read_cons (hstep s b (c :: body) h),
        Remaining.isDone_ofBody_cons, if_neg Bool.false_ne_true]
      exact ih rfl

end DiffState

/-! ## Hunks -/

/-- Whether a hunk can be told from its first line: it has a body, and its
    numbers are short enough to be read. -/
structure FullHunk.IsCounted (h : FullHunk) : Prop where
  body_ne_nil : h.body ≠ []
  short : ∀ digits ∈ DiffLine.numberTexts h.spans, digits.length ≤ Text.maxDigits

instance (h : FullHunk) : Decidable h.IsCounted :=
  decidable_of_iff
    (h.body ≠ []
      ∧ ∀ digits ∈ DiffLine.numberTexts h.spans, digits.length ≤ Text.maxDigits)
    ⟨fun h => ⟨h.1, h.2⟩, fun h => ⟨h.body_ne_nil, h.short⟩⟩

namespace DiffState

variable {s : DiffState} {file : FileDiff}

/-- A hunk is added to the open file. -/
theorem read_hunk {h : FullHunk} (hcount : h.IsCounted) (hbody : s.body = none)
    (hcurrent : s.current = some file) :
    s.read h.lines = .ok { s with
      current := some { file with hunks := file.hunks ++ [h.spans] }
      inPreamble := false } := by
  have hstep : s.step (h.headLine ++ ['\n']) = .ok { s with
      current := some { file with hunks := file.hunks ++ [h.spans] }
      inPreamble := false
      body := some (.ofBody h.body) } := by
    rw [step_of_body_eq_none hbody, DiffLine.parse_headLine,
      DiffLine.ofNumbers_numberTexts hcount.short, stepLine, openHunk, hcurrent]
    rfl
  rw [FullHunk.lines, read_cons hstep]
  obtain ⟨b, body, hlines⟩ := List.exists_cons_of_ne_nil hcount.body_ne_nil
  rw [hlines, read_body rfl, hbody]

/-- Hunks are added to the open file in order. -/
theorem read_hunks {hunks : List FullHunk} (hcount : ∀ h ∈ hunks, h.IsCounted)
    (hbody : s.body = none) (hcurrent : s.current = some file) :
    ∃ s', s.read (hunks.flatMap FullHunk.lines) = .ok s'
      ∧ s'.body = none ∧ s'.closed = s.closed
      ∧ s'.current
          = some { file with hunks := file.hunks ++ hunks.map FullHunk.spans } := by
  induction hunks generalizing s file with
  | nil =>
      refine ⟨s, rfl, hbody, rfl, ?_⟩
      rw [hcurrent, List.map_nil, List.append_nil]
  | cons h hunks ih =>
      obtain ⟨hh, hhunks⟩ := List.forall_mem_cons.mp hcount
      rw [List.flatMap_cons, read_append (read_hunk hh hbody hcurrent)]
      obtain ⟨s', hread, hbody', hclosed, hcurrent'⟩ := ih
        (s := { s with
          current := some { file with hunks := file.hunks ++ [h.spans] }
          inPreamble := false }) hhunks hbody rfl
      refine ⟨s', hread, hbody', hclosed, ?_⟩
      rw [hcurrent', List.append_assoc]
      rfl

end DiffState

/-! ## Changes -/

/-- The file that a printed change is read as. -/
def FileChange.fileDiff (change : FileChange) : FileDiff where
  source := change.sourceLineName
  target := change.targetLineName
  hunks := change.hunks.map FullHunk.spans

namespace DiffState

variable {s : DiffState} {change : FileChange}

/-- The state in front of the hunks of a change. -/
def opened (s : DiffState) (change : FileChange) : DiffState where
  closed := s.files
  current := some
    { source := change.sourceLineName, target := change.targetLineName }
  inPreamble := true
  pending := some change.sourceLineName

/-- The header and the mode leave the names of the open file. -/
theorem read_header (hprint : change.IsPrintable) (hbody : s.body = none) :
    s.read (("diff --git ".toList ++ (change.sourceName ++ ' ' :: change.targetName))
        :: change.modeLine)
      = .ok { s.opened change with pending := some change.sourceName } := by
  have hstep : s.step (("diff --git ".toList
        ++ (change.sourceName ++ ' ' :: change.targetName)) ++ ['\n'])
      = .ok { closed := s.files
              current := some
                { source := change.sourceName, target := change.targetName }
              inPreamble := true, pending := some change.sourceName } := by
    rw [step_of_body_eq_none hbody, FileChange.parse_headerLine hprint, stepLine,
      begin, hbody]
  rw [read_cons hstep]
  -- a line about the mode follows for files that come or go
  cases change with
  | added path lines mode =>
      refine read_cons ?_ []
      rw [step_of_body_eq_none rfl, FileChange.parse_newFile]
      rfl
  | deleted path lines mode =>
      refine read_cons ?_ []
      rw [step_of_body_eq_none rfl, FileChange.parse_deletedFile]
      rfl
  | modified path hunks => rfl
  | renamed source target hunks => rfl

/-- The lines before the first hunk open the change, whatever was read
    before. -/
theorem read_preamble (hprint : change.IsPrintable) (hbody : s.body = none) :
    s.read change.lines
      = (s.opened change).read (change.hunks.flatMap FullHunk.lines) := by
  rw [FileChange.lines, read_append (read_header hprint hbody)]
  have hsource :
      DiffState.step { s.opened change with pending := some change.sourceName }
          (("--- ".toList ++ change.sourceLineName) ++ ['\n'])
        = .ok (s.opened change) := by
    rw [step_of_body_eq_none rfl, FileChange.parse_sourceLine hprint]
    rfl
  have htarget : (s.opened change).step
      (("+++ ".toList ++ change.targetLineName) ++ ['\n'])
        = .ok (s.opened change) := by
    rw [step_of_body_eq_none rfl, FileChange.parse_targetLine hprint]
    exact if_pos rfl
  rw [read_cons hsource, read_cons htarget]

/-- A change adds its file. -/
theorem read_change (hprint : change.IsPrintable)
    (hcount : ∀ h ∈ change.hunks, h.IsCounted) (hbody : s.body = none) :
    ∃ s', s.read change.lines = .ok s' ∧ s'.body = none
      ∧ s'.files = s.files ++ [change.fileDiff] := by
  obtain ⟨s', hread, hbody', hclosed, hcurrent⟩ :=
    read_hunks (s := s.opened change) hcount rfl rfl
  refine ⟨s', (read_preamble hprint hbody).trans hread, hbody', ?_⟩
  rw [files, hclosed, hcurrent]
  rfl

/-- Changes add their files in order. -/
theorem read_changes {changes : List FileChange}
    (hprint : ∀ change ∈ changes, change.IsPrintable)
    (hcount : ∀ change ∈ changes, ∀ h ∈ change.hunks, h.IsCounted)
    (hbody : s.body = none) :
    ∃ s', s.read (changes.flatMap FileChange.lines) = .ok s' ∧ s'.body = none
      ∧ s'.files = s.files ++ changes.map FileChange.fileDiff := by
  induction changes generalizing s with
  | nil => exact ⟨s, rfl, hbody, (List.append_nil _).symm⟩
  | cons change changes ih =>
      obtain ⟨hprint, hprints⟩ := List.forall_mem_cons.mp hprint
      obtain ⟨hcount, hcounts⟩ := List.forall_mem_cons.mp hcount
      obtain ⟨s₁, hread₁, hbody₁, hfiles₁⟩ := read_change hprint hcount hbody
      obtain ⟨s₂, hread₂, hbody₂, hfiles₂⟩ := ih hprints hcounts hbody₁
      refine ⟨s₂, ?_, hbody₂, ?_⟩
      · rw [List.flatMap_cons, read_append hread₁, hread₂]
      · rw [hfiles₂, hfiles₁, List.append_assoc]
        rfl

end DiffState

/-! ## Paths and statuses -/

/-- Where every hunk has lines on a side, none is void there. -/
theorem FileDiff.isVoidOn_eq_false {side : Hunk → Span} {file : FileDiff}
    (h : ∀ hunk ∈ file.hunks, 0 < (side hunk).length) :
    file.isVoidOn side = false := by
  rw [isVoidOn]
  split
  · rename_i hunk hhunks
    have hlength := h hunk (hhunks ▸ List.mem_singleton_self hunk)
    rw [Span.isVoid, Bool.and_eq_false_iff, beq_eq_false_iff_ne,
      beq_eq_false_iff_ne]
    exact .inr (Nat.ne_of_gt hlength)
  · rfl

namespace FileChange

variable {change : FileChange}

/-- A file that stays has lines on both sides. -/
theorem isVoidOn_fileDiff (hprint : change.IsPrintable)
    (hstays : change.status = .modified ∨ change.status = .renamed) :
    change.fileDiff.isVoidOn Hunk.source = false
      ∧ change.fileDiff.isVoidOn Hunk.target = false := by
  have hsides := hprint.both_sides hstays
  constructor
  · refine FileDiff.isVoidOn_eq_false (List.forall_mem_map.mpr ?_)
    exact fun h hh => (hsides h hh).1
  · refine FileDiff.isVoidOn_eq_false (List.forall_mem_map.mpr ?_)
    exact fun h hh => (hsides h hh).2

/-- A changed file keeps its name. -/
theorem isRenamed_modified (path : Text) (hunks : List FullHunk) :
    (modified path hunks).fileDiff.isRenamed = false := by
  show (path != path) = false
  exact bne_self_eq_false path

/-- A renamed file is read as renamed. -/
theorem isRenamed_renamed {source target : Text} (hunks : List FullHunk)
    (h : source ≠ target) :
    (renamed source target hunks).fileDiff.isRenamed = true := by
  show (source != target) = true
  exact bne_iff_ne.mpr h

/-- What is read has the status of the change. -/
theorem status_fileDiff (hprint : change.IsPrintable) :
    change.fileDiff.status = change.status := by
  cases change with
  | added path lines mode => rfl
  | deleted path lines mode => rfl
  | modified path hunks =>
      obtain ⟨hsource, htarget⟩ := isVoidOn_fileDiff hprint (.inl rfl)
      rw [FileDiff.status, FileDiff.isAdded, FileDiff.isDeleted, hsource, htarget,
        isRenamed_modified]
      rfl
  | renamed source target hunks =>
      obtain ⟨hsource, htarget⟩ := isVoidOn_fileDiff hprint (.inr rfl)
      have hdiffer : source ≠ target := hprint.renames rfl
      rw [FileDiff.status, FileDiff.isAdded, FileDiff.isDeleted, hsource, htarget,
        isRenamed_renamed hunks hdiffer]
      rfl

/-- What is read has the path of the change. -/
theorem path_fileDiff (hprint : change.IsPrintable) :
    change.fileDiff.path = String.ofList change.path := by
  cases change with
  | added path lines mode => rfl
  | deleted path lines mode => rfl
  | modified path hunks =>
      rw [FileDiff.path, FileDiff.side, isRenamed_modified]
      rfl
  | renamed source target hunks =>
      have hdiffer : source ≠ target := hprint.renames rfl
      rw [FileDiff.path, FileDiff.side, isRenamed_renamed hunks hdiffer,
        Bool.or_true]
      rfl

end FileChange

namespace Diff

/-- Reading a printed diff is reading the lines of its changes. -/
theorem parse_render_eq {changes : List FileChange}
    (hprint : ∀ change ∈ changes, change.IsPrintable) :
    parse (render changes)
      = DiffState.read {} (changes.flatMap FileChange.lines)
          >>= DiffState.finish := by
  refine parse_ofLines ?_
  intro line hline
  obtain ⟨change, hchange, hline⟩ := List.mem_flatMap.mp hline
  exact FileChange.newline_not_mem_lines (hprint change hchange) line hline

/-- A printed diff is read as the files of its changes. -/
theorem parse_render {changes : List FileChange}
    (hprint : ∀ change ∈ changes, change.IsPrintable)
    (hcount : ∀ change ∈ changes, ∀ h ∈ change.hunks, h.IsCounted) :
    parse (render changes) = .ok (changes.map FileChange.fileDiff) := by
  obtain ⟨s, hread, hbody, hfiles⟩ :=
    DiffState.read_changes (s := {}) hprint hcount rfl
  rw [parse_render_eq hprint, hread]
  show s.finish = _
  rw [DiffState.finish, hbody, hfiles]
  rfl

/-- The paths of a printed diff are those of its changes in order, without
    the deleted ones unless these are asked for. -/
theorem changedPaths_render {changes : List FileChange}
    (hprint : ∀ change ∈ changes, change.IsPrintable)
    (hcount : ∀ change ∈ changes, ∀ h ∈ change.hunks, h.IsCounted)
    (includeDeletions : Bool) :
    (changedPaths (render changes) includeDeletions).map (·.value)
      = .ok ((changes.filter fun change =>
          includeDeletions || change.status != .deleted).map
            (String.ofList ·.path)) := by
  have hfilter : (changes.map FileChange.fileDiff).filter
      (fun file => includeDeletions || file.status != .deleted)
      = (changes.filter fun change =>
          includeDeletions || change.status != .deleted).map
            FileChange.fileDiff := by
    rw [List.filter_map]
    refine congrArg _ (List.filter_congr ?_)
    intro change hchange
    rw [Function.comp_apply, FileChange.status_fileDiff (hprint change hchange)]
  rw [changedPaths, parse_render hprint hcount]
  show Except.ok (List.map FileDiff.path (List.filter _ _)) = _
  rw [hfilter, List.map_map]
  refine congrArg Except.ok (List.map_congr_left ?_)
  intro change hchange
  exact FileChange.path_fileDiff (hprint change (List.mem_filter.mp hchange).1)

/-- **ROUND TRIP**: a printed diff is read back, change by change: the
    paths and statuses in order, whatever the lines of the hunks hold; and
    the changed paths are those of the changes, without the deleted ones
    unless they are asked for. -/
theorem parse_render_changes {changes : List FileChange}
    (hprint : ∀ change ∈ changes, change.IsPrintable)
    (hcount : ∀ change ∈ changes, ∀ h ∈ change.hunks, h.IsCounted) :
    (parse (render changes)).map (·.map fun file => (file.path, file.status))
        = .ok (changes.map fun change =>
            (String.ofList change.path, change.status))
      ∧ (changedPaths (render changes) false).map (·.value)
        = .ok ((changes.filter (·.status != .deleted)).map
            (String.ofList ·.path))
      ∧ (changedPaths (render changes) true).map (·.value)
        = .ok (changes.map (String.ofList ·.path)) := by
  refine ⟨?_, changedPaths_render hprint hcount false, ?_⟩
  · rw [parse_render hprint hcount]
    show Except.ok (List.map _ (List.map _ _)) = _
    rw [List.map_map]
    refine congrArg Except.ok (List.map_congr_left ?_)
    intro change hchange
    rw [← FileChange.path_fileDiff (hprint change hchange),
      ← FileChange.status_fileDiff (hprint change hchange)]
    rfl
  · have hall : (changes.filter fun change =>
        true || change.status != .deleted) = changes :=
      List.filter_eq_self.mpr fun _ _ => rfl
    rw [changedPaths_render hprint hcount true, hall]

/-- Changes of every kind, with lines that look like the lines between
    hunks. -/
def disguisedChanges : List FileChange :=
  [.modified "app/user.rb".toList [{
      sourceStart := 1, targetStart := 1, heading := " class User".toList
      body := [.context "class User".toList, .removed "-- a/old.rb".toList,
        .inserted "++ b/new.rb".toList, .context "@@ -1 +1 @@".toList] }],
    .deleted "old.js".toList ["-- /dev/null".toList],
    .renamed "a/cart.rb".toList "b/cart.rb".toList [
      { sourceStart := 1, targetStart := 1
        body := [.context "diff --git a/x b/x".toList] },
      { sourceStart := 9, targetStart := 9
        body := [.removed [], .removed [], .inserted []] }],
    .added "bin/run.js".toList ["++ b/x".toList, "@ -0,0 +1 @@".toList]
      .executable]

/-- Four changes whose names, contents or modes look like something else
    come back as they are. -/
theorem parse_render_disguised :
    (parse (render disguisedChanges)).map
        (·.map fun file => (file.path, file.status))
        = .ok [("app/user.rb", .modified), ("old.js", .deleted),
          ("b/cart.rb", .renamed), ("bin/run.js", .added)]
      ∧ (changedPaths (render disguisedChanges) false).map (·.value)
        = .ok ["app/user.rb", "b/cart.rb", "bin/run.js"]
      ∧ (changedPaths (render disguisedChanges) true).map (·.value)
        = .ok ["app/user.rb", "old.js", "b/cart.rb", "bin/run.js"] :=
  @parse_render_changes disguisedChanges (by decide) (by decide)

/-- A change of one line, with a hunk that starts at some number. -/
def changeAt (start : Nat) : FileChange :=
  .modified "a".toList
    [{ sourceStart := start, targetStart := 1, body := [.context "x".toList] }]

/-- A change may start at any line, however large its number. -/
theorem isPrintable_changeAt (start : Nat) : (changeAt start).IsPrintable where
  source_path := (by decide : IsPath "a".toList)
  target_path := (by decide : IsPath "a".toList)
  renames := by
    intro h
    cases h
  hunks_printable := List.forall_mem_singleton.mpr
    ⟨(by decide : ∀ b ∈ [BodyLine.context "x".toList], '\n' ∉ b.text),
      List.not_mem_nil⟩
  both_sides := fun _ => List.forall_mem_singleton.mpr
    ⟨Nat.zero_lt_one, Nat.zero_lt_one⟩

/-- A number of too many digits is not read. -/
theorem parse_render_changeAt {start : Nat}
    (hlong : Text.maxDigits < (Nat.toDigits 10 start).length) :
    parse (render [changeAt start])
      = .error (.numberTooLong (Nat.toDigits 10 start).length) := by
  have hprint := isPrintable_changeAt start
  have hhead (h : FullHunk) (hstart : h.sourceStart = start) :
      (DiffState.opened {} (changeAt start)).step (h.headLine ++ ['\n'])
        = .error (.numberTooLong (Nat.toDigits 10 start).length) := by
    subst hstart
    rw [DiffState.step_of_body_eq_none rfl, DiffLine.parse_headLine,
      DiffLine.ofNumbers_of_overlong hlong]
    rfl
  rw [parse_render_eq (List.forall_mem_singleton.mpr hprint),
    List.flatMap_singleton, DiffState.read_preamble hprint rfl]
  show DiffState.read _ (FullHunk.headLine _ :: _) >>= _ = _
  rw [DiffState.read, List.foldlM_cons, hhead _ rfl]
  rfl

/-- A power of ten has more digits than its exponent says. -/
theorem lt_length_toDigits_pow {k : Nat} (hk : 0 < k) :
    k < (Nat.toDigits 10 (Nat.pow 10 k)).length :=
  Nat.lt_of_not_le fun hle =>
    Nat.lt_irrefl _ ((Nat.length_toDigits_le_iff (by decide) hk).mp hle)

/-- Without lines, a hunk takes the line behind it; and a number of 4301
    digits is not read. -/
theorem parse_render_unreadable :
    let bare : List FileChange :=
      [.added "a".toList [], .added "b".toList ["x".toList]]
    let start : Nat := Nat.pow 10 Text.maxDigits
    (∀ change ∈ bare, change.IsPrintable)
      ∧ parse (render bare)
        = .error (.bodyLineExpected "diff --git a/b b/b\n".toList)
      ∧ (∀ change ∈ [changeAt start], change.IsPrintable)
      ∧ parse (render [changeAt start])
        = .error (.numberTooLong (Nat.toDigits 10 start).length) := by
  intro bare start
  refine ⟨by decide, by decide, ?_, ?_⟩
  · exact List.forall_mem_singleton.mpr (isPrintable_changeAt start)
  · exact parse_render_changeAt (lt_length_toDigits_pow (by decide))

end Diff

end CodeReview
