import CodeReview.Proofs.MalformedBytes
import CodeReview.Proofs.Skipping

/-! # Source files

    A source file is read as the one text that its bytes are the form of, or
    not at all.  So nothing of a text is lost on the way: what reads as a
    text differs from every other text in its bytes, and a file that is
    refused holds a null byte or malformed bytes (`forms_no_text_iff`).
    Whoever refuses a file says so once and reports nothing about it. -/

namespace CodeReview

namespace Review

variable {input : ReviewInput} {path : String}

/-- The analysis of a file that is not read is what reading it tells. -/
theorem analyse_of_source_none {language : Option Language}
    {log : List LogEntry} (h : sourceAt input.tree path = ⟨none, log⟩) :
    analyse input path language = ⟨none, log⟩ := by
  have hsubject : subject? input path language = ⟨none, log⟩ := by
    rw [subject?, h]
    exact congrArg (Logged.mk none) (List.append_nil log)
  rw [analyse, hsubject]
  exact congrArg (Logged.mk none) (List.append_nil log)

end Review

open Text in
/-- **SOURCE FILES ARE READ EXACTLY**: reading a file gives a text exactly
    if the bytes are the form of this text and none of them is null, so
    that a refused file holds a null byte or malformed bytes behind the form
    of some text.  A text comes without a warning; a refused file leads to
    one warning, has no findings of its own and no finding in any review. -/
theorem readSource_exact {input : ReviewInput} {path : String} {place : Path}
    {bytes : List UInt8} (hpath : Path.read path = .ok place)
    (hread : input.tree.read place = .ok bytes) :
    ∃ source, readSource input.tree path = .ok source
      ∧ (∀ text, source.value = some text ↔ 0 ∉ bytes ∧ encode text = bytes)
      ∧ (source.value = none ↔ 0 ∈ bytes
        ∨ ∃ front bad, bytes = encode front ++ bad ∧ Malformed bad)
      ∧ (source.value ≠ none → source.log = [])
      ∧ (source.value = none →
        (∃ reason : String,
          source.log = [⟨.warning, s!"Skipping {path} - {reason}"⟩])
        ∧ (∀ language, Review.file input path language = .ok ⟨none, source.log⟩)
        ∧ ∀ paths, ∀ f ∈ (review input paths).value.allFindings,
          Path.parse f.file ≠ place) := by
  have hplace : place = Path.parse path := by
    rw [Path.read] at hpath
    split at hpath
    · exact nomatch hpath
    · exact (Except.ok.inj hpath).symm
  subst hplace
  refine ⟨sourceAt input.tree path, by rw [readSource, hpath]; rfl, ?_⟩
  rw [← forms_no_text_iff]
  have hfile := (FileTree.read_eq_ok_iff.mp hread).1
  -- either the bytes are the form of a text without zero bytes, or the file
  -- is refused
  rcases sourceAt_of_read hread with
    ⟨text, hnull, htext, hsource⟩ | ⟨hrefused, reason, hsource⟩
  · have hno : ¬ (0 ∈ bytes ∨ ∀ text, encode text ≠ bytes) :=
      fun h => h.elim hnull fun hno => hno text htext
    rw [hsource]
    refine ⟨fun other => ⟨?_, ?_⟩, ⟨nofun, fun h => absurd h hno⟩,
      fun _ => rfl, nofun⟩
    · intro hother
      cases hother
      exact ⟨hnull, htext⟩
    · -- the form of a text gives the text back
      rintro ⟨_, hother⟩
      have hdecode := decode_eq_ok_iff.mpr htext
      rw [decode_eq_ok_iff.mpr hother] at hdecode
      rw [Except.ok.inj hdecode]
  · -- a refused file is skipped, for one of two reasons, and so nothing is
    -- reported about it
    have hskipped : Review.Skipped input path :=
      hrefused.elim (.binary hfile) (.undecodable hfile)
    rw [hsource]
    refine ⟨fun text => ⟨nofun, ?_⟩, ⟨fun _ => hrefused, fun _ => rfl⟩,
      fun hsome => absurd rfl hsome, fun _ => ⟨⟨reason, rfl⟩, ?_, ?_⟩⟩
    · rintro ⟨hnull, htext⟩
      exact hrefused.elim (absurd · hnull) fun hno => absurd htext (hno text)
    · intro language
      simp only [Review.file, hpath, Review.analyse_of_source_none hsource]
      rfl
    · intro paths f hf
      exact Review.parse_file_ne_of_skipped hskipped hf

/-- A page that starts with a byte order mark, breaks its line with a
    carriage return and does not end it; and a page with half of a surrogate
    pair. -/
def oddPages : ReviewInput where
  tree := {
    files := [(["page.rb"], [0xef, 0xbb, 0xbf, 0x61, 0x0d, 0x0a, 0x62]),
      (["half.rb"], [0x61, 0xed, 0xa0, 0x80])] }

/-- The first page is read character by character; nothing is read of the
    second, whose first character alone is a text. -/
theorem readSource_oddPages :
    (∃ source, readSource oddPages.tree "page.rb" = .ok source
      ∧ source.value = some ['\uFEFF', 'a', '\r', '\n', 'b'])
    ∧ ∃ source, readSource oddPages.tree "half.rb" = .ok source
      ∧ source.value = none
      ∧ (∃ reason : String,
        source.log = [⟨.warning, s!"Skipping half.rb - {reason}"⟩])
      ∧ ∀ paths, ∀ f ∈ (review oddPages paths).value.allFindings,
        Path.parse f.file ≠ Path.parse "half.rb" := by
  have hpage : oddPages.tree.read (Path.parse "page.rb")
      = .ok [0xef, 0xbb, 0xbf, 0x61, 0x0d, 0x0a, 0x62] := by rfl
  have hhalf : oddPages.tree.read (Path.parse "half.rb")
      = .ok [0x61, 0xed, 0xa0, 0x80] := by rfl
  have hpagePath : Path.read "page.rb" = .ok (Path.parse "page.rb") := by decide
  have hhalfPath : Path.read "half.rb" = .ok (Path.parse "half.rb") := by decide
  constructor
  · obtain ⟨source, hsource, htext, _⟩ := readSource_exact hpagePath hpage
    exact ⟨source, hsource, (htext _).mpr (by decide)⟩
  · obtain ⟨source, hsource, _, hnone, _, hrefused⟩ :=
      readSource_exact hhalfPath hhalf
    have hbad : Text.Malformed [0xed, 0xa0, 0x80] :=
      .surrogate (Nat.le_refl 0xd800) (by decide) []
    have hvalue : source.value = none :=
      hnone.mpr (.inr ⟨['a'], _, by decide, hbad⟩)
    exact ⟨source, hsource, hvalue, (hrefused hvalue).1,
      (hrefused hvalue).2.2⟩

end CodeReview
