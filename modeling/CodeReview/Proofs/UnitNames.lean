import CodeReview.Block.Scan
import CodeReview.Proofs.Stretches

/-! # Names of units

    A scan takes a line for the start of a unit if the unit has a name, and
    the end of a block is found by any line that starts one.  Both are the
    same lines: the patterns of units remember a stretch of at least one
    character, so no name is empty (`unitName_ne_empty`), and a scan may go
    by the plain profiles (`scan_eq`). -/

namespace CodeReview

namespace Pattern

/-! ## Names -/

/-- Whether every result of a pattern remembers some text under a
    number. -/
def Remembers (p : Pattern) (index : Nat) : Prop :=
  ∀ s, ∀ t ∈ p.results s, ∃ start w, w ≠ []
    ∧ t.captures.lookup index = some ⟨start, w⟩

/-- A group around a pattern that reads no empty stretch remembers
    something. -/
theorem Reads.remembers {p : Pattern} {L : Text → Prop} (h : p.Reads L)
    (hne : ∀ w, L w → w ≠ []) (index : Nat) :
    (group index p).Remembers index := by
  intro s t ht
  obtain ⟨w, hw, _, rfl⟩ := h.mem_results_group.mp ht
  refine ⟨s.offset, w, hne w hw, ?_⟩
  simp

/-- What the first part of a sequence remembers stays, if the second part
    has no group of that number. -/
theorem Remembers.seq_left {p q : Pattern} {index : Nat}
    (h : p.Remembers index) (hq : index ∉ q.groups) :
    (p ++ q).Remembers index := by
  intro s t ht
  obtain ⟨u, hu, hrest⟩ := mem_results_seq.mp ht
  obtain ⟨start, w, hw, hlookup⟩ := h s u hu
  refine ⟨start, w, hw, ?_⟩
  rw [lookup_captures_results hq u t hrest, hlookup]

/-- What follows a pattern and remembers nothing under the number does not
    matter. -/
theorem Remembers.followedBy {index : Nat} (qs : List Pattern)
    (hqs : ∀ q ∈ qs, index ∉ q.groups) :
    ∀ {p : Pattern}, p.Remembers index →
      (qs.foldl (· ++ ·) p).Remembers index := by
  induction qs with
  | nil => exact fun h => h
  | cons q qs ih =>
      intro p h
      obtain ⟨hq, hqs⟩ := List.forall_mem_cons.mp hqs
      exact ih hqs (h.seq_left hq)

/-- What the second part of a sequence remembers, the sequence does. -/
theorem Remembers.seq_right {q : Pattern} {index : Nat}
    (h : q.Remembers index) (p : Pattern) : (p ++ q).Remembers index := by
  intro s t ht
  obtain ⟨u, _, hrest⟩ := mem_results_seq.mp ht
  exact h u t hrest

/-- The name that a match remembers is not empty. -/
theorem Remembers.name_ne_empty {p : Pattern} {index : Nat}
    (h : p.Remembers index) {text : Text} {m : Match}
    (hm : p.matchStart text = some m) : m.name index ≠ "" := by
  rw [matchStart, matchAt_eq] at hm
  obtain ⟨t, ht, rfl⟩ := List.mem_map.mp (List.mem_of_head? hm)
  obtain ⟨start, w, hw, hlookup⟩ := h _ t ht
  have hgroup : (Match.between (.atStart text) t).group index = w := by
    rw [Match.group, Match.capture?]
    show ((t.captures.lookup index).map Capture.text).getD [] = w
    rw [hlookup]
    rfl
  rw [Match.name, hgroup]
  intro hempty
  exact hw (String.ofList_inj.mp hempty)

end Pattern

namespace BlockMarks

open Pattern

/-- The pattern of Ruby units remembers a name. -/
theorem remembers_rubyUnit : rubyUnit.Remembers 1 :=
  ((reads_many1 _).remembers (fun _ hw => hw.1) 1).seq_right _

/-- The pattern of names in scripts remembers at least its first
    character. -/
theorem remembers_scriptName : (group 1 scriptName).Remembers 1 := by
  refine (reads_seq (reads_one _) (reads_many _)).remembers ?_ 1
  rintro _ ⟨_, v, rfl, ⟨c, _, rfl⟩, _⟩
  exact List.cons_ne_nil c v

/-- Each of the four patterns of script units remembers a name. -/
theorem remembers_script :
    ∀ p ∈ [scriptFunction, scriptBinding, scriptProperty, scriptMethod],
      p.Remembers 1 := by
  intro p hp
  simp only [List.mem_cons, List.not_mem_nil, or_false] at hp
  rcases hp with rfl | rfl | rfl | rfl
  · exact (remembers_scriptName.seq_right _).followedBy [blanks, char '(']
      (by decide)
  · exact (remembers_scriptName.seq_right _).followedBy
      [blanks, char '=', blanks, opt (text "async" ++ someBlanks),
        text "function" ++ wordEdge
          ||| scriptParameters ++ blanks ++ text "=>"
          ||| scriptName ++ blanks ++ text "=>"] (by decide)
  · exact (remembers_scriptName.seq_right _).followedBy
      [blanks, char ':', blanks, opt (text "async" ++ someBlanks),
        text "function", wordEdge] (by decide)
  · exact (remembers_scriptName.seq_right _).followedBy
      [blanks, scriptParameters, blanks, char '{'] (by decide)

/-- The first name that some patterns find is not empty. -/
theorem firstName_ne_empty {patterns : List Pattern} {excluded : List String}
    (h : ∀ p ∈ patterns, p.Remembers 1) {line : Text} {name : String}
    (hname : firstName patterns excluded line = some name) : name ≠ "" := by
  obtain ⟨p, hp, hfound⟩ := List.exists_of_findSome?_eq_some hname
  split at hfound
  · exact nomatch hfound
  · rename_i m hm
    obtain ⟨_, hsome⟩ := Option.ite_none_left_eq_some.mp hfound
    rw [← Option.some.inj hsome]
    exact (h p hp).name_ne_empty hm

/-- Every unit has a name. -/
theorem unitName_ne_empty {language : Language} {marks : BlockMarks}
    (hmarks : ofLanguage? language = some marks) {line : Text} {name : String}
    (hname : marks.unitName line = some name) : name ≠ "" := by
  cases language with
  | ruby =>
      cases hmarks
      refine firstName_ne_empty ?_ hname
      rintro p hp
      rw [List.mem_singleton.mp hp]
      exact remembers_rubyUnit
  | javascript =>
      cases hmarks
      exact firstName_ne_empty remembers_script hname
  | vue =>
      cases hmarks
      exact firstName_ne_empty remembers_script hname
  | graphql => exact nomatch hmarks
  | template => exact nomatch hmarks

/-- A scan sees a line as it is seen elsewhere. -/
theorem scanProfile_eq {language : Language} {marks : BlockMarks}
    (hmarks : ofLanguage? language = some marks) :
    marks.scanProfile = marks.profile := by
  funext line
  have hunit : (marks.unitName line).filter (· != "") = marks.unitName line := by
    cases hname : marks.unitName line with
    | none => rfl
    | some name =>
        exact Option.filter_eq_some_iff.mpr
          ⟨rfl, bne_iff_ne.mpr (unitName_ne_empty hmarks hname)⟩
  rw [scanProfile, hunit]
  rfl

end BlockMarks

namespace Block

/-- Asking whether a name is empty changes nothing in a scan. -/
theorem scanLines_eq {language : Option Language} {marks : BlockMarks}
    (hmarks : language.bind BlockMarks.ofLanguage? = some marks)
    (lines : List Text) :
    scanLines marks lines = scanFrom 0 (lines.map marks.profile) := by
  obtain ⟨language, -, hmarks⟩ := Option.bind_eq_some_iff.mp hmarks
  rw [scanLines, BlockMarks.scanProfile_eq hmarks]

/-- A scan goes by the profiles of the lines. -/
theorem scan_eq {language : Language} {marks : BlockMarks}
    (hmarks : BlockMarks.ofLanguage? language = some marks) (content : Text) :
    scan content (some language)
      = scanFrom 0 ((Text.lines content).map marks.profile) := by
  have hbind : (some language).bind BlockMarks.ofLanguage? = some marks := hmarks
  rw [scan, hbind]
  exact scanLines_eq hbind (Text.lines content)

end Block

end CodeReview
