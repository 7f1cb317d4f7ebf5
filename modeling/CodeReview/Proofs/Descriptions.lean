import CodeReview.Proofs.FirstMatches
import CodeReview.Proofs.Readings

/-! # Descriptions of members

    A body of described fields is read right exactly if every description
    leaves the reading as it was (`members_eq_fieldLines_iff`).  One on a
    single line does so if its parentheses are balanced, for they are
    counted like those of a field; one on several lines does so if nothing
    but quotes stands before the mark that closes it, for only the start of
    a line is looked at.  Any other description hides the field behind it,
    and what it leaves is not taken back. -/

namespace CodeReview.Detector

open Pattern

/-! ## Described fields -/

/-- The text of a description, as it is laid out: on one line, or with its
    first line behind the opening mark and its last one before the closing
    mark. -/
inductive Prose where
  | oneLine (text : Text)
  | several (first : Text) (middle : List Text) (last : Text)

/-- The lines of the text. -/
def Prose.texts : Prose → List Text
  | oneLine text => [text]
  | several first middle last => first :: (middle ++ [last])

/-- A description: its opening mark starts a line, its closing mark ends
    one, and none stands in its text. -/
structure Description where
  margin : Text
  prose : Prose
  tail : Text
  margin_isBlank : ∀ c ∈ margin, Text.isBlank c = true := by
    exact List.all_eq_true.mp rfl
  tail_isBlank : ∀ c ∈ tail, Text.isBlank c = true := by
    exact List.all_eq_true.mp rfl
  prose_free : ∀ text ∈ prose.texts, ¬ descriptionMark <:+: text

namespace Description

/-- The line of a description that stands on one. -/
def whole (d : Description) (text : Text) : Text :=
  d.margin ++ (descriptionMark ++ (text ++ descriptionMark) ++ d.tail)

/-- The line with the opening mark of a longer one. -/
def opening (d : Description) (first : Text) : Text :=
  d.margin ++ (descriptionMark ++ first)

/-- The line with its closing mark. -/
def closing (d : Description) (last : Text) : Text :=
  last ++ (descriptionMark ++ d.tail)

/-- The lines of a description. -/
def lines (d : Description) : List Text :=
  match d.prose with
  | .oneLine text => [d.whole text]
  | .several first middle last =>
      d.opening first :: (middle ++ [d.closing last])

end Description

/-- A field on one line: its name and its type. -/
structure Field where
  margin : Text
  name : Text
  gap : Text
  type : Text
  margin_isBlank : ∀ c ∈ margin, Text.isBlank c = true := by
    exact List.all_eq_true.mp rfl
  name_ne_nil : name ≠ [] := by decide
  name_isWord : ∀ c ∈ name, Text.isWord c = true := by
    exact List.all_eq_true.mp rfl
  gap_isBlank : ∀ c ∈ gap, Text.isBlank c = true := by
    exact List.all_eq_true.mp rfl
  type_balanced : parenBalance type = 0 := by decide

/-- The line of a field. -/
def Field.line (f : Field) : Text :=
  f.margin ++ (f.name ++ (f.gap ++ ':' :: f.type))

/-- A field with its description, if it has one. -/
structure Member where
  description : Option Description
  field : Field

namespace Member

/-- The lines of the description. -/
def above (m : Member) : List Text :=
  match m.description with
  | none => []
  | some d => d.lines

/-- All lines of a member. -/
def lines (m : Member) : List Text := m.above ++ [m.field.line]

end Member

/-- The lines of some members. -/
def bodyOf (ms : List Member) : List Text := ms.flatMap Member.lines

/-- The lines of the fields, with their indexes. -/
def fieldLines : (index : Nat) → List Member → List (Nat × Text)
  | _, [] => []
  | index, m :: ms =>
      (index + m.above.length, m.field.line)
        :: fieldLines (index + m.lines.length) ms

/-- Whether a description leaves the reading of the lines behind it as it
    was: its parentheses are balanced where they are counted, and what
    stands before its closing mark does not hide that mark. -/
def Description.IsTransparent (d : Description) : Prop :=
  match d.prose with
  | .oneLine text => parenBalance text = 0
  | .several _ _ last => ∀ c ∈ last.dropWhile Text.isBlank, c = '"'

/-- Whether a member has no description that hides what follows. -/
def Member.IsTransparent (m : Member) : Prop :=
  ∀ d ∈ m.description, d.IsTransparent

/-! ## Lines of a description -/

/-- The mark of a description is not empty, so it occurs finitely often. -/
theorem mark_ne_nil : descriptionMark ≠ [] := List.cons_ne_nil _ _

/-- A line toggles if it starts with a mark that is its only one. -/
theorem togglesDescription_iff {stripped : Text} :
    togglesDescription stripped = true
      ↔ ∃ rest, stripped = descriptionMark ++ rest
        ∧ ¬ descriptionMark <:+: rest := by
  rw [togglesDescription, Bool.and_eq_true, List.isPrefixOf_iff_prefix,
    beq_iff_eq]
  constructor
  · rintro ⟨⟨rest, rfl⟩, hcount⟩
    refine ⟨rest, rfl, (Text.occurrences_eq_zero_iff mark_ne_nil).mp ?_⟩
    rw [Text.occurrences_append mark_ne_nil] at hcount
    exact Nat.succ.inj hcount
  · rintro ⟨rest, rfl, hfree⟩
    refine ⟨List.prefix_append _ _, ?_⟩
    rw [Text.occurrences_append mark_ne_nil,
      (Text.occurrences_eq_zero_iff mark_ne_nil).mpr hfree]

/-- A line is trimmed to a text that the mark starts exactly if the mark is
    the first of it that is not blank. -/
theorem mark_prefix_trim_iff {line : Text} :
    descriptionMark <+: Text.trim line
      ↔ descriptionMark <+: line.dropWhile Text.isBlank :=
  Text.prefix_trim_iff (w := ['"', '"']) (c := '"') (by decide)

/-- A description on one line is trimmed to its marks and its text. -/
theorem trim_whole (d : Description) (text : Text) :
    Text.trim (d.whole text) = descriptionMark ++ (text ++ descriptionMark) := by
  have hconcat : descriptionMark ++ (text ++ descriptionMark)
      = descriptionMark ++ text ++ ['"', '"'] ++ ['"'] := by
    simp [descriptionMark]
  rw [Description.whole, Text.trim_around d.margin_isBlank d.tail_isBlank,
    hconcat, Text.trim_concat rfl (by decide)]

/-- The line of a description on one line does not toggle: the closing mark
    stands on it too. -/
theorem togglesDescription_whole (d : Description) (text : Text) :
    togglesDescription (Text.trim (d.whole text)) = false := by
  rw [trim_whole]
  refine Bool.eq_false_iff.mpr fun htoggles => ?_
  obtain ⟨rest, hrest, hfree⟩ := togglesDescription_iff.mp htoggles
  rw [← List.append_cancel_left hrest] at hfree
  exact hfree (List.suffix_append text descriptionMark).isInfix

/-- The line with the opening mark toggles. -/
theorem togglesDescription_opening (d : Description) {first : Text}
    (hfree : ¬ descriptionMark <:+: first) :
    togglesDescription (Text.trim (d.opening first)) = true := by
  have htrim : Text.trim (d.opening first)
      = descriptionMark ++ Text.dropRight Text.isBlank first := by
    have hnil : ∀ c ∈ ([] : Text), Text.isBlank c = true := fun c hc => nomatch hc
    have haround := Text.trim_around d.margin_isBlank hnil (descriptionMark ++ first)
    rw [List.append_nil] at haround
    rw [Description.opening, haround]
    exact Text.dropRight_append_concat (p := Text.isBlank) (c := '"')
      (by decide) ['"', '"'] first
  refine togglesDescription_iff.mpr ⟨_, htrim, fun hinner => hfree ?_⟩
  exact hinner.trans (Text.dropRight_prefix_self Text.isBlank first).isInfix

/-- A line of the text itself does not toggle. -/
theorem togglesDescription_middle {text : Text}
    (hfree : ¬ descriptionMark <:+: text) :
    togglesDescription (Text.trim text) = false := by
  refine Bool.eq_false_iff.mpr fun htoggles => hfree ?_
  obtain ⟨rest, hrest, _⟩ := togglesDescription_iff.mp htoggles
  have hprefix := mark_prefix_trim_iff.mp ⟨rest, hrest.symm⟩
  exact hprefix.isInfix.trans (List.dropWhile_suffix Text.isBlank).isInfix

/-- What stands before the closing mark keeps its own start when the line
    is trimmed. -/
theorem trim_closing (d : Description) (last : Text) :
    Text.trim (d.closing last)
      = last.dropWhile Text.isBlank ++ descriptionMark := by
  have hmargin : ∀ c ∈ last.takeWhile Text.isBlank, Text.isBlank c = true :=
    fun c hc => List.mem_takeWhile_imp hc
  have haround := Text.trim_around hmargin d.tail_isBlank
    (last.dropWhile Text.isBlank ++ descriptionMark)
  rw [List.append_assoc, ← List.append_assoc, List.takeWhile_append_dropWhile]
    at haround
  have hconcat : last.dropWhile Text.isBlank ++ descriptionMark
      = last.dropWhile Text.isBlank ++ ['"', '"'] ++ ['"'] :=
    (List.append_assoc _ ['"', '"'] ['"']).symm
  rw [Description.closing, haround, hconcat]
  refine Text.trim_concat ?_ (by decide)
  have hhead := List.head?_dropWhile_not Text.isBlank last
  cases hlast : last.dropWhile Text.isBlank with
  | nil => rfl
  | cons c w =>
      rw [hlast] at hhead
      exact List.dropWhile_cons_of_neg (Bool.eq_false_iff.mp hhead)

/-- The line with the closing mark toggles if it has only quotes before. -/
theorem togglesDescription_closing_iff (d : Description) {last : Text}
    (hfree : ¬ descriptionMark <:+: last) :
    togglesDescription (Text.trim (d.closing last)) = true
      ↔ ∀ c ∈ last.dropWhile Text.isBlank, c = '"' := by
  rw [trim_closing]
  have hfree' : ¬ descriptionMark <:+: last.dropWhile Text.isBlank :=
    fun hinner => hfree (hinner.trans
      (List.dropWhile_suffix Text.isBlank).isInfix)
  generalize last.dropWhile Text.isBlank = w at hfree' ⊢
  constructor
  · intro htoggles
    obtain ⟨rest, hrest, _⟩ := togglesDescription_iff.mp htoggles
    -- the mark in front is longer than what stands before the closing one
    rcases List.prefix_or_prefix_of_prefix (⟨rest, hrest.symm⟩ :
        descriptionMark <+: w ++ descriptionMark)
        (List.prefix_append w descriptionMark) with hmark | hshort
    · exact absurd hmark.isInfix hfree'
    · intro c hc
      have hquote : ∀ c ∈ descriptionMark, c = '"' := by
        simp [descriptionMark]
      exact hquote c (hshort.subset hc)
  · intro hquotes
    match w with
    | [] => decide
    | [c] =>
        rw [hquotes c List.mem_cons_self]
        decide
    | [c, d] =>
        rw [hquotes c List.mem_cons_self, hquotes d (by simp)]
        decide
    | c :: d :: e :: rest =>
        refine absurd (List.IsPrefix.isInfix ⟨rest, ?_⟩) hfree'
        rw [hquotes c List.mem_cons_self, hquotes d (by simp),
          hquotes e (by simp)]
        rfl

/-! ## Parentheses of a line -/

/-- Parentheses are counted stretch by stretch. -/
theorem parenBalance_append (v w : Text) :
    parenBalance (v ++ w) = parenBalance v + parenBalance w := by
  rw [parenBalance, parenBalance, parenBalance, List.count_append,
    List.count_append]
  omega

/-- A class without parentheses leaves none open. -/
theorem parenBalance_of_class {p : Char → Bool} {w : Text}
    (h : ∀ c ∈ w, p c = true) (hopen : p '(' = false) (hclose : p ')' = false) :
    parenBalance w = 0 := by
  have hcount : ∀ c, p c = false → w.count c = 0 := fun c hc =>
    List.count_eq_zero.mpr fun hmem => Bool.false_ne_true (hc.symm.trans (h c hmem))
  rw [parenBalance, hcount '(' hopen, hcount ')' hclose]
  rfl

/-- The parentheses of a description on one line are those of its text. -/
theorem parenBalance_whole (d : Description) (text : Text) :
    parenBalance (d.whole text) = parenBalance text := by
  have hmargin := parenBalance_of_class d.margin_isBlank (by decide) (by decide)
  have htail := parenBalance_of_class d.tail_isBlank (by decide) (by decide)
  have hmark : parenBalance descriptionMark = 0 := by decide
  simp only [Description.whole, parenBalance_append, hmargin, htail, hmark]
  omega

/-! ## Lines of fields -/

namespace Field

/-- The parentheses of a field are balanced on its line. -/
theorem parenBalance_line (f : Field) : parenBalance f.line = 0 := by
  have hmargin := parenBalance_of_class f.margin_isBlank (by decide) (by decide)
  have hname := parenBalance_of_class f.name_isWord (by decide) (by decide)
  have hgap := parenBalance_of_class f.gap_isBlank (by decide) (by decide)
  have htype : parenBalance (':' :: f.type) = 0 :=
    (parenBalance_append [':'] f.type).trans
      ((Int.zero_add _).trans f.type_balanced)
  rw [line, parenBalance_append, parenBalance_append, parenBalance_append,
    hmargin, hname, hgap, htype]
  rfl

/-- A field starts with a character of its name when it is trimmed. -/
theorem trim_line (f : Field) :
    ∃ c rest, Text.trim f.line = c :: rest ∧ Text.isWord c = true := by
  obtain ⟨c, others, hname⟩ := List.exists_cons_of_ne_nil f.name_ne_nil
  have hword : Text.isWord c = true :=
    f.name_isWord c (hname ▸ List.mem_cons_self)
  have hblank : Text.isBlank c = false := Bool.eq_false_iff.mpr fun h =>
    Bool.false_ne_true ((Text.isWord_of_isBlank h).symm.trans hword)
  have hprefix : [c] <+: Text.trim f.line := by
    refine (Text.prefix_trim_iff (w := []) hblank).mpr ?_
    rw [line, List.dropWhile_append_of_pos f.margin_isBlank, hname]
    refine ⟨others ++ (f.gap ++ ':' :: f.type), ?_⟩
    exact (List.dropWhile_cons_of_neg (Bool.eq_false_iff.mp hblank)).symm
  obtain ⟨rest, hrest⟩ := hprefix
  exact ⟨c, rest, hrest.symm, hword⟩

/-- The line of a field opens and closes no description. -/
theorem togglesDescription_line (f : Field) :
    togglesDescription (Text.trim f.line) = false := by
  obtain ⟨c, rest, htrim, hword⟩ := f.trim_line
  refine Bool.eq_false_iff.mpr fun htoggles => ?_
  obtain ⟨more, hmore, _⟩ := togglesDescription_iff.mp htoggles
  rw [htrim] at hmore
  obtain ⟨rfl, _⟩ := List.cons.inj hmore
  exact absurd hword (by decide)

/-- The line of a field is passed over only within something that is
    open. -/
theorem passesOver_line (f : Field) (r : Reading) :
    r.passesOver f.line = r.inside := by
  obtain ⟨c, rest, htrim, hword⟩ := f.trim_line
  have hcomment : c ≠ '#' := by
    rintro rfl
    exact absurd hword (by decide)
  simp [Reading.passesOver, htrim, hcomment]

/-- The name of a field is where the pattern looks for it. -/
theorem startsIn_line (f : Field) : schemaField.startsIn f.line = true := by
  let s := Cursor.atStart f.line
  have hmargin : blanks.Takes f.margin (f.name ++ (f.gap ++ ':' :: f.type)) := by
    refine takes_many_one f.margin_isBlank ?_
    obtain ⟨c, others, hname⟩ := List.exists_cons_of_ne_nil f.name_ne_nil
    rw [hname]
    have hword := f.name_isWord c (hname ▸ List.mem_cons_self)
    exact Bool.eq_false_iff.mpr fun h =>
      Bool.false_ne_true ((Text.isWord_of_isBlank h).symm.trans hword)
  have hname : (many1 wordChar).Takes f.name (f.gap ++ ':' :: f.type) := by
    refine takes_many1_one f.name_ne_nil f.name_isWord ?_
    cases hgap : f.gap with
    | nil => exact (by decide : Text.isWord ':' = false)
    | cons c gap =>
        exact Text.isWord_of_isBlank
          (f.gap_isBlank c (hgap ▸ List.mem_cons_self))
  have hgap : blanks.Takes f.gap (':' :: f.type) :=
    takes_many_one f.gap_isBlank (by decide : Text.isBlank ':' = false)
  have hcolon : (oneOf "(:").Takes [':'] f.type := takes_one (by decide) _
  have hbehind : (s.pass f.margin).rest = f.name ++ (f.gap ++ ':' :: f.type) :=
    rest_pass rfl
  have hfirst : ∃ t, (schemaField.results s).head? = some t := by
    refine ⟨_, head?_results_seq (head?_results_seq (head?_results_seq
      (head?_results_seq (head?_results_edge (e := .textStart) (s := s) rfl)
        (hmargin s rfl))
      (hname.head?_group hbehind 1))
      (hgap _ (rest_pass hbehind))) (hcolon _ (rest_pass (rest_pass hbehind)))⟩
  obtain ⟨t, ht⟩ := hfirst
  exact startsIn_iff.mpr (List.ne_nil_of_mem (List.mem_of_mem_head? ht))

end Field

namespace Reading

/-- A field is taken exactly if nothing is open. -/
theorem takes_field_iff (r : Reading) (f : Field) :
    r.takes schemaField f.line = true ↔ r = .start := by
  rw [takes, f.togglesDescription_line, f.passesOver_line, f.startsIn_line]
  constructor
  · intro h
    obtain ⟨parens, inside⟩ := r
    simpa [start, and_comm] using h
  · rintro rfl
    rfl

/-- A field leaves open what was open before. -/
theorem step_field (r : Reading) (f : Field) : r.step f.line = r := by
  rw [step, f.togglesDescription_line, f.passesOver_line, f.parenBalance_line,
    if_neg Bool.false_ne_true, Int.add_zero]
  exact ite_self r

end Reading

/-- What the pattern of fields starts in has a word behind its margin. -/
theorem isWord_of_startsIn {line : Text} (h : schemaField.startsIn line = true) :
    ∃ c rest, line.dropWhile Text.isBlank = c :: rest ∧ Text.isWord c = true := by
  obtain ⟨t, ht⟩ := List.exists_mem_of_ne_nil _ (startsIn_iff.mp h)
  obtain ⟨u, hu, _⟩ := mem_results_seq.mp ht
  obtain ⟨v, hv, _⟩ := mem_results_seq.mp hu
  obtain ⟨x, hx, hname⟩ := mem_results_seq.mp hv
  obtain ⟨y, hy, hmargin⟩ := mem_results_seq.mp hx
  obtain ⟨_, rfl⟩ := mem_results_edge.mp hy
  obtain ⟨margin, hblank, hbefore, rfl⟩ := (reads_many Text.isBlank _ x).mp hmargin
  obtain ⟨name, ⟨hne, hword⟩, hbehind, _⟩ :=
    (reads_many1 Text.isWord).mem_results_group.mp hname
  obtain ⟨c, others, rfl⟩ := List.exists_cons_of_ne_nil hne
  obtain ⟨more, hmore⟩ := append_prefix_iff.mpr ⟨hbefore, hbehind⟩
  have hc : Text.isWord c = true := hword c List.mem_cons_self
  refine ⟨c, others ++ more, ?_, hc⟩
  have hline : line = margin ++ (c :: others ++ more) :=
    hmore.symm.trans (List.append_assoc _ _ _)
  rw [hline, List.dropWhile_append_of_pos hblank]
  refine List.dropWhile_cons_of_neg fun hblank => ?_
  exact Bool.false_ne_true ((Text.isWord_of_isBlank hblank).symm.trans hc)

/-- The line of a description on one line is no field. -/
theorem not_startsIn_whole (d : Description) (text : Text) :
    schemaField.startsIn (d.whole text) = false := by
  refine Bool.eq_false_iff.mpr fun hstarts => ?_
  obtain ⟨c, rest, hrest, hword⟩ := isWord_of_startsIn hstarts
  rw [Description.whole, List.dropWhile_append_of_pos d.margin_isBlank] at hrest
  obtain ⟨rfl, _⟩ := List.cons.inj hrest
  exact absurd hword (by decide)

/-! ## What a description leaves -/

namespace Reading

/-- A line that toggles is no member. -/
theorem step_of_toggles {line : Text}
    (h : togglesDescription (Text.trim line) = true) (r : Reading) :
    r.step line = ⟨r.parens, !r.inside⟩
      ∧ ∀ pattern, r.takes pattern line = false := by
  rw [step, if_pos h]
  refine ⟨rfl, fun pattern => ?_⟩
  rw [takes, h]
  rfl

/-- Within a description a line that does not toggle changes nothing. -/
theorem step_inside {line : Text}
    (h : togglesDescription (Text.trim line) = false) (parens : Int) :
    (mk parens true).step line = ⟨parens, true⟩
      ∧ ∀ pattern, (mk parens true).takes pattern line = false := by
  rw [step, if_neg (Bool.eq_false_iff.mp h)]
  refine ⟨rfl, fun pattern => ?_⟩
  rw [takes, h]
  rfl

/-- The lines of a description within it are passed over. -/
theorem inside_run {texts : List Text}
    (hfree : ∀ text ∈ texts, ¬ descriptionMark <:+: text) (parens : Int)
    (pattern : Pattern) :
    (mk parens true).after texts = ⟨parens, true⟩
      ∧ ∀ index, (mk parens true).members pattern index texts = [] := by
  induction texts with
  | nil => exact ⟨rfl, fun _ => rfl⟩
  | cons text texts ih =>
      obtain ⟨htext, hfree⟩ := List.forall_mem_cons.mp hfree
      obtain ⟨hafter, hmembers⟩ := ih hfree
      obtain ⟨hstep, htakes⟩ :=
        step_inside (togglesDescription_middle htext) parens
      constructor
      · rw [after, List.foldl_cons, hstep]
        exact hafter
      · intro index
        rw [members_cons, hstep, htakes, hmembers]
        rfl

/-- Lines are followed one stretch after the other. -/
theorem after_append (r : Reading) (front back : List Text) :
    r.after (front ++ back) = (r.after front).after back :=
  List.foldl_append

end Reading

namespace Description

/-- What is open behind a description: the parentheses of its one line, or
    the description itself if its end was missed. -/
def leaves (d : Description) : Reading :=
  match d.prose with
  | .oneLine text => ⟨parenBalance text, false⟩
  | .several _ _ last => ⟨0, !(last.dropWhile Text.isBlank).all (· == '"')⟩

/-- A description leaves nothing open exactly if it is transparent. -/
theorem leaves_eq_start_iff (d : Description) :
    d.leaves = .start ↔ d.IsTransparent := by
  rw [leaves, IsTransparent, Reading.start]
  cases d.prose with
  | oneLine text => simp
  | several first middle last => simp

/-- The last of several lines closes the description if the mark on it is
    seen. -/
theorem step_closing (d : Description) {last : Text}
    (hfree : ¬ descriptionMark <:+: last) (parens : Int) :
    (Reading.mk parens true).step (d.closing last)
        = ⟨parens, !(last.dropWhile Text.isBlank).all (· == '"')⟩
      ∧ ∀ pattern,
        (Reading.mk parens true).takes pattern (d.closing last) = false := by
  have hiff : togglesDescription (Text.trim (d.closing last))
      = (last.dropWhile Text.isBlank).all (· == '"') := by
    rw [Bool.eq_iff_iff, togglesDescription_closing_iff d hfree]
    simp
  rw [← hiff]
  cases htoggles : togglesDescription (Text.trim (d.closing last)) with
  | true => exact Reading.step_of_toggles htoggles _
  | false => exact Reading.step_inside htoggles parens

/-- **DESCRIPTIONS**: none of their lines is a member, and behind them is
    open what they leave open. -/
theorem read (d : Description) (index : Nat) :
    Reading.start.after d.lines = d.leaves
      ∧ Reading.start.members schemaField index d.lines = [] := by
  have hprose := d.prose_free
  rw [lines, leaves]
  cases htext : d.prose with
  | oneLine text =>
      -- a line with both marks does not toggle; its parentheses are counted
      -- instead
      have hpasses : Reading.start.passesOver (d.whole text) = false := by
        rw [Reading.passesOver, trim_whole]
        rfl
      constructor
      · show Reading.start.step _ = _
        rw [Reading.step, togglesDescription_whole, hpasses,
          parenBalance_whole, if_neg Bool.false_ne_true,
          if_neg Bool.false_ne_true]
        exact congrArg (Reading.mk · false) (Int.zero_add _)
      · rw [Reading.members_cons, Reading.takes, not_startsIn_whole,
          Bool.and_false, Bool.and_false]
        rfl
  | several first middle last =>
      -- the opening line toggles, the middle is passed over, and the last
      -- line closes only if its mark is seen
      rw [htext] at hprose
      obtain ⟨hfirst, hrest⟩ := List.forall_mem_cons.mp hprose
      obtain ⟨hmiddle, hlast⟩ := List.forall_mem_append.mp hrest
      obtain ⟨hopen, hnone⟩ : Reading.start.step _ = ⟨0, true⟩ ∧ _ :=
        Reading.step_of_toggles (togglesDescription_opening d hfirst) .start
      obtain ⟨hafter, hmembers⟩ := Reading.inside_run hmiddle 0 schemaField
      obtain ⟨hclose, hnone'⟩ :=
        d.step_closing (hlast last (List.mem_singleton_self _)) 0
      constructor
      · rw [Reading.after, List.foldl_cons, hopen]
        refine (Reading.after_append _ middle _).trans ?_
        rw [hafter]
        exact hclose
      · rw [Reading.members_cons, hnone, hopen, Reading.members_append,
          hmembers, hafter, Reading.members_cons, hnone']
        rfl

end Description

/-! ## Bodies of described fields -/

namespace Member

/-- What is open behind a member. -/
def leaves (m : Member) : Reading :=
  match m.description with
  | none => .start
  | some d => d.leaves

/-- A member leaves nothing open exactly if its description, where it has
    one, does not. -/
theorem leaves_eq_start_iff (m : Member) :
    m.leaves = .start ↔ m.IsTransparent := by
  rw [leaves, IsTransparent]
  cases m.description with
  | none => simp
  | some d => simpa using d.leaves_eq_start_iff

instance (m : Member) : Decidable m.IsTransparent :=
  decidable_of_iff _ m.leaves_eq_start_iff

/-- The lines of a description hold no member, whatever they leave open. -/
theorem read_above (m : Member) (index : Nat) :
    Reading.start.after m.above = m.leaves
      ∧ Reading.start.members schemaField index m.above = [] := by
  rw [above, leaves]
  cases m.description with
  | none => exact ⟨rfl, rfl⟩
  | some d => exact d.read index

/-- A field changes nothing that is open behind its description. -/
theorem after_lines (m : Member) :
    Reading.start.after m.lines = m.leaves := by
  rw [lines, Reading.after_append, (m.read_above 0).1]
  exact m.leaves.step_field m.field

/-- **ONE MEMBER**: the others are read behind it, and its field is taken
    exactly if its description leaves nothing open. -/
theorem members_append (m : Member) (index : Nat) (rest : List Text) :
    Reading.start.members schemaField index (m.lines ++ rest)
      = (if m.leaves = .start then [(index + m.above.length, m.field.line)]
          else [])
        ++ m.leaves.members schemaField (index + m.lines.length) rest := by
  have htakes : (m.leaves.takes schemaField m.field.line = true)
      = (m.leaves = .start) := propext (m.leaves.takes_field_iff m.field)
  rw [Reading.members_append, after_lines]
  congr 1
  rw [lines, Reading.members_append, (m.read_above index).2,
    (m.read_above index).1, Reading.members_cons]
  simp only [htakes, List.nil_append]
  exact List.append_nil _

end Member

/-- The fields are the members exactly if no description leaves anything
    open. -/
theorem members_bodyOf_iff (ms : List Member) :
    ∀ index, Reading.start.members schemaField index (bodyOf ms)
        = fieldLines index ms ↔ ∀ m ∈ ms, m.IsTransparent := by
  induction ms with
  | nil => intro index; exact iff_of_true rfl fun m hm => nomatch hm
  | cons m ms ih =>
      intro index
      rw [bodyOf, List.flatMap_cons, m.members_append, fieldLines,
        List.forall_mem_cons, ← m.leaves_eq_start_iff]
      by_cases hopen : m.leaves = .start
      · rw [hopen, if_pos rfl, List.singleton_append, List.cons.injEq,
          and_iff_right rfl, and_iff_right rfl]
        exact ih _
      · -- the first field is missed, and what is found stands behind it
        rw [if_neg hopen, List.nil_append]
        refine iff_of_false (fun hmembers => ?_) fun h => hopen h.1
        have hle := (Reading.bounds_of_mem_members
          (hmembers ▸ List.mem_cons_self : (index + m.above.length, m.field.line)
            ∈ m.leaves.members schemaField (index + m.lines.length) _)).1
        rw [Member.lines, List.length_append, List.length_singleton] at hle
        omega

/-- Nothing is open behind every member exactly if no description leaves
    anything open. -/
theorem after_bodyOf_iff (ms : List Member) :
    (∀ front, front <+: ms → Reading.start.after (bodyOf front) = .start)
      ↔ ∀ m ∈ ms, m.IsTransparent := by
  induction ms with
  | nil =>
      refine iff_of_true (fun front hfront => ?_) fun m hm => nomatch hm
      rw [List.prefix_nil.mp hfront]
      rfl
  | cons m ms ih =>
      -- the first member leaves what its description does
      have hcons : ∀ front, Reading.start.after (bodyOf (m :: front))
          = m.leaves.after (bodyOf front) := by
        intro front
        rw [bodyOf, List.flatMap_cons, Reading.after_append, m.after_lines]
        rfl
      rw [List.forall_mem_cons, ← ih, ← m.leaves_eq_start_iff]
      constructor
      · -- one member in front shows that it leaves nothing; then each longer
        -- front is one of the rest
        intro h
        have hfirst : m.leaves = .start :=
          (hcons []).symm.trans (h [m] ⟨ms, rfl⟩)
        refine ⟨hfirst, fun front hfront => ?_⟩
        have hfront := h (m :: front) ((List.prefix_cons_inj m).mpr hfront)
        rwa [hcons, hfirst] at hfront
      · rintro ⟨hfirst, hrest⟩ front hfront
        cases front with
        | nil => rfl
        | cons m' front =>
            obtain ⟨rfl, hbehind⟩ := List.cons_prefix_cons.mp hfront
            rw [hcons, hfirst]
            exact hrest front hbehind

/-- **DESCRIBED FIELDS**: the members of a body of described fields are its
    field lines exactly if every description has balanced parentheses where
    it stands on one line, and nothing but quotes before its closing mark
    where it stands on several.  In the same case, and no other, nothing is
    open behind any member. -/
theorem members_eq_fieldLines_iff {d : Definition} {ms : List Member}
    (hkind : d.kind ≠ "enum") (hbody : d.body = bodyOf ms) :
    (d.members = fieldLines 0 ms ↔ ∀ m ∈ ms, m.IsTransparent)
      ∧ ((∀ front, front <+: ms →
            Reading.start.after (bodyOf front) = .start)
          ↔ ∀ m ∈ ms, m.IsTransparent) := by
  have hpattern : memberPattern d.kind = schemaField := by
    rw [memberPattern, if_neg]
    exact fun h => hkind (beq_iff_eq.mp h)
  refine ⟨?_, after_bodyOf_iff ms⟩
  rw [Definition.members, hpattern, hbody]
  exact members_bodyOf_iff ms 0

/-- A field, with the description above it if there is one. -/
def pageField : Field where
  margin := "  ".toList
  name := "products".toList
  gap := []
  type := " [Product]".toList

/-- A text in which the mark occurs no time does not hold it. -/
theorem free_of_occurrences {texts : List Text}
    (h : ∀ text ∈ texts, Text.occurrences descriptionMark text = 0) :
    ∀ text ∈ texts, ¬ descriptionMark <:+: text :=
  fun text htext => (Text.occurrences_eq_zero_iff mark_ne_nil).mp (h text htext)

/-- Members whose descriptions are read as such. -/
def pageMembers : List Member :=
  [{ description := some
      { margin := "  ".toList
        prose := .oneLine "One page (of many): \"sorted\"".toList
        tail := []
        prose_free := free_of_occurrences (by decide) }
     field := pageField },
   { description := some
      { margin := "\t".toList
        prose := .several "All orders".toList ["  (open: or closed".toList]
          "  \"".toList
        tail := " ".toList
        prose_free := free_of_occurrences (by decide) }
     field :=
      { margin := "  ".toList
        name := "orders".toList
        gap := " ".toList
        type := " [Order!]! @cost(size: 9)".toList } },
   { description := none, field := pageField }]

/-- The fields of a page are found below a description on one line, below
    one on several lines, and without any. -/
theorem members_page :
    let page : Definition := ⟨"type", "Query", 1,
      ["  \"\"\"One page (of many): \"sorted\"\"\"\"", "  products: [Product]",
        "\t\"\"\"All orders", "  (open: or closed", "  \"\"\"\" ",
        "  orders : [Order!]! @cost(size: 9)", "  products: [Product]"].map
          String.toList⟩
    page.members.map Prod.fst = [1, 5, 6]
      ∧ Reading.start.after page.body = .start := by
  intro page
  have htransparent : ∀ m ∈ pageMembers, m.IsTransparent := by decide
  have hbody : page.body = bodyOf pageMembers := by decide
  obtain ⟨hmembers, hafter⟩ := members_eq_fieldLines_iff
    (show page.kind ≠ "enum" by decide) hbody
  refine ⟨?_, hbody ▸ hafter.mpr htransparent pageMembers List.prefix_rfl⟩
  rw [hmembers.mpr htransparent]
  decide

/-- A field behind a description that ends beside its closing mark. -/
def endedBeside : Member where
  description := some
    { margin := "  ".toList
      prose := .several [] [] "  All products. ".toList
      tail := []
      prose_free := free_of_occurrences (by decide) }
  field := pageField

/-- A field behind a description that opens a parenthesis. -/
def leftOpen : Member where
  description := some
    { margin := "  ".toList
      prose := .oneLine "The first page (of many".toList
      tail := []
      prose_free := free_of_occurrences (by decide) }
  field := pageField

/-- Either description hides the list behind it. -/
theorem members_hidden :
    (["  \"\"\"", "  All products. \"\"\"", "  products: [Product]"].map
        String.toList = bodyOf [endedBeside]
      ∧ (Definition.mk "type" "Query" 1 (bodyOf [endedBeside])).members = []
      ∧ fieldLines 0 [endedBeside] = [(2, "  products: [Product]".toList)])
    ∧ (["  \"\"\"The first page (of many\"\"\"", "  products: [Product]"].map
        String.toList = bodyOf [leftOpen]
      ∧ (Definition.mk "type" "Query" 1 (bodyOf [leftOpen])).members = []
      ∧ fieldLines 0 [leftOpen] = [(1, "  products: [Product]".toList)]) := by
  decide +kernel

end CodeReview.Detector
