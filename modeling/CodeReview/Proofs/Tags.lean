import CodeReview.Detector.Markup
import CodeReview.Proofs.FirstMatches
import CodeReview.Proofs.LineNumbers

/-! # Tags of well-formed markup

    A document of plain stretches and tags is read back as it was written:
    the names, the attributes and the lines of its tags, in order
    (`tags_eq_writtenTags`).  A part of the attributes is recognized by its
    first character, so the pattern has no choice within a tag
    (`takes_attributePart`), and `'<'` before anything but a letter starts
    no tag (`refuses_tagPattern`).  The theorem is an induction over the
    tags, with the text before each of them kept general. -/

namespace CodeReview.Detector

open Pattern

/-! ## Written markup -/

/-- Whether a character goes on with the name of a tag. -/
def isTagChar (c : Char) : Bool :=
  Text.isWord c || c == '.' || c == ':' || c == '-'

/-- A part of a group in braces: any other character, or a group without
    further braces. -/
inductive IsBracePart : Text → Prop
  | plain {c : Char} (h : c ∉ ['{', '}']) : IsBracePart [c]
  | group {w : Text} (hopen : '{' ∉ w) (hclose : '}' ∉ w) :
      IsBracePart ('{' :: (w ++ ['}']))

/-- A part of the attributes of a tag. -/
inductive IsAttributePart : Text → Prop
  | doubleQuoted {w : Text} (h : '"' ∉ w) : IsAttributePart ('"' :: (w ++ ['"']))
  | singleQuoted {w : Text} (h : '\'' ∉ w) :
      IsAttributePart ('\'' :: (w ++ ['\'']))
  | braced {parts : List Text} (h : ∀ part ∈ parts, IsBracePart part) :
      IsAttributePart ('{' :: (parts.flatten ++ ['}']))
  | plain {c : Char} (h : c ∉ ['<', '>', '"', '\'', '{', '}']) :
      IsAttributePart [c]

/-- Whether a text starts no tag: `'<'` is never directly followed by a
    letter. -/
def IsPlain (text : Text) : Prop :=
  ∀ c, ['<', c] <:+: text → c.isAlpha = false

/-- A text starts no tag if it does not do so at its first character, and
    not behind it. -/
theorem isPlain_cons {d : Char} {text : Text} :
    IsPlain (d :: text)
      ↔ (d = '<' → text.head?.any Char.isAlpha = false) ∧ IsPlain text := by
  constructor
  · intro h
    refine ⟨?_, fun c hc => h c (hc.trans (List.suffix_cons d text).isInfix)⟩
    rintro rfl
    cases text with
    | nil => rfl
    | cons c text => exact h c ⟨[], text, rfl⟩
  · rintro ⟨hfirst, htext⟩ c hc
    rcases List.infix_cons_iff.mp hc with hprefix | hinfix
    · obtain ⟨rfl, hnext⟩ := List.cons_prefix_cons.mp hprefix
      obtain ⟨rest, rfl⟩ := hnext
      exact hfirst rfl
    · exact htext c hinfix

instance decidableIsPlain : (text : Text) → Decidable (IsPlain text)
  | [] => isTrue fun c hc =>
      absurd (List.infix_nil.mp hc) (List.cons_ne_nil '<' [c])
  | _ :: text =>
      have := decidableIsPlain text
      decidable_of_iff _ isPlain_cons.symm

/-- A tag with the plain text behind it. -/
structure WrittenTag where
  initial : Char
  others : Text
  parts : List Text
  after : Text
  initial_isAlpha : initial.isAlpha = true
  others_isTagChar : ∀ c ∈ others, isTagChar c = true
  parts_isAttributePart : ∀ part ∈ parts, IsAttributePart part
  parts_delimit : parts.flatten.head?.any isTagChar = false
  after_isPlain : IsPlain after

namespace WrittenTag

/-- The name of the tag. -/
def name (tag : WrittenTag) : Text := tag.initial :: tag.others

/-- The text of its attributes. -/
def attrs (tag : WrittenTag) : Text := tag.parts.flatten

/-- The tag itself. -/
def text (tag : WrittenTag) : Text := '<' :: (tag.name ++ tag.attrs ++ ['>'])

/-- The tag of a document behind a text. -/
def behind (tag : WrittenTag) (before : Text) : Tag where
  name := String.ofList tag.name
  attrs := tag.attrs
  line := before.count '\n' + 1
  attrsOffset := before.length + 1 + tag.name.length

end WrittenTag

/-- The text of some tags and of what is behind each of them. -/
def markup : List WrittenTag → Text
  | [] => []
  | tag :: tags => tag.text ++ (tag.after ++ markup tags)

/-- The tags of a document, with what they are behind of. -/
def writtenTags : (before : Text) → List WrittenTag → List Tag
  | _, [] => []
  | before, tag :: tags =>
      tag.behind before :: writtenTags (before ++ tag.text ++ tag.after) tags

/-! ## Attributes -/

/-- A repetition between two characters takes what it takes, with the
    characters around it. -/
theorem takes_enclosed {first last : Char} {p : Pattern} {w rest : Text}
    (h : (many p).Takes w (last :: rest)) :
    (char first ++ many p ++ char last).Takes (first :: (w ++ [last])) rest :=
  Takes.seq (v := first :: w)
    (Takes.seq (v := [first]) (takes_char first _) h) (takes_char last rest)

/-- Characters outside a set are taken up to the first one inside. -/
theorem takes_many_noneOf {cs : String} {w rest : Text}
    (hw : ∀ c ∈ w, c ∉ cs.toList) {last : Char} (hlast : last ∈ cs.toList) :
    (many (noneOf cs)).Takes w (last :: rest) := by
  refine takes_many_one (fun c hc => ?_) ?_
  · simpa using hw c hc
  · simpa using hlast

/-- A quoted string holds anything but its quote. -/
theorem takes_quoted {quote : Char} {cs : String} (hcs : cs.toList = [quote])
    {w : Text} (hw : quote ∉ w) (rest : Text) :
    (char quote ++ many (noneOf cs) ++ char quote).Takes
      (quote :: (w ++ [quote])) rest := by
  refine takes_enclosed (takes_many_noneOf (fun c hc => ?_) ?_)
  · rw [hcs]
    rintro hquote
    rw [List.mem_singleton.mp hquote] at hc
    exact hw hc
  · rw [hcs]
    exact List.mem_singleton_self quote

/-- A character outside a set refuses one inside. -/
theorem refuses_noneOf {cs : String} {c : Char} (h : c ∈ cs.toList)
    (text : Text) : (noneOf cs).Refuses (c :: text) :=
  refuses_one (by simpa using h)

/-- A character outside a set takes itself. -/
theorem takes_noneOf {cs : String} {c : Char} (h : c ∉ cs.toList)
    (rest : Text) : (noneOf cs).Takes [c] rest :=
  takes_one (by simpa using h) rest

/-- A part of a group in braces is taken whole, since its first character
    decides which part it is. -/
theorem takes_bracePart {w : Text} (h : IsBracePart w) (rest : Text) :
    (noneOf "\x7b\x7d"
      ||| char '{' ++ many (noneOf "\x7b\x7d") ++ char '}').Takes w rest := by
  cases h with
  | plain h => exact Takes.alt_left (takes_noneOf h rest) _
  | group hopen hclose =>
      refine Takes.alt_right (refuses_noneOf (by decide) _) ?_
      refine takes_enclosed (takes_many_noneOf (fun c hc => ?_) (by decide))
      rintro hbrace
      rcases List.mem_pair.mp hbrace with rfl | rfl
      · exact hopen hc
      · exact hclose hc

/-- A part of a group in braces is not empty, so repeating it comes to an
    end. -/
theorem IsBracePart.ne_nil {w : Text} (h : IsBracePart w) : w ≠ [] := by
  cases h <;> exact List.cons_ne_nil _ _

/-- A group in braces is taken up to its own closing brace. -/
theorem takes_braceGroup {parts : List Text}
    (h : ∀ part ∈ parts, IsBracePart part) (rest : Text) :
    braceGroup.Takes ('{' :: (parts.flatten ++ ['}'])) rest := by
  refine takes_enclosed (takes_many_flatten ?_ ?_)
  · intro part hpart
    exact ⟨(h part hpart).ne_nil, takes_bracePart (h part hpart)⟩
  · refine (refuses_noneOf (by decide) rest).alt ?_
    exact ((refuses_char (by decide) rest).seq _).seq _

/-- What starts with another character is not enclosed. -/
theorem refuses_enclosed {first last c : Char} (h : c ≠ first) (p : Pattern)
    (text : Text) :
    (char first ++ many p ++ char last).Refuses (c :: text) :=
  ((refuses_char h text).seq _).seq _

/-- **NO CHOICE**: whatever is behind a part of the attributes, the pattern
    passes that part first. -/
theorem takes_attributePart {w : Text} (h : IsAttributePart w) (rest : Text) :
    attributePart.Takes w rest := by
  -- the first character of a part makes all but one side of the alternative
  -- refuse
  cases h with
  | doubleQuoted h =>
      exact Takes.alt_left (Takes.alt_left
        (Takes.alt_left (takes_quoted rfl h rest) _) _) _
  | singleQuoted h =>
      refine Takes.alt_left (Takes.alt_left
        (Takes.alt_right ?_ (takes_quoted rfl h rest)) _) _
      exact refuses_enclosed (by decide) _ _
  | braced h =>
      refine Takes.alt_left (Takes.alt_right ?_ (takes_braceGroup h rest)) _
      exact (refuses_enclosed (by decide) _ _).alt
        (refuses_enclosed (by decide) _ _)
  | plain h =>
      rename_i c
      have hne : ∀ d ∈ ['<', '>', '"', '\'', '{', '}'], c ≠ d := by
        rintro d hd rfl
        exact h hd
      refine Takes.alt_right (Refuses.alt (Refuses.alt ?_ ?_) ?_)
        (takes_noneOf h rest)
      · exact refuses_enclosed (hne _ (by decide)) _ _
      · exact refuses_enclosed (hne _ (by decide)) _ _
      · exact refuses_enclosed (hne _ (by decide)) _ _

/-- A part of the attributes is not empty, so repeating it comes to an
    end. -/
theorem IsAttributePart.ne_nil {w : Text} (h : IsAttributePart w) :
    w ≠ [] := by
  cases h <;> exact List.cons_ne_nil _ _

/-- No part of the attributes starts with the bracket that ends the tag. -/
theorem refuses_attributePart (text : Text) :
    attributePart.Refuses ('>' :: text) := by
  refine Refuses.alt (Refuses.alt (Refuses.alt ?_ ?_) ?_) ?_
  · exact refuses_enclosed (by decide) _ _
  · exact refuses_enclosed (by decide) _ _
  · exact refuses_enclosed (by decide) _ _
  · exact refuses_noneOf (by decide) text

/-! ## Tags -/

/-- The attributes of a tag end where the tag does. -/
theorem WrittenTag.takes_attrs (tag : WrittenTag) (rest : Text) :
    (many attributePart).Takes tag.attrs ('>' :: rest) := by
  refine takes_many_flatten (fun part hpart => ?_) (refuses_attributePart rest)
  have hattribute := tag.parts_isAttributePart part hpart
  exact ⟨hattribute.ne_nil, takes_attributePart hattribute⟩

/-- The name of a tag ends where its attributes start. -/
theorem WrittenTag.takes_name (tag : WrittenTag) (rest : Text) :
    (one Char.isAlpha ++ many (one isTagChar)).Takes tag.name
      (tag.attrs ++ '>' :: rest) := by
  refine Takes.seq (v := [tag.initial]) (takes_one tag.initial_isAlpha _) ?_
  refine takes_many_one tag.others_isTagChar ?_
  have hdelimit := tag.parts_delimit
  rw [WrittenTag.attrs]
  cases hattrs : tag.parts.flatten with
  | nil => exact (by decide : isTagChar '>' = false)
  | cons c attrs => rwa [hattrs] at hdelimit

/-- The first way to match at a tag, with its name and its attributes. -/
theorem WrittenTag.head?_results (tag : WrittenTag) {s : Cursor} {rest : Text}
    (hrest : s.rest = tag.text ++ rest) :
    (tagPattern.results s).head? = some
      { s.pass tag.text with
        captures := (2, ⟨s.offset + 1 + tag.name.length, tag.attrs⟩)
          :: (1, ⟨s.offset + 1, tag.name⟩) :: s.captures } := by
  have hopened : s.rest = ['<'] ++ (tag.name ++ (tag.attrs ++ '>' :: rest)) := by
    rw [hrest, WrittenTag.text]
    simp only [List.cons_append, List.nil_append, List.append_assoc]
  have hname := rest_pass hopened
  have hattrs : (Cursor.rest { (s.pass ['<']).pass tag.name with
      captures := (1, ⟨s.offset + 1, tag.name⟩) :: s.captures })
      = tag.attrs ++ '>' :: rest := rest_pass hname
  have htext : tag.text = ['<'] ++ tag.name ++ tag.attrs ++ ['>'] := by
    simp only [WrittenTag.text, List.cons_append, List.nil_append]
  rw [htext, Cursor.pass_append, Cursor.pass_append, Cursor.pass_append]
  refine head?_results_seq (head?_results_seq (head?_results_seq
    (takes_char '<' _ s hopened) ((tag.takes_name rest).head?_group hname 1))
    ((tag.takes_attrs rest).head?_group hattrs 2)) ?_
  exact takes_char '>' rest _ (rest_pass hattrs)

/-- **NO TAG**: before anything but `'<'` and a letter. -/
theorem refuses_tagPattern {text : Text}
    (h : ∀ c, ['<', c] <+: text → c.isAlpha = false) :
    tagPattern.Refuses text := by
  refine Refuses.seq (Refuses.seq ?_ _) _
  cases text with
  | nil => exact (refuses_one rfl).seq _
  | cons d rest =>
      by_cases hd : d = '<'
      · have hletter : (one Char.isAlpha).Refuses rest := by
          refine refuses_one ?_
          cases rest with
          | nil => rfl
          | cons c rest => exact h c ⟨rest, by rw [hd]; rfl⟩
        exact ((hletter.seq _).group 1).one_seq _ d
      · exact (refuses_char hd rest).seq _

/-- Plain text starts no tag, also where the next one follows it. -/
theorem refuses_plain {v w rest : Text} {c : Char} (h : IsPlain (v ++ c :: w))
    (hrest : ∀ d, rest.head? = some d → d = '<') :
    tagPattern.Refuses (c :: w ++ rest) := by
  refine refuses_tagPattern fun d hd => ?_
  rw [List.cons_append] at hd
  obtain ⟨rfl, hnext⟩ := List.cons_prefix_cons.mp hd
  cases w with
  | nil =>
      cases rest with
      | nil => exact absurd (List.prefix_nil.mp hnext) (List.cons_ne_nil d [])
      | cons e rest =>
          obtain ⟨rfl, _⟩ := List.cons_prefix_cons.mp hnext
          rw [hrest d rfl]
          decide
  | cons e w =>
      obtain ⟨rfl, _⟩ := List.cons_prefix_cons.mp hnext
      exact h d ⟨v, w, by simp⟩

/-- A document without text before its first tag starts with a bracket. -/
theorem head?_markup (tags : List WrittenTag) :
    ∀ d, (markup tags).head? = some d → d = '<' := by
  intro d hd
  cases tags with
  | nil => exact nomatch hd
  | cons tag tags => exact (Option.some.inj hd).symm

/-- The search for tags passes over plain text. -/
theorem allFrom_plain {s : Cursor} (hs : s.captures = []) {text rest : Text}
    (hrest : s.rest = text ++ rest) (htext : IsPlain text)
    (hhead : ∀ d, rest.head? = some d → d = '<') :
    tagPattern.allFrom s = tagPattern.allFrom (s.pass text) := by
  refine allFrom_quiet hs hrest fun v c hv => ?_
  obtain ⟨w, rfl⟩ := hv
  rw [List.append_assoc] at htext
  refine refuses_plain htext hhead _ (rest_pass ?_)
  rw [hrest, List.append_assoc, List.append_assoc]
  rfl

/-- The tag that a match in a document is read as. -/
def Tag.ofMatch (content : Text) (m : Match) : Tag where
  name := m.name 1
  attrs := m.group 2
  line := Text.lineOf content m.start
  attrsOffset := m.groupStart 2

/-- The tags of a file are its matches, each read as a tag. -/
theorem tags_eq_map (s : Subject) :
    tags s = (tagPattern.findAll s.content).map (Tag.ofMatch s.content) := by
  rw [tags, Subject.allMatches, List.map_map]
  rfl

/-- The tags found behind a text are the ones written there. -/
theorem map_allFrom_markup {content : Text} {written : List WrittenTag} :
    ∀ {before : Text}, content = before ++ markup written →
      (tagPattern.allFrom ((Cursor.atStart content).pass before)).map
          (Tag.ofMatch content)
        = writtenTags before written := by
  -- induction over the tags, with the text before them general, for it
  -- decides their lines and offsets
  induction written with
  | nil =>
      intro before hcontent
      have hrest : ((Cursor.atStart content).pass before).rest = [] :=
        rest_pass hcontent
      have hnone : tagPattern.Refuses [] := (((refuses_one rfl).seq _).seq _).seq _
      rw [allFrom, hrest, findAllFrom, matchAt_eq, hnone _ rfl]
      rfl
  | cons tag written ih =>
      intro before hcontent
      let s := (Cursor.atStart content).pass before
      have hrest : s.rest = tag.text ++ (tag.after ++ markup written) :=
        rest_pass hcontent
      have hoffset : s.offset = before.length := Nat.zero_add _
      have hline : Text.lineOf content s.offset = before.count '\n' + 1 :=
        Text.lineOf_pass hcontent (List.cons_ne_nil '<' _)
      -- plain text behind a tag starts none, so the next match is that of
      -- the next tag
      have hbehind : tagPattern.allFrom (s.pass tag.text)
          = tagPattern.allFrom ((Cursor.atStart content).pass
              (before ++ tag.text ++ tag.after)) := by
        rw [Cursor.pass_append, Cursor.pass_append]
        exact allFrom_plain rfl (rest_pass hrest) tag.after_isPlain
          (head?_markup written)
      rw [allFrom_match rfl hrest (List.cons_ne_nil '<' _)
        (tag.head?_results hrest) rfl, hbehind, List.map_cons, writtenTags]
      congr 1
      · rw [WrittenTag.behind, ← hline, ← hoffset]
        rfl
      · refine ih ?_
        rw [hcontent, markup]
        simp only [List.append_assoc]

/-- **TAGS**: a document of plain text and tags has exactly these tags. -/
theorem tags_eq_writtenTags {s : Subject} {before : Text}
    {written : List WrittenTag} (hbefore : IsPlain before)
    (hcontent : s.content = before ++ markup written) :
    tags s = writtenTags before written := by
  rw [tags_eq_map, findAll_eq_allFrom,
    allFrom_plain rfl hcontent hbefore (head?_markup written)]
  exact map_allFrom_markup hcontent

/-- Attributes of single characters only. -/
theorem isAttributePart_of_mem_map {w : Text}
    (h : w.all fun c => c ∉ ['<', '>', '"', '\'', '{', '}']) :
    ∀ part ∈ w.map ([·]), IsAttributePart part := by
  intro part hpart
  obtain ⟨c, hc, rfl⟩ := List.mem_map.mp hpart
  exact .plain (of_decide_eq_true (List.all_eq_true.mp h c hc))

/-- An image whose text holds the end of a tag. -/
def imageTag : WrittenTag where
  initial := 'i'
  others := "mg".toList
  parts := "\n alt=".toList.map ([·]) ++ ['"' :: ("a > b".toList ++ ['"'])]
  after := " 1 < 2 </p>\n".toList
  initial_isAlpha := by decide
  others_isTagChar := List.all_eq_true.mp (by decide)
  parts_isAttributePart := by
    refine List.forall_mem_append.mpr
      ⟨isAttributePart_of_mem_map (by decide), ?_⟩
    exact List.forall_mem_singleton.mpr (.doubleQuoted (by decide))
  parts_delimit := by decide
  after_isPlain := by decide

/-- A component whose attribute holds the start of a tag. -/
def cartTag : WrittenTag where
  initial := 'm'
  others := "y-cart".toList
  parts := "/".toList.map ([·])
    ++ ['{' :: (['{' :: ("x: '<b'".toList ++ ['}'])].flatten ++ ['}'])]
  after := []
  initial_isAlpha := by decide
  others_isTagChar := List.all_eq_true.mp (by decide)
  parts_isAttributePart := by
    refine List.forall_mem_append.mpr
      ⟨isAttributePart_of_mem_map (by decide), ?_⟩
    exact List.forall_mem_singleton.mpr
      (.braced (List.forall_mem_singleton.mpr (.group (by decide) (by decide))))
  parts_delimit := by decide
  after_isPlain := by decide

/-- A page with both. -/
def taggedPage : Subject where
  path := "page.vue"
  content := ("<!--\n\n--><img\n alt=\"a > b\"> 1 < 2 </p>\n"
    ++ "<my-cart/\x7b\x7bx: '<b'\x7d\x7d>").toList
  language := some .vue
  blocks := []
  config := {}

theorem tags_taggedPage :
    tags taggedPage =
      [⟨"img", "\n alt=\"a > b\"".toList, 3, 13⟩,
        ⟨"my-cart", "/\x7b\x7bx: '<b'\x7d\x7d".toList, 5, 47⟩] := by
  have hcontent : taggedPage.content
      = "<!--\n\n-->".toList ++ markup [imageTag, cartTag] := by decide
  have htags := tags_eq_writtenTags (by decide) hcontent
  exact htags.trans rfl

end CodeReview.Detector
