import CodeReview.Proofs.BlockEnds
import CodeReview.Proofs.Stretches

/-! # Endless methods behind a word

    A method may stand behind a word such as `private`.  Two patterns look
    at the head of a method, the one that names units and the one that
    recognises methods without a body, and they know different words.  Each
    of them reads what follows a word in the same way as without it
    (`startsIn_behind_word_iff`), so a word that both know changes nothing.
    Only the first pattern knows `module_function`: an endless method
    behind it is a unit whose `def` is taken to open a body, and its block
    goes on behind its line (`isEndless_behind_modifier`). -/

namespace CodeReview

namespace Text

/-- At least one blank, and nothing else. -/
def IsGap (gap : Text) : Prop := gap ≠ [] ∧ ∀ c ∈ gap, isBlank c = true

end Text

namespace Pattern

/-! ## What follows a place -/

/-- Whether a pattern matches at exactly those places that a text of a
    class follows, whatever stands before them. -/
def MatchesBefore (p : Pattern) (Follows : Text → Prop) : Prop :=
  ∀ s, p.results s ≠ [] ↔ Follows s.rest

/-- The class of the texts that may follow can be described in another
    way. -/
theorem MatchesBefore.congr {p : Pattern} {A B : Text → Prop}
    (h : p.MatchesBefore A) (hiff : ∀ text, A text ↔ B text) :
    p.MatchesBefore B :=
  fun s => (h s).trans (hiff s.rest)

/-- A pattern that reads the words of a class matches wherever one of them
    stands. -/
theorem Reads.matchesBefore {p : Pattern} {L : Text → Prop} (h : p.Reads L) :
    p.MatchesBefore fun text => ∃ w more, text = w ++ more ∧ L w := by
  intro s
  constructor
  · intro hne
    obtain ⟨t, ht⟩ := List.exists_mem_of_ne_nil _ hne
    obtain ⟨w, hw, hstretch, rfl⟩ := (h s t).mp ht
    exact ⟨w, _, Cursor.rest_eq_append hstretch, hw⟩
  · rintro ⟨w, more, htext, hw⟩
    exact List.ne_nil_of_mem
      ((h s _).mpr ⟨w, hw, ⟨more, htext.symm⟩, rfl⟩)

/-- A pattern behind another matches where a word of the first class is
    followed by a text of the second. -/
theorem matchesBefore_seq {p q : Pattern} {L A : Text → Prop}
    (hp : p.Reads L) (hq : q.MatchesBefore A) :
    (p ++ q).MatchesBefore fun text =>
      ∃ w more, text = w ++ more ∧ L w ∧ A more := by
  intro s
  constructor
  · intro hne
    obtain ⟨t, ht⟩ := List.exists_mem_of_ne_nil _ hne
    obtain ⟨u, hu, hrest⟩ := mem_results_seq.mp ht
    obtain ⟨w, hw, hstretch, rfl⟩ := (hp s u).mp hu
    exact ⟨w, _, Cursor.rest_eq_append hstretch, hw,
      (hq _).mp (List.ne_nil_of_mem hrest)⟩
  · rintro ⟨w, more, htext, hw, hmore⟩
    have hrest : (s.pass w).rest = more := by
      rw [Cursor.pass, htext]
      exact List.drop_left
    obtain ⟨t, ht⟩ := List.exists_mem_of_ne_nil _
      ((hq (s.pass w)).mpr (hrest ▸ hmore))
    exact List.ne_nil_of_mem (mem_results_seq.mpr
      ⟨s.pass w, (hp s _).mpr ⟨w, hw, ⟨more, htext.symm⟩, rfl⟩, ht⟩)

/-- Remembering what is read changes nothing about where a pattern
    matches. -/
theorem MatchesBefore.group {p : Pattern} {A : Text → Prop}
    (h : p.MatchesBefore A) (index : Nat) :
    (group index p).MatchesBefore A := by
  intro s
  rw [← h s, results, ne_eq, List.map_eq_nil_iff]

/-- Looking ahead for a character that must not follow says so about the
    next character only, and holds at the end of the text. -/
theorem matchesBefore_notAhead (p : Char → Bool) :
    (notAhead (one p)).MatchesBefore fun text => text.head?.any p = false := by
  intro s
  have hresults : (notAhead (one p)).results s ≠ []
      ↔ (one p).results s = [] := by
    show (if ((one p).results s).isEmpty == false then [] else [s]) ≠ [] ↔ _
    cases (one p).results s with
    | nil => simp
    | cons t ts => simp
  rw [hresults, results, Cursor.advance]
  cases s.rest with
  | nil => simp
  | cons c rest => cases hc : p c <;> simp [hc]

/-- Patterns behind one another can be grouped either way. -/
theorem results_seq_assoc (p q r : Pattern) (s : Cursor) :
    (p ++ q ++ r).results s = (p ++ (q ++ r)).results s :=
  List.flatMap_assoc

/-! ## Behind a word that may be missing -/

/-- The start of a line, a word of a list that may be missing, and a
    pattern. -/
def behindOptional (words : List String) (p : Pattern) : Pattern :=
  edge .textStart ++ (blanks ++ (opt (texts words ++ someBlanks) ++ p))

/-- A word of a list with blanks behind it, as a class of texts. -/
theorem reads_wordGap (words : List String) :
    (texts words ++ someBlanks).Reads fun w =>
      ∃ word ∈ words, ∃ gap, w = word.toList ++ gap ∧ Text.IsGap gap := by
  refine (reads_seq (reads_texts words) (reads_many1 Text.isBlank)).congr ?_
  intro w
  constructor
  · rintro ⟨_, gap, rfl, ⟨word, hword, rfl⟩, hgap⟩
    exact ⟨word, hword, gap, rfl, hgap⟩
  · rintro ⟨word, hword, gap, rfl, hgap⟩
    exact ⟨_, gap, rfl, ⟨word, hword, rfl⟩, hgap⟩

/-- What a line looks like that matches behind an optional word: blanks,
    then either what the pattern asks for or a word of the list, a gap and
    that. -/
theorem startsIn_behindOptional_iff {words : List String} {p : Pattern}
    {A : Text → Prop} (hp : p.MatchesBefore A) {line : Text} :
    (behindOptional words p).startsIn line = true
      ↔ ∃ margin rest, line = margin ++ rest
        ∧ (∀ c ∈ margin, Text.isBlank c = true)
        ∧ (A rest ∨ ∃ word ∈ words, ∃ gap more,
            rest = word.toList ++ (gap ++ more) ∧ Text.IsGap gap ∧ A more) := by
  have hstart : (behindOptional words p).results (.atStart line)
      = (blanks ++ (opt (texts words ++ someBlanks) ++ p)).results
          (.atStart line) := by
    show ((edge .textStart).results _).flatMap _ = _
    rw [results]
    exact List.flatMap_singleton ..
  have hline := matchesBefore_seq (reads_many Text.isBlank)
    (matchesBefore_seq (reads_opt (reads_wordGap words)) hp) (.atStart line)
  rw [startsIn_iff, hstart]
  refine hline.trans ?_
  constructor
  · rintro ⟨margin, rest, hcut, hmargin, w, more, rfl, hw | rfl, hmore⟩
    · obtain ⟨word, hword, gap, rfl, hgap⟩ := hw
      exact ⟨margin, _, hcut, hmargin, .inr ⟨word, hword, gap, more,
        List.append_assoc .., hgap, hmore⟩⟩
    · exact ⟨margin, _, hcut, hmargin, .inl hmore⟩
  · rintro ⟨margin, rest, hcut, hmargin, hmore | hword⟩
    · exact ⟨margin, rest, hcut, hmargin, [], rest, rfl, .inr rfl, hmore⟩
    · obtain ⟨word, hword, gap, more, rfl, hgap, hmore⟩ := hword
      exact ⟨margin, _, hcut, hmargin, word.toList ++ gap, more,
        (List.append_assoc ..).symm, .inl ⟨word, hword, gap, rfl, hgap⟩, hmore⟩

end Pattern

namespace BlockMarks

open Pattern

/-! ## Two patterns for the head of a method -/

/-- The words that may stand before the head of a unit. -/
def modifiers : List String :=
  ["private", "protected", "public", "module_function"]

/-- The words that may stand before the head of an endless method. -/
def visibilities : List String := ["private", "protected", "public"]

/-- A character of a unit's name. -/
def isUnitChar (c : Char) : Bool := !(Text.isBlank c || c == '(' || c == ';')

/-- A character of an endless method's name. -/
def isMethodChar (c : Char) : Bool :=
  Text.isWord c || c == '.' || c == '?' || c == '!'

/-- The head of a unit, from its `def` on. -/
def unitHead : Pattern :=
  text "def" ++ (someBlanks
    ++ (opt (text "self.") ++ group 1 (many1 (one isUnitChar))))

/-- What stands between the name of an endless method and its equals
    sign. -/
def endlessParameters : Pattern :=
  char '(' ++ many (noneOf ")") ++ char ')' ++ blanks ||| someBlanks

/-- The head of an endless method, from its `def` on. -/
def endlessHead : Pattern :=
  text "def" ++ (someBlanks ++ (many1 (one isMethodChar)
    ++ (endlessParameters ++ (char '=' ++ notAhead (oneOf "=~>(")))))

/-- The pattern for units is what `unitHead` asks for, behind one of its
    words. -/
theorem startsIn_rubyUnit (line : Text) :
    rubyUnit.startsIn line = (behindOptional modifiers unitHead).startsIn line := by
  have hresults : ∀ s, rubyUnit.results s
      = (behindOptional modifiers unitHead).results s := by
    intro s
    simp only [rubyUnit, results_seq_assoc]
    rfl
  rw [Bool.eq_iff_iff, startsIn_iff, startsIn_iff, hresults]

/-- The pattern for endless methods is what `endlessHead` asks for, behind
    one of the words it knows. -/
theorem startsIn_rubyEndlessDef (line : Text) :
    rubyEndlessDef.startsIn line
      = (behindOptional visibilities endlessHead).startsIn line := by
  have hresults : ∀ s, rubyEndlessDef.results s
      = (behindOptional visibilities endlessHead).results s := by
    intro s
    simp only [rubyEndlessDef, results_seq_assoc]
    rfl
  rw [Bool.eq_iff_iff, startsIn_iff, startsIn_iff, hresults]

/-- Whether a text starts with the head of a unit: `def`, blanks and a
    name. -/
def UnitFrom (text : Text) : Prop :=
  ∃ gap name rest, text = "def".toList ++ (gap ++ (name ++ rest))
    ∧ Text.IsGap gap ∧ name ≠ [] ∧ ∀ c ∈ name, isUnitChar c = true

/-- Whether a text starts with the head of an endless method: `def`,
    blanks, a name, parameters or blanks, and an equals sign that is not
    part of a longer operator. -/
def EndlessFrom (text : Text) : Prop :=
  ∃ gap name between rest,
    text = "def".toList ++ (gap ++ (name ++ (between ++ '=' :: rest)))
      ∧ Text.IsGap gap ∧ (name ≠ [] ∧ ∀ c ∈ name, isMethodChar c = true)
      ∧ ((∃ inner margin, between = '(' :: (inner ++ ')' :: margin)
            ∧ ')' ∉ inner ∧ ∀ c ∈ margin, Text.isBlank c = true)
          ∨ Text.IsGap between)
      ∧ rest.head?.any "=~>(".toList.contains = false

/-- The receiver `self.` could also be read as a part of a name. -/
theorem isUnitChar_of_mem_self :
    ∀ c ∈ "self.".toList, isUnitChar c = true :=
  List.all_eq_true.mp (by decide)

/-- Where the head of a unit stands, as a class of texts. -/
theorem matchesBefore_unitHead : unitHead.MatchesBefore UnitFrom := by
  refine (matchesBefore_seq (reads_text "def")
    (matchesBefore_seq (reads_many1 Text.isBlank)
      (matchesBefore_seq (reads_opt (reads_text "self."))
        ((reads_many1 isUnitChar).matchesBefore.group 1)))).congr ?_
  intro text
  constructor
  · rintro ⟨_, _, rfl, rfl, gap, _, rfl, hgap, self, _, rfl, hself, name, rest,
      rfl, hne, hname⟩
    refine ⟨gap, self ++ name, rest, by rw [List.append_assoc], hgap, ?_, ?_⟩
    · exact List.append_ne_nil_of_right_ne_nil self hne
    · -- the characters of the receiver may stand in a name
      intro c hc
      rcases List.mem_append.mp hc with hc | hc
      · rcases hself with rfl | rfl
        · exact isUnitChar_of_mem_self c hc
        · exact nomatch hc
      · exact hname c hc
  · rintro ⟨gap, name, rest, rfl, hgap, hname⟩
    exact ⟨_, _, rfl, rfl, gap, _, rfl, hgap, [], _, rfl, .inr rfl, name, rest,
      rfl, hname⟩

/-- Between the name and the equals sign of an endless method stand its
    parameters in parentheses, or blanks. -/
theorem reads_endlessParameters :
    endlessParameters.Reads fun between =>
      (∃ inner margin, between = '(' :: (inner ++ ')' :: margin)
          ∧ ')' ∉ inner ∧ ∀ c ∈ margin, Text.isBlank c = true)
        ∨ Text.IsGap between := by
  -- no closing parenthesis within, as the pattern says it and as it is
  -- stated
  have hinner : ∀ inner : Text,
      (∀ c ∈ inner, (!")".toList.contains c) = true) ↔ ')' ∉ inner := by
    intro inner
    have hother : ∀ c, (!")".toList.contains c) = true ↔ c ≠ ')' := by
      intro c
      simp
    constructor
    · intro h hmem
      exact (hother _).mp (h _ hmem) rfl
    · rintro h c hc
      refine (hother c).mpr ?_
      rintro rfl
      exact h hc
  refine (reads_alt (reads_seq (reads_seq (reads_seq (reads_char '(')
    (reads_many _)) (reads_char ')')) (reads_many Text.isBlank))
    (reads_many1 Text.isBlank)).congr ?_
  intro between
  refine or_congr ?_ Iff.rfl
  constructor
  · rintro ⟨_, margin, rfl, ⟨_, _, rfl, ⟨_, inner, rfl, rfl, hin⟩, rfl⟩, hmargin⟩
    exact ⟨inner, margin, by simp, (hinner inner).mp hin, hmargin⟩
  · rintro ⟨inner, margin, rfl, hin, hmargin⟩
    exact ⟨_, margin, by simp, ⟨_, _, rfl,
      ⟨_, inner, rfl, rfl, (hinner inner).mpr hin⟩, rfl⟩, hmargin⟩

/-- Where the head of an endless method stands, as a class of texts. -/
theorem matchesBefore_endlessHead :
    endlessHead.MatchesBefore EndlessFrom := by
  refine (matchesBefore_seq (reads_text "def")
    (matchesBefore_seq (reads_many1 Text.isBlank)
      (matchesBefore_seq (reads_many1 isMethodChar)
        (matchesBefore_seq reads_endlessParameters
          (matchesBefore_seq (reads_char '=')
            (matchesBefore_notAhead _)))))).congr ?_
  intro text
  constructor
  · rintro ⟨_, _, rfl, rfl, gap, _, rfl, hgap, name, _, rfl, hname, between, _,
      rfl, hbetween, _, rest, rfl, rfl, hrest⟩
    exact ⟨gap, name, between, rest, rfl, hgap, hname, hbetween, hrest⟩
  · rintro ⟨gap, name, between, rest, rfl, hgap, hname, hbetween, hrest⟩
    exact ⟨_, _, rfl, rfl, gap, _, rfl, hgap, name, _, rfl, hname, between, _,
      rfl, hbetween, ['='], rest, rfl, rfl, hrest⟩

/-- An endless method is a unit. -/
theorem EndlessFrom.unitFrom {text : Text} (h : EndlessFrom text) :
    UnitFrom text := by
  obtain ⟨gap, name, between, rest, rfl, hgap, ⟨hne, hname⟩, _⟩ := h
  refine ⟨gap, name, _, rfl, hgap, hne, ?_⟩
  intro c hc
  have hchar := hname c hc
  cases hunit : isUnitChar c with
  | true => rfl
  | false =>
      -- what cannot stand in the name of a unit is no character of a word
      exfalso
      rw [isUnitChar, Bool.not_eq_false', Bool.or_eq_true, Bool.or_eq_true,
        beq_iff_eq, beq_iff_eq] at hunit
      have hnot : isMethodChar c = false := by
        rcases hunit with (hblank | rfl) | rfl
        · exact Text.of_isBlank (P := fun c => isMethodChar c = false)
            (by decide +kernel) hblank
        · decide +kernel
        · decide +kernel
      exact nomatch hnot.symm.trans hchar

/-! ## With a word and without it -/

/-- A word before a method starts with neither a blank nor the letter of
    `def`. -/
theorem head?_append_modifier {word : String} (h : word ∈ modifiers)
    (rest : Text) :
    ∃ c, (word.toList ++ rest).head? = some c ∧ c ≠ 'd'
      ∧ Text.isBlank c = false := by
  simp only [modifiers, List.mem_cons, List.not_mem_nil, or_false] at h
  rcases h with rfl | rfl | rfl | rfl
  · exact ⟨'p', rfl, by decide, rfl⟩
  · exact ⟨'p', rfl, by decide, rfl⟩
  · exact ⟨'p', rfl, by decide, rfl⟩
  · exact ⟨'m', rfl, by decide, rfl⟩

/-- A word before a method holds no blank, so it ends at the first one. -/
theorem isBlank_of_mem_modifier {word : String} (h : word ∈ modifiers) :
    ∀ c ∈ word.toList, Text.isBlank c = false := by
  have hall : modifiers.all fun word => word.toList.all fun c =>
      !Text.isBlank c := by
    decide
  have hword := List.all_eq_true.mp hall word h
  intro c hc
  have hother := List.all_eq_true.mp hword c hc
  rwa [Bool.not_eq_true'] at hother

section Words

variable {words : List String} {p : Pattern} {A : Text → Prop}
  {margin gap t : Text}

/-- What starts a line is looked for behind its margin. -/
theorem startsIn_margin_iff (hwords : words ⊆ modifiers)
    (hp : p.MatchesBefore A) (hhead : ∀ text, A text → text.head? = some 'd')
    (hmargin : ∀ c ∈ margin, Text.isBlank c = true)
    (ht : t.head? = some 'd') :
    (behindOptional words p).startsIn (margin ++ t) = true ↔ A t := by
  rw [startsIn_behindOptional_iff hp]
  constructor
  · rintro ⟨margin', rest, hcut, hmargin', hrest | hrest⟩
    · obtain ⟨_, rfl⟩ := Text.run_append_inj hmargin hmargin' (by rw [ht]; rfl)
        (by rw [hhead rest hrest]; rfl) hcut
      exact hrest
    · -- a word would start with another letter
      obtain ⟨word, hword, gap, more, rfl, _, _⟩ := hrest
      obtain ⟨c, hc, hne, hblank⟩ :=
        head?_append_modifier (hwords hword) (gap ++ more)
      obtain ⟨_, rfl⟩ := Text.run_append_inj hmargin hmargin' (by rw [ht]; rfl)
        (by rw [hc, Option.any_some, hblank]) hcut
      exact absurd (Option.some.inj (hc.symm.trans ht)) hne
  · intro hA
    exact ⟨margin, t, rfl, hmargin, .inl hA⟩

/-- Behind one of the words the same is looked for, and behind another
    word of the kind nothing is found. -/
theorem startsIn_behind_word_iff (hwords : words ⊆ modifiers)
    (hp : p.MatchesBefore A) (hhead : ∀ text, A text → text.head? = some 'd')
    (hmargin : ∀ c ∈ margin, Text.isBlank c = true) (hgap : Text.IsGap gap)
    (ht : t.head? = some 'd') {word : String} (hword : word ∈ modifiers) :
    (behindOptional words p).startsIn (margin ++ (word.toList ++ (gap ++ t)))
        = true
      ↔ word ∈ words ∧ A t := by
  obtain ⟨c, hc, hne, hblank⟩ := head?_append_modifier hword (gap ++ t)
  have hstart : (word.toList ++ (gap ++ t)).head?.any Text.isBlank = false := by
    rw [hc, Option.any_some, hblank]
  have hstop : ∀ {gap more : Text}, Text.IsGap gap →
      (gap ++ more).head?.any (fun c => !Text.isBlank c) = false := by
    rintro (_ | ⟨b, gap⟩) more ⟨hne, hall⟩
    · exact absurd rfl hne
    · simp [hall b List.mem_cons_self]
  rw [startsIn_behindOptional_iff hp]
  constructor
  · rintro ⟨margin', rest, hcut, hmargin', hrest | hrest⟩
    · obtain ⟨_, rfl⟩ := Text.run_append_inj hmargin hmargin' hstart
        (by rw [hhead rest hrest]; rfl) hcut
      exact absurd (Option.some.inj (hc.symm.trans (hhead _ hrest))) hne
    · obtain ⟨word', hword', gap', more, rfl, hgap', hmore⟩ := hrest
      obtain ⟨c', hc', _, hblank'⟩ :=
        head?_append_modifier (hwords hword') (gap' ++ more)
      obtain ⟨_, hsame⟩ := Text.run_append_inj hmargin hmargin' hstart
        (by rw [hc', Option.any_some, hblank']) hcut
      -- words hold no blanks, and a gap holds nothing else
      obtain ⟨hwordEq, hbehind⟩ := Text.run_append_inj
        (p := fun c => !Text.isBlank c)
        (fun c hc => by rw [isBlank_of_mem_modifier hword c hc]; rfl)
        (fun c hc => by
          rw [isBlank_of_mem_modifier (hwords hword') c hc]; rfl)
        (hstop hgap) (hstop hgap') hsame
      obtain ⟨_, rfl⟩ := Text.run_append_inj hgap.2 hgap'.2 (by rw [ht]; rfl)
        (by rw [hhead more hmore]; rfl) hbehind
      rw [String.toList_inj.mp hwordEq]
      exact ⟨hword', hmore⟩
  · rintro ⟨hmem, hA⟩
    exact ⟨margin, _, rfl, hmargin, .inr ⟨word, hmem, gap, t, rfl, hgap, hA⟩⟩

end Words

/-! ## Endless methods -/

/-- Whether a line is the head of an endless method: a unit on it ends
    there, and one `def` on it opens nothing. -/
def IsEndless (line : Text) : Prop :=
  ruby.isOneLiner line = true
    ∧ (ruby.openers line).count .defWord + 1
      = (rubyRawOpeners line).count .defWord

instance (line : Text) : Decidable (IsEndless line) :=
  inferInstanceAs (Decidable (_ ∧ _))

/-- The openers of a line hold as many `def` as the line has words `def`. -/
theorem count_defWord_rubyRawOpeners (line : Text) :
    (rubyRawOpeners line).count .defWord = (rubyWord "def").count line := by
  simp [rubyRawOpeners, rubyWordOpeners, rubyStatementOpeners, occurrences,
    List.count_replicate, Opener.text]

/-- On the head of an endless method, one `def` less is counted. -/
theorem count_defWord_rubyOpeners (line : Text) :
    (ruby.openers line).count .defWord
      = if rubyEndlessDef.startsIn line = true
        then (rubyRawOpeners line).count .defWord - 1
        else (rubyRawOpeners line).count .defWord := by
  have hdo : ∀ found : List Opener,
      (found.erase .doWord).count .defWord = found.count .defWord :=
    fun found => List.count_erase_of_ne (by decide)
  show (rubyOpeners line).count .defWord = _
  simp only [rubyOpeners]
  split <;> split <;> simp [hdo]

/-- A line names a unit exactly if the pattern for units matches at its
    start. -/
theorem unitName_ne_none_iff {line : Text} :
    ruby.unitName line ≠ none ↔ rubyUnit.startsIn line = true := by
  show firstName [rubyUnit] [] line ≠ none ↔ _
  rw [startsIn]
  cases hm : rubyUnit.matchStart line with
  | none => simp [firstName, hm]
  | some m => simp [firstName, hm]

/-- An endless method is a unit, whatever stands before it. -/
theorem unitName_of_endless {line : Text}
    (h : rubyEndlessDef.startsIn line = true) :
    ruby.unitName line ≠ none := by
  rw [startsIn_rubyEndlessDef,
    startsIn_behindOptional_iff matchesBefore_endlessHead] at h
  rw [unitName_ne_none_iff, startsIn_rubyUnit,
    startsIn_behindOptional_iff matchesBefore_unitHead]
  obtain ⟨margin, rest, hcut, hmargin, hhead | hhead⟩ := h
  · exact ⟨margin, rest, hcut, hmargin, .inl hhead.unitFrom⟩
  · obtain ⟨word, hword, gap, more, hrest, hgap, hmore⟩ := hhead
    have hknown : word ∈ modifiers :=
      List.mem_append_left ["module_function"] hword
    exact ⟨margin, rest, hcut, hmargin,
      .inr ⟨word, hknown, gap, more, hrest, hgap, hmore.unitFrom⟩⟩

/-- The head of a unit counts a `def`. -/
theorem count_defWord_pos {line : Text} (h : ruby.unitName line ≠ none) :
    0 < (rubyRawOpeners line).count .defWord := by
  obtain ⟨m, hm⟩ := Option.isSome_iff_exists.mp (unitName_ne_none_iff.mp h)
  obtain ⟨passed, c, rest, rfl, hpassed, hc⟩ := exists_def_of_rubyUnit hm
  rw [count_defWord_rubyRawOpeners]
  exact count_pos_of_results (results_rubyWord_def rest _ hpassed hc)

/-- A line is an endless method exactly if that pattern matches at its
    start. -/
theorem isEndless_iff {line : Text} :
    IsEndless line ↔ rubyEndlessDef.startsIn line = true := by
  constructor
  · intro h
    exact h.1
  · intro h
    refine ⟨h, ?_⟩
    have hpos := count_defWord_pos (unitName_of_endless h)
    rw [count_defWord_rubyOpeners, if_pos h]
    omega

/-- The head of an endless method starts with `def`. -/
theorem head?_of_endlessFrom (text : Text) (h : EndlessFrom text) :
    text.head? = some 'd' := by
  obtain ⟨gap, name, between, rest, rfl, _⟩ := h
  rfl

/-- The head of a unit starts with `def`. -/
theorem head?_of_unitFrom (text : Text) (h : UnitFrom text) :
    text.head? = some 'd' := by
  obtain ⟨gap, name, rest, rfl, _⟩ := h
  rfl

section Lines

variable {margin gap t : Text} {word : String}

/-- Without a word, the head of an endless method follows the margin. -/
theorem isEndless_margin_iff (hmargin : ∀ c ∈ margin, Text.isBlank c = true)
    (ht : "def".toList <+: t) : IsEndless (margin ++ t) ↔ EndlessFrom t := by
  obtain ⟨rest, rfl⟩ := ht
  rw [isEndless_iff, startsIn_rubyEndlessDef]
  exact startsIn_margin_iff (List.subset_append_left _ ["module_function"])
    matchesBefore_endlessHead head?_of_endlessFrom hmargin rfl

/-- Behind a word it is recognised if the word is one of the three. -/
theorem isEndless_behind_word_iff
    (hmargin : ∀ c ∈ margin, Text.isBlank c = true) (hgap : Text.IsGap gap)
    (ht : "def".toList <+: t) (hword : word ∈ modifiers) :
    IsEndless (margin ++ (word.toList ++ (gap ++ t)))
      ↔ word ∈ visibilities ∧ EndlessFrom t := by
  obtain ⟨rest, rfl⟩ := ht
  rw [isEndless_iff, startsIn_rubyEndlessDef]
  exact startsIn_behind_word_iff
    (List.subset_append_left _ ["module_function"])
    matchesBefore_endlessHead head?_of_endlessFrom hmargin hgap rfl hword

/-- A unit is named behind each of the words. -/
theorem unitName_behind_word (hmargin : ∀ c ∈ margin, Text.isBlank c = true)
    (hgap : Text.IsGap gap) (hword : word ∈ modifiers) (ht : UnitFrom t) :
    ruby.unitName (margin ++ (word.toList ++ (gap ++ t))) ≠ none := by
  rw [unitName_ne_none_iff, startsIn_rubyUnit]
  exact (startsIn_behind_word_iff (List.Subset.refl _) matchesBefore_unitHead
    head?_of_unitFrom hmargin hgap (head?_of_unitFrom t ht) hword).mpr
      ⟨hword, ht⟩

end Lines

end BlockMarks

/-! ## The block of one line -/

namespace Block

/-- At most one block starts on a line: that of the unit on it. -/
theorem filter_scanFrom_at (front rest : List LineProfile)
    (line : LineProfile) (before : Nat) :
    (scanFrom before (front ++ line :: rest)).filter
        (·.startLine = before + front.length + 1)
      = (line.unit.map fun name =>
          ofUnit (before + front.length) name (line :: rest)).toList := by
  have hbehind := filter_scanFrom_behind (line :: rest) front before
  -- blocks found behind the line start behind it
  have hlater : (scanFrom (before + front.length + 1) rest).filter
      (·.startLine = before + front.length + 1) = [] := by
    refine List.filter_eq_nil_iff.mpr ?_
    intro block hblock
    have hlt := lt_startLine_of_mem_scanFrom hblock
    rw [decide_eq_true_eq]
    omega
  -- and those found before it start before it
  have hnarrow : (scanFrom before (front ++ line :: rest)).filter
        (·.startLine = before + front.length + 1)
      = (scanFrom (before + front.length) (line :: rest)).filter
        (·.startLine = before + front.length + 1) := by
    rw [← hbehind, List.filter_filter]
    refine List.filter_congr ?_
    intro block _
    rw [Bool.eq_iff_iff, Bool.and_eq_true, decide_eq_true_eq,
      decide_eq_true_eq]
    omega
  rw [hnarrow, scanFrom]
  cases line.unit with
  | none => exact hlater
  | some name =>
      show (ofUnit _ name (line :: rest) :: scanFrom _ rest).filter _ = [_]
      rw [List.filter_cons_of_pos (by simp [ofUnit]), hlater]

/-- A unit that opens a block with its first line ends where all blocks are
    closed. -/
theorem span_eq_closing? {line : LineProfile} (hone : line.isOneLiner = false)
    (hopens : 0 < line.opens) (rest : List LineProfile) :
    span (line :: rest) = (closing? (line :: rest) 0).getD rest.length := by
  rw [span_of_opens hone hopens]
  exact sweepFrom_opened (line :: rest) 0 (Nat.zero_add _)

/-- The block of a unit, found by the line it starts on. -/
theorem filter_scan_at {content : Text} {above below : List Text}
    {line : Text} (hlines : Text.lines content = above ++ line :: below)
    {name : String} (hname : BlockMarks.ruby.unitName line = some name) :
    (scan content (some .ruby)).filter (·.startLine = above.length + 1)
      = [ofUnit above.length name
          ((line :: below).map BlockMarks.ruby.profile)] := by
  have hat := filter_scanFrom_at (above.map BlockMarks.ruby.profile)
    (below.map BlockMarks.ruby.profile) (BlockMarks.ruby.profile line) 0
  have hunit : (BlockMarks.ruby.profile line).unit = some name := hname
  rw [hunit, List.length_map, Nat.zero_add] at hat
  have hruby : BlockMarks.ofLanguage? .ruby = some BlockMarks.ruby := rfl
  rw [scan_eq hruby, hlines, List.map_append, List.map_cons]
  exact hat

end Block

namespace BlockMarks

/-- Of the words before a method, only `module_function` is unknown to the
    pattern for endless methods. -/
theorem mem_visibilities_iff {word : String} (h : word ∈ modifiers) :
    word ∈ visibilities ↔ word ≠ "module_function" := by
  have hall : ∀ word ∈ modifiers,
      (word ∈ visibilities ↔ word ≠ "module_function") := by decide
  exact hall word h

/-- **ENDLESS METHODS BEHIND A WORD**: behind `private`, `protected` and
    `public` an endless method is recognised as it is without the word, and
    its block is its line.  Behind `module_function` none is recognised:
    its `def` counts, and its block goes on to the first line by which all
    blocks are closed, or to the last line of all. -/
theorem isEndless_behind_modifier {margin gap t : Text} {word : String}
    (hmargin : ∀ c ∈ margin, Text.isBlank c = true) (hgap : Text.IsGap gap)
    (ht : "def".toList <+: t) (hword : word ∈ modifiers) :
    let line := margin ++ (word.toList ++ (gap ++ t))
    (IsEndless line ↔ IsEndless (margin ++ t) ∧ word ≠ "module_function")
      ∧ (IsEndless (margin ++ t) → ∀ content above below,
          Text.lines content = above ++ line :: below →
          ∃ block, (Block.scan content (some .ruby)).filter
              (·.startLine = above.length + 1) = [block]
            ∧ (word ≠ "module_function" →
                block.endLine = above.length + 1 ∧ block.body = line)
            ∧ (word = "module_function" →
                block.endLine = above.length + 1
                  + (Block.closing? ((line :: below).map ruby.profile) 0).getD
                      below.length)) := by
  intro line
  have hiff : IsEndless line
      ↔ IsEndless (margin ++ t) ∧ word ≠ "module_function" := by
    rw [isEndless_behind_word_iff hmargin hgap ht hword,
      isEndless_margin_iff hmargin ht, mem_visibilities_iff hword]
    exact and_comm
  refine ⟨hiff, ?_⟩
  intro hendless content above below hlines
  -- with the word in front, the line still names a unit, so a block starts
  -- on it; only where it ends is in question
  have hfrom := (isEndless_margin_iff hmargin ht).mp hendless
  have hunit : ruby.unitName line ≠ none :=
    unitName_behind_word hmargin hgap hword hfrom.unitFrom
  obtain ⟨name, hname⟩ := Option.ne_none_iff_exists'.mp hunit
  refine ⟨_, Block.filter_scan_at hlines hname, ?_, ?_⟩
  · intro hknown
    have hone : (ruby.profile line).isOneLiner = true :=
      (hiff.mpr ⟨hendless, hknown⟩).1
    have hspan : Block.span ((line :: below).map ruby.profile) = 0 :=
      Block.span_of_oneLiner hone _
    constructor
    · show above.length + 1 + Block.span _ = _
      rw [hspan]
    · show Text.unlines ((List.take (Block.span _ + 1) _).map _) = line
      rw [hspan]
      rfl
  · -- not recognised as endless, the unit has a body that its `def` opens,
    -- and the sweep goes on to the line that closes it
    intro hunknown
    have hnot : ruby.isOneLiner line = false := by
      refine Bool.eq_false_iff.mpr ?_
      intro hone
      exact (hiff.mp (isEndless_iff.mpr hone)).2 hunknown
    have hopens : 0 < (ruby.profile line).opens := by
      rcases isOneLiner_or_mem_openers hunit with hone | hmem
      · exact nomatch hnot.symm.trans hone
      · exact List.length_pos_of_mem hmem
    show above.length + 1 + Block.span (ruby.profile line :: below.map ruby.profile)
      = _
    rw [Block.span_eq_closing? hnot hopens, List.length_map, List.map_cons]

/-- A class with an endless method behind a word. -/
def cartWithEndless : List Text :=
  ["class Cart", "  protected \tdef size?(all) = 3", "  def total", "    1",
    "  end", "end"].map String.toList

/-- The method is recognised, and the one behind it is not part of it. -/
theorem isEndless_cartWithEndless :
    IsEndless "  protected \tdef size?(all) = 3".toList
      ∧ ∃ block, (Block.scan (Text.print cartWithEndless) (some .ruby)).filter
          (·.startLine = 2) = [block] ∧ block.endLine = 2 := by
  have hmargin : ∀ c ∈ "  ".toList, Text.isBlank c = true :=
    List.all_eq_true.mp (by decide)
  have hgap : Text.IsGap " \t".toList :=
    ⟨by decide, List.all_eq_true.mp (by decide)⟩
  have ht : "def".toList <+: "def size?(all) = 3".toList := by decide
  have hword : "protected" ∈ modifiers := by decide
  obtain ⟨hiff, hblock⟩ := isEndless_behind_modifier hmargin hgap ht hword
  have hplain : IsEndless ("  ".toList ++ "def size?(all) = 3".toList) := by
    decide +kernel
  obtain ⟨block, hfound, hends, _⟩ := hblock hplain
    (Text.print cartWithEndless) (cartWithEndless.take 1)
    (cartWithEndless.drop 2) (by decide +kernel)
  exact ⟨hiff.mpr ⟨hplain, by decide⟩, block, hfound, (hends (by decide)).1⟩

/-- Behind `module_function` it is not recognised, and its block swallows
    the next method. -/
theorem not_isEndless_moduleFunction :
    IsEndless "def area = 3".toList
      ∧ ¬ IsEndless "module_function def area = 3".toList
      ∧ (Block.scan "module_function def area = 3\ndef size\n  1\nend\n".toList
          (some .ruby)).map (fun block => (block.head, block.endLine))
        = [(("area", 1), 4), (("size", 2), 4)] := by
  decide +kernel

end BlockMarks

end CodeReview
