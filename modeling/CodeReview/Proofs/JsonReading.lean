import CodeReview.Json.Printer
import CodeReview.Json.Reader
import CodeReview.Report.Machine
import Mathlib.Data.List.TakeDrop

/-! # Reading back what was written

    The layout of a report is read back: the text of a value, read as JSON,
    gives the value.  A string comes back character by character, whatever
    it holds, since each character is escaped on its own
    (`readString_escapeChar`); a number ends where its digits end; and an
    array or an object is read back as soon as its parts are
    (`readItems_of_readsBack`, `readMembers_of_readsBack`), whatever blanks
    stand between them. -/

namespace CodeReview.Json

/-! ## Blanks -/

/-- The indentation that a report puts between values is skipped. -/
theorem skipSpace_lineBreak (level : Nat) (rest : Text) :
    skipSpace (lineBreak .report level ++ rest) = skipSpace rest := by
  refine List.dropWhile_append_of_pos ?_
  intro c hc
  rcases List.mem_cons.mp hc with rfl | hspace
  · rfl
  · rw [List.eq_of_mem_replicate hspace]
    rfl

/-- Nothing is skipped in front of a character that is no blank. -/
theorem skipSpace_of_head {c : Char} (h : isSpace c = false) (rest : Text) :
    skipSpace (c :: rest) = c :: rest :=
  List.dropWhile_cons_of_neg (by rw [h]; exact Bool.false_ne_true)

/-! ## Strings -/

/-- The code unit that a text of four digits writes. -/
def unitOf? : Text → Option Nat
  | [a, b, c, d] => codeUnit? a b c d
  | _ => none

/-- Every control character comes back from its four digits. -/
theorem unitOf?_hex : ∀ n < 0x20, unitOf? (Text.hex 4 n) = some n := by
  decide

/-- A control character is written by its number, and read back from it. -/
theorem readString_unicodeEscape {c : Char} (h : c.toNat < 0x20)
    (done rest : Text) :
    readString done (unicodeEscape c.toNat ++ rest)
      = readString (c :: done) rest := by
  have hunit := unitOf?_hex c.toNat h
  unfold unitOf? at hunit
  split at hunit
  · rename_i a b c' d hhex
    have hlow : (decide (c.toNat < 0xd800) || decide (0xe000 ≤ c.toNat))
        = true := by
      rw [decide_eq_true (by omega), Bool.true_or]
    rw [unicodeEscape, hhex]
    show readString done ('\\' :: 'u' :: a :: b :: c' :: d :: rest) = _
    rw [readString, hunit]
    simp only [hlow, if_true, Char.ofNat_toNat]
  · exact nomatch hunit

/-- **ONE CHARACTER**: a character of a string is read back. -/
theorem readString_escapeChar (c : Char) (done rest : Text) :
    readString done (escapeChar false c ++ rest)
      = readString (c :: done) rest := by
  unfold escapeChar
  split
  · rename_i hc; rw [hc]; rfl
  split
  · rename_i hc; rw [hc]; rfl
  split
  · rename_i hc; rw [hc]; rfl
  split
  · rename_i hc; rw [hc]; rfl
  split
  · rename_i hc; rw [hc]; rfl
  split
  · rename_i hc; rw [hc]; rfl
  split
  · rename_i hc; rw [hc]; rfl
  split
  · rename_i hcontrol
    exact readString_unicodeEscape hcontrol done rest
  · -- what stands for itself neither ends the string nor starts an escape
    rename_i hquote hbackslash _ _ _ _ _ hcontrol
    rw [Bool.false_and, if_neg Bool.false_ne_true]
    show readString done (c :: rest) = _
    rw [readString, if_neg hcontrol]
    · exact hquote
    · intro a b c' d rest' hc _
      exact hbackslash hc
    · intro c' rest' hc _
      exact hbackslash hc

/-- The characters of a string are read back one after the other, up to the
    closing quote. -/
theorem readString_flatMap (s : Text) :
    ∀ (done rest : Text),
      readString done (s.flatMap (escapeChar false) ++ '"' :: rest)
        = some (String.ofList (done.reverse ++ s), rest) := by
  induction s with
  | nil =>
      intro done rest
      rw [List.append_nil]
      rfl
  | cons c s ih =>
      intro done rest
      rw [List.flatMap_cons, List.append_assoc, readString_escapeChar, ih,
        List.reverse_cons, List.append_assoc, List.singleton_append]

/-- A string is read back from behind its opening quote. -/
theorem readString_renderString (s : String) (rest : Text) :
    ∃ body, renderString false s ++ rest = '"' :: body
      ∧ readString [] body = some (s, rest) := by
  refine ⟨s.toList.flatMap (escapeChar false) ++ '"' :: rest, ?_, ?_⟩
  · rw [renderString, List.cons_append, List.cons_append, List.append_assoc,
      List.singleton_append]
  · rw [readString_flatMap, List.reverse_nil, List.nil_append,
      String.ofList_toList]

/-! ## Numbers -/

/-- Whether a number that stands before a text ends there. -/
def EndsNumber (rest : Text) : Prop :=
  ∀ c ∈ rest.head?, c.isDigit = false ∧ c ≠ '.' ∧ c ≠ 'e' ∧ c ≠ 'E'

/-- A number ends before any character that could not continue it. -/
theorem endsNumber_cons {c : Char} (rest : Text)
    (h : c.isDigit = false ∧ c ≠ '.' ∧ c ≠ 'e' ∧ c ≠ 'E') :
    EndsNumber (c :: rest) := by
  intro c' hc'
  cases hc'
  exact h

/-- A number ends where its line does. -/
theorem endsNumber_lineBreak (level : Nat) (rest : Text) :
    EndsNumber (lineBreak .report level ++ rest) :=
  endsNumber_cons _ (by decide)

/-- A printed natural number holds nothing but digits. -/
theorem isDigit_of_mem_toDigits {n : Nat} {c : Char}
    (h : c ∈ Nat.toDigits 10 n) : c.isDigit = true :=
  Nat.isDigit_of_mem_toDigits (by decide) (by decide) h

/-- A printed natural number starts with a digit, so it is never empty. -/
theorem exists_toDigits_eq_cons (n : Nat) :
    ∃ c digits, Nat.toDigits 10 n = c :: digits ∧ c.isDigit = true := by
  obtain ⟨c, digits, heq⟩ := List.exists_cons_of_ne_nil
    (Nat.toDigits_ne_nil : Nat.toDigits 10 n ≠ [])
  refine ⟨c, digits, heq, isDigit_of_mem_toDigits (n := n) ?_⟩
  rw [heq]
  exact List.mem_cons_self

/-- The digits of a number are read to their end and no further. -/
theorem spanDigits_toDigits (n : Nat) {rest : Text} (h : EndsNumber rest) :
    spanDigits (Nat.toDigits 10 n ++ rest) = (Nat.toDigits 10 n, rest) := by
  have hdigits : ∀ c ∈ Nat.toDigits 10 n, c.isDigit = true :=
    fun _ => isDigit_of_mem_toDigits
  have hend : rest.takeWhile Char.isDigit = []
      ∧ rest.dropWhile Char.isDigit = rest := by
    cases rest with
    | nil => exact ⟨rfl, rfl⟩
    | cons c rest =>
        have hc : ¬ c.isDigit = true := by
          rw [(h c rfl).1]
          exact Bool.false_ne_true
        exact ⟨List.takeWhile_cons_of_neg hc, List.dropWhile_cons_of_neg hc⟩
  rw [spanDigits, List.span_eq_takeWhile_dropWhile,
    List.takeWhile_append_of_pos hdigits, List.dropWhile_append_of_pos hdigits,
    hend.1, hend.2, List.append_nil]

/-- Printed digits have the value that they were printed from. -/
theorem digitsValue_toDigits (n : Nat) :
    digitsValue (Nat.toDigits 10 n) = n := by
  have hvalue : digitsValue (Nat.toDigits 10 n)
      = Nat.ofDigitChars 10 (Nat.toDigits 10 n) 0 := by
    rw [digitsValue, Nat.ofDigitChars]
    simp only [Nat.mul_comm]
  rw [hvalue, Nat.ofDigitChars_ten_toDigits]

/-- Only zero starts with a zero. -/
theorem head?_toDigits {n : Nat} (h : n ≠ 0) :
    (Nat.toDigits 10 n).head? ≠ some '0' := by
  induction n using Nat.strongRecOn with
  | ind n ih =>
      rw [Nat.toDigits_eq_if (by decide)]
      split
      · rename_i hlt
        have hdigit : ∀ d < 10, d ≠ 0 → Nat.digitChar d ≠ '0' := by decide
        rw [List.head?_cons]
        intro hhead
        exact hdigit n hlt h (Option.some.inj hhead)
      · -- the digits of a tenth come first
        rename_i hge
        have hrest := ih (n / 10) (by omega) (by omega)
        obtain ⟨c, digits, heq, _⟩ := exists_toDigits_eq_cons (n / 10)
        rw [heq] at hrest ⊢
        exact hrest

/-- No fraction is read where a number ends. -/
theorem readFraction_of_endsNumber {rest : Text} (h : EndsNumber rest) :
    readFraction rest = some ([], rest) := by
  unfold readFraction
  split
  · exact absurd rfl (h '.' rfl).2.1
  · rfl

/-- No exponent is read where a number ends. -/
theorem readExponent_of_endsNumber {rest : Text} (h : EndsNumber rest) :
    readExponent rest = some (none, rest) := by
  unfold readExponent
  split
  · rfl
  · rename_i c rest
    obtain ⟨_, _, hlower, hupper⟩ := h c rfl
    rw [if_neg]
    simp [hlower, hupper]

/-- The digits of a number are read back, without a sign and with one. -/
theorem readNumber_toDigits (n : Nat) {rest : Text} (h : EndsNumber rest) :
    readNumber (Nat.toDigits 10 n ++ rest) = some (int n, rest)
      ∧ readNumber ('-' :: (Nat.toDigits 10 n ++ rest))
        = some (int (-n), rest) := by
  have hzeros : ¬ (Nat.toDigits 10 n).length = 1 →
      ¬ (Nat.toDigits 10 n).head? = some '0' := by
    intro hlength
    refine head?_toDigits ?_
    rintro rfl
    exact hlength rfl
  have hsign : ∀ digits, Nat.toDigits 10 n ++ rest ≠ '-' :: digits := by
    intro digits heq
    obtain ⟨c, digits', hdigits, hc⟩ := exists_toDigits_eq_cons n
    rw [hdigits] at heq
    cases heq
    exact nomatch hc
  have hspan := spanDigits_toDigits n h
  have hfraction := readFraction_of_endsNumber h
  have hexponent := readExponent_of_endsNumber h
  constructor
  · simpa [readNumber, hspan, hfraction, hexponent, digitsValue_toDigits]
      using hzeros
  · simpa [readNumber, hspan, hfraction, hexponent, digitsValue_toDigits]
      using hzeros

/-- An integer is read back, with its sign. -/
theorem readNumber_toString (n : Int) {rest : Text} (h : EndsNumber rest) :
    readNumber ((toString n).toList ++ rest) = some (int n, rest) := by
  cases n with
  | ofNat n =>
      show readNumber ((Nat.repr n).toList ++ rest) = _
      rw [Nat.toList_repr]
      exact (readNumber_toDigits n h).1
  | negSucc n =>
      show readNumber (("-" ++ Nat.repr (n + 1)).toList ++ rest) = _
      rw [String.toList_append, Nat.toList_repr]
      exact (readNumber_toDigits (n + 1) h).2

/-- The text of a number starts with a digit or a sign. -/
theorem exists_toString_eq_cons (n : Int) :
    ∃ c digits, (toString n).toList = c :: digits
      ∧ (c.isDigit = true ∨ c = '-') := by
  cases n with
  | ofNat n =>
      obtain ⟨c, digits, heq, hc⟩ := exists_toDigits_eq_cons n
      refine ⟨c, digits, ?_, .inl hc⟩
      show (Nat.repr n).toList = _
      rw [Nat.toList_repr, heq]
  | negSucc n =>
      refine ⟨'-', Nat.toDigits 10 (n + 1), ?_, .inr rfl⟩
      show ("-" ++ Nat.repr (n + 1)).toList = _
      rw [String.toList_append, Nat.toList_repr]
      rfl

/-! ## Values -/

/-- A value without a point or an exponent in a number. -/
inductive Exact : Json → Prop
  | null : Exact null
  | bool (b : Bool) : Exact (bool b)
  | int (n : Int) : Exact (int n)
  | str (s : String) : Exact (str s)
  | arr {items : List Json} (h : ∀ item ∈ items, Exact item) :
      Exact (arr items)
  | obj {members : List (String × Json)} (h : ∀ m ∈ members, Exact m.2) :
      Exact (obj members)

/-- Whether a text starts a value: with no blank and no closing bracket. -/
def StartsValue (text : Text) : Prop :=
  ∃ c rest, text = c :: rest ∧ isSpace c = false ∧ c ≠ ']'

/-- Whether a value is read back from its text, whatever follows it. -/
def ReadsBack (value : Json) : Prop :=
  ∀ (level fuel : Nat) (rest : Text), EndsNumber rest →
    (renderAt .report level value).length < fuel →
    readValue constants fuel (renderAt .report level value ++ rest)
      = some (value, rest)

/-- What starts a number is none of the characters that start another
    value. -/
theorem ne_of_isDigit_or {c d : Char} (h : c.isDigit = true ∨ c = '-')
    (hd : (d.isDigit || d == '-') = false) : c ≠ d := by
  rintro rfl
  rw [Bool.or_eq_false_iff] at hd
  rcases h with hc | hc
  · rw [hc] at hd
    exact nomatch hd.1
  · rw [hc] at hd
    exact nomatch hd.2

/-- The text of a value starts with a character that is no blank and closes
    nothing. -/
theorem Exact.startsValue {value : Json} (h : Exact value) (level : Nat) :
    StartsValue (renderAt .report level value) := by
  cases h with
  | null => exact ⟨'n', _, rfl, rfl, by decide⟩
  | bool b =>
      cases b with
      | false => exact ⟨'f', _, rfl, rfl, by decide⟩
      | true => exact ⟨'t', _, rfl, rfl, by decide⟩
  | int n =>
      obtain ⟨c, digits, heq, hc⟩ := exists_toString_eq_cons n
      refine ⟨c, digits, heq, ?_, ne_of_isDigit_or hc rfl⟩
      simp [isSpace, ne_of_isDigit_or hc]
  | str s => exact ⟨'"', _, rfl, rfl, by decide⟩
  | @arr items h =>
      cases items with
      | nil => exact ⟨'[', _, rfl, rfl, by decide⟩
      | cons item items => exact ⟨'[', _, rfl, rfl, by decide⟩
  | @obj members h =>
      cases members with
      | nil => exact ⟨'{', _, rfl, rfl, by decide⟩
      | cons member members => exact ⟨'{', _, rfl, rfl, by decide⟩

/-- Integers are read back. -/
theorem readsBack_int (n : Int) : ReadsBack (int n) := by
  intro level fuel rest hrest hfuel
  have hread := readNumber_toString n hrest
  obtain ⟨c, digits, heq, hc⟩ := exists_toString_eq_cons n
  show readValue constants fuel ((toString n).toList ++ rest) = _
  rw [heq, List.cons_append] at hread ⊢
  -- none of the names starts with a digit or a sign
  have hname : readName constants (c :: (digits ++ rest)) = none := by
    have hnull : 'n' ≠ c := (ne_of_isDigit_or hc rfl).symm
    have htrue : 't' ≠ c := (ne_of_isDigit_or hc rfl).symm
    have hfalse : 'f' ≠ c := (ne_of_isDigit_or hc rfl).symm
    simp [readName, constants, afterLiteral?, hnull, htrue, hfalse]
  cases fuel with
  | zero => exact nomatch hfuel
  | succ fuel =>
      rw [readValue, hname, hread, Option.none_or]
      · exact List.cons_ne_nil _ _
      · rintro _ ⟨rfl, _⟩
        exact ne_of_isDigit_or hc rfl rfl
      · rintro _ ⟨rfl, _⟩
        exact ne_of_isDigit_or hc rfl rfl
      · rintro _ ⟨rfl, _⟩
        exact ne_of_isDigit_or hc rfl rfl

/-- Strings are read back. -/
theorem readsBack_str (s : String) : ReadsBack (str s) := by
  intro level fuel rest _ hfuel
  obtain ⟨body, heq, hread⟩ := readString_renderString s rest
  show readValue constants fuel (renderString false s ++ rest) = _
  cases fuel with
  | zero => exact nomatch hfuel
  | succ fuel =>
      rw [heq, readValue, hread]
      rfl

/-- Blanks in front of a value are passed over. -/
theorem StartsValue.skipSpace_lineBreak {text : Text} (h : StartsValue text)
    (level : Nat) (rest : Text) :
    skipSpace (lineBreak .report level ++ (text ++ rest)) = text ++ rest := by
  obtain ⟨c, text', rfl, hc, _⟩ := h
  rw [Json.skipSpace_lineBreak, List.cons_append, skipSpace_of_head hc]

/-! ## Arrays -/

/-- Each further item of an array stands on its own line, behind a comma. -/
theorem renderItems_cons (level : Nat) (item : Json) (items : List Json) :
    renderItems .report level (item :: items)
      = ',' :: (lineBreak .report level ++ (renderAt .report level item
        ++ renderItems .report level items)) := by
  rw [renderItems, List.append_assoc]
  rfl

/-- An array that is not empty stands between its brackets, one level
    deeper. -/
theorem renderAt_arr_cons (level : Nat) (item : Json) (items : List Json) :
    renderAt .report level (arr (item :: items))
      = '[' :: (lineBreak .report (level + 1)
        ++ (renderAt .report (level + 1) item
          ++ (renderItems .report (level + 1) items
            ++ (lineBreak .report level ++ [']'])))) := by
  rw [renderAt]
  simp only [List.cons_append, List.append_assoc]

/-- **THE ITEMS**: an array is read back item by item. -/
theorem readItems_of_readsBack {level : Nat} {tail rest : Text}
    (hends : EndsNumber tail) (hclose : skipSpace tail = ']' :: rest)
    (items : List Json) :
    ∀ (item : Json) (fuel : Nat),
      (∀ value ∈ item :: items, ReadsBack value
        ∧ StartsValue (renderAt .report level value)) →
      (renderAt .report level item
        ++ renderItems .report level items).length + 1 < fuel →
      readItems constants fuel (renderAt .report level item
        ++ (renderItems .report level items ++ tail))
        = some (item :: items, rest) := by
  -- at every turn the text left over is shorter by an item and a comma
  induction items with
  | nil =>
      intro item fuel h hfuel
      cases fuel with
      | zero => exact nomatch hfuel
      | succ fuel =>
          rw [renderItems, List.append_nil] at hfuel
          have hitem := (h item List.mem_cons_self).1 level fuel tail hends
            (by omega)
          rw [renderItems, List.nil_append, readItems, hitem]
          simp only [hclose]
  | cons next items ih =>
      intro item fuel h hfuel
      rw [List.forall_mem_cons] at h
      cases fuel with
      | zero => exact nomatch hfuel
      | succ fuel =>
          rw [renderItems_cons, List.length_append, List.length_cons,
            List.length_append] at hfuel
          rw [renderItems_cons, List.cons_append, List.append_assoc,
            List.append_assoc]
          have hitem := h.1.1 level fuel _
            (endsNumber_cons (lineBreak .report level
              ++ (renderAt .report level next
                ++ (renderItems .report level items ++ tail)))
              (show Char.isDigit ',' = false ∧ _ by decide)) (by omega)
          have hnext := (h.2 next List.mem_cons_self).2.skipSpace_lineBreak
            level (renderItems .report level items ++ tail)
          have hitems := ih next fuel h.2 (by omega)
          rw [readItems, hitem]
          simp only [skipSpace_of_head (show isSpace ',' = false from rfl)]
          rw [hnext, hitems]
          rfl

/-- An array is read back if its items are. -/
theorem readsBack_arr {items : List Json}
    (h : ∀ item ∈ items, ReadsBack item
      ∧ ∀ level, StartsValue (renderAt .report level item)) :
    ReadsBack (arr items) := by
  intro level fuel rest _ hfuel
  cases fuel with
  | zero => exact nomatch hfuel
  | succ fuel =>
      cases items with
      | nil => rfl
      | cons item items =>
          rw [renderAt_arr_cons] at hfuel ⊢
          have hfuel' : (renderAt .report (level + 1) item
              ++ renderItems .report (level + 1) items).length + 1 < fuel := by
            simp only [List.length_cons, List.length_append] at hfuel ⊢
            omega
          have hitems := readItems_of_readsBack
            (endsNumber_lineBreak level (']' :: rest))
            (skipSpace_lineBreak level (']' :: rest)) items item fuel
            (fun value hvalue => ⟨(h value hvalue).1,
              (h value hvalue).2 (level + 1)⟩) hfuel'
          have hitem := (h item List.mem_cons_self).2 (level + 1)
          have hskip := hitem.skipSpace_lineBreak (level + 1)
            (renderItems .report (level + 1) items
              ++ (lineBreak .report level ++ ']' :: rest))
          obtain ⟨c, text, heq, _, hne⟩ := hitem
          simp only [List.cons_append, List.append_assoc, List.nil_append]
          rw [readValue, hskip]
          rw [heq, List.cons_append] at hitems ⊢
          -- an array with an item is not taken for an empty one
          split
          · rename_i hbracket
            exact absurd (List.cons.inj hbracket).1 hne
          · rw [hitems]
            rfl

/-! ## Objects -/

/-- A member of an object as text. -/
def memberText (level : Nat) (member : String × Json) : Text :=
  renderString false member.1
    ++ (':' :: ' ' :: renderAt .report level member.2)

/-- Each further member of an object stands on its own line, behind a
    comma. -/
theorem renderMembers_cons (level : Nat) (member : String × Json)
    (members : List (String × Json)) :
    renderMembers .report level (member :: members)
      = ',' :: (lineBreak .report level ++ (memberText level member
        ++ renderMembers .report level members)) := by
  obtain ⟨name, value⟩ := member
  simp [renderMembers, separator, memberText, Style.report]

/-- An object that is not empty stands between its braces, one level
    deeper. -/
theorem renderAt_obj_cons (level : Nat) (member : String × Json)
    (members : List (String × Json)) :
    renderAt .report level (obj (member :: members))
      = '{' :: (lineBreak .report (level + 1)
        ++ (memberText (level + 1) member
          ++ (renderMembers .report (level + 1) members
            ++ (lineBreak .report level ++ ['}'])))) := by
  obtain ⟨name, value⟩ := member
  simp [renderAt, memberText, Style.report]

/-- The text of a member starts with the quote of its name. -/
theorem startsValue_memberText (level : Nat) (member : String × Json) :
    StartsValue (memberText level member) :=
  ⟨'"', _, rfl, rfl, by decide⟩

/-- What is read behind a member. -/
def readBehind (fuel : Nat) (member : String × Json) (rest : Text) :
    Option (List (String × Json) × Text) :=
  match skipSpace rest with
  | '}' :: rest => some ([member], rest)
  | ',' :: rest =>
      (readMembers constants fuel (skipSpace rest)).map
        fun (ms, rest) => (member :: ms, rest)
  | _ => none

/-- One member is read back. -/
theorem readMembers_memberText {level fuel : Nat} {member : String × Json}
    {rest : Text} (h : ReadsBack member.2)
    (hstarts : StartsValue (renderAt .report level member.2))
    (hends : EndsNumber rest) (hfuel : (memberText level member).length < fuel) :
    readMembers constants (fuel + 1) (memberText level member ++ rest)
      = readBehind fuel member rest := by
  obtain ⟨name, value⟩ := member
  have hlength : (renderAt .report level value).length < fuel := by
    simp only [memberText, List.length_append, List.length_cons] at hfuel
    omega
  have hvalue : readValue constants fuel
      (renderAt .report level value ++ rest) = some (value, rest) :=
    h level fuel rest hends hlength
  obtain ⟨body, hbody, hname⟩ := readString_renderString name
    (':' :: ' ' :: (renderAt .report level value ++ rest))
  have htext : memberText level (name, value) ++ rest = '"' :: body := by
    rw [← hbody]
    simp only [memberText, List.append_assoc, List.cons_append]
  have hblank : skipSpace (' ' :: (renderAt .report level value ++ rest))
      = renderAt .report level value ++ rest := by
    obtain ⟨c, text, heq, hc, _⟩ := hstarts
    rw [heq, List.cons_append]
    exact skipSpace_of_head hc _
  -- the name, the colon, the blank behind it and the value, in this order
  rw [htext, readMembers, hname]
  simp only [skipSpace_of_head (show isSpace ':' = false from rfl), hblank,
    hvalue]
  rfl

/-- **THE MEMBERS**: an object is read back member by member. -/
theorem readMembers_of_readsBack {level : Nat} {tail rest : Text}
    (hends : EndsNumber tail) (hclose : skipSpace tail = '}' :: rest)
    (members : List (String × Json)) :
    ∀ (member : String × Json) (fuel : Nat),
      (∀ m ∈ member :: members, ReadsBack m.2
        ∧ StartsValue (renderAt .report level m.2)) →
      (memberText level member
        ++ renderMembers .report level members).length + 1 < fuel →
      readMembers constants fuel (memberText level member
        ++ (renderMembers .report level members ++ tail))
        = some (member :: members, rest) := by
  -- induction over the members behind the first, with the first one general
  induction members with
  | nil =>
      intro member fuel h hfuel
      rw [List.forall_mem_cons] at h
      cases fuel with
      | zero => exact nomatch hfuel
      | succ fuel =>
          rw [renderMembers, List.append_nil] at hfuel
          rw [renderMembers, List.nil_append,
            -- behind the last member stands the brace
            readMembers_memberText h.1.1 h.1.2 hends (by omega), readBehind,
            hclose]
          rfl
  | cons next members ih =>
      intro member fuel h hfuel
      rw [List.forall_mem_cons] at h
      cases fuel with
      | zero => exact nomatch hfuel
      | succ fuel =>
          rw [renderMembers_cons, List.length_append, List.length_cons,
            List.length_append] at hfuel
          -- the comma and the line break are skipped, up to the quote of
          -- the next name
          have hnext := (startsValue_memberText level next).skipSpace_lineBreak
            level (renderMembers .report level members ++ tail)
          have hmembers := ih next fuel h.2 (by omega)
          rw [renderMembers_cons, List.cons_append, List.append_assoc,
            List.append_assoc, readMembers_memberText h.1.1 h.1.2
              (endsNumber_cons _ (by decide)) (by omega), readBehind,
            skipSpace_of_head rfl]
          show (readMembers constants fuel _).map _ = _
          rw [hnext, hmembers]
          rfl

/-- An object is read back if the values of its members are; the names are
    strings. -/
theorem readsBack_obj {members : List (String × Json)}
    (h : ∀ m ∈ members, ReadsBack m.2
      ∧ ∀ level, StartsValue (renderAt .report level m.2)) :
    ReadsBack (obj members) := by
  intro level fuel rest _ hfuel
  cases fuel with
  | zero => exact nomatch hfuel
  | succ fuel =>
      cases members with
      | nil => rfl
      | cons member members =>
          rw [renderAt_obj_cons] at hfuel ⊢
          -- the braces and the line breaks account for the fuel that is
          -- used up here
          have hfuel' : (memberText (level + 1) member
              ++ renderMembers .report (level + 1) members).length + 1
              < fuel := by
            simp only [List.length_cons, List.length_append] at hfuel ⊢
            omega
          have hmembers := readMembers_of_readsBack
            (endsNumber_lineBreak level ('}' :: rest))
            (skipSpace_lineBreak level ('}' :: rest)) members member fuel
            (fun m hm => ⟨(h m hm).1, (h m hm).2 (level + 1)⟩) hfuel'
          have hskip := (startsValue_memberText (level + 1) member)
            |>.skipSpace_lineBreak (level + 1)
              (renderMembers .report (level + 1) members
                ++ (lineBreak .report level ++ '}' :: rest))
          simp only [List.cons_append, List.append_assoc, List.nil_append]
          rw [readValue, hskip]
          split
          · rename_i hbrace
            exact absurd (List.cons.inj hbrace).1 (by decide)
          · rw [hmembers]
            rfl

/-- Every value that is written exactly is read back, by induction over the
    value. -/
theorem Exact.readsBack {value : Json} (h : Exact value) :
    ReadsBack value := by
  induction h with
  | null =>
      intro level fuel rest _ hfuel
      cases fuel with
      | zero => exact nomatch hfuel
      | succ fuel => rfl
  | bool b =>
      intro level fuel rest _ hfuel
      cases fuel with
      | zero => exact nomatch hfuel
      | succ fuel =>
          cases b with
          | false => rfl
          | true => rfl
  | int n => exact readsBack_int n
  | str s => exact readsBack_str s
  | arr h ih => exact readsBack_arr fun item hitem =>
      ⟨ih item hitem, (h item hitem).startsValue⟩
  | obj h ih => exact readsBack_obj fun m hm =>
      ⟨ih m hm, (h m hm).startsValue⟩

/-- **ROUND TRIP**: the text of a value without points and exponents is
    read back. -/
theorem read?_render {value : Json} (h : Exact value) :
    read? (render .report value) = some value := by
  have hread := h.readsBack 0 ((renderAt .report 0 value).length + 1) []
    (fun _ hc => nomatch hc) (Nat.lt_succ_self _)
  obtain ⟨c, text, heq, hc, _⟩ := h.startsValue 0
  rw [List.append_nil] at hread
  rw [read?, readWhole, render]
  simp only [String.toList_ofList]
  rw [heq] at hread ⊢
  rw [skipSpace_of_head hc, hread]
  rfl

end CodeReview.Json
