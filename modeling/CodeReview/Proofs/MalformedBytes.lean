import CodeReview.Proofs.Decoding
import Mathlib.Data.List.Basic

/-! # Bytes that are no text

    A sequence of one to four bytes carries a value, and the UTF-8 form of a
    character is the narrowest sequence that has room for its value
    (`utf8EncodeChar_eq`).  A sequence gives its width and its value away
    (`sequence_inj`), so bytes with a sequence that is too wide for its
    value, carries the value of no character or breaks off are the form of
    no text.  All other bytes can be cut into such shortest sequences
    (`forms_no_text_iff`). -/

namespace CodeReview.Text

/-! ## Sequences and their values -/

/-- How many bytes a sequence has. -/
inductive Width where
  | one
  | two
  | three
  | four
deriving DecidableEq

namespace Width

/-- The number of continuation bytes. -/
def tails : Width → Nat
  | one => 0
  | two => 1
  | three => 2
  | four => 3

/-- The values that a sequence has room for are those below this one. -/
def room : Width → Nat
  | one => 0x80
  | two => 0x800
  | three => 0x10000
  | four => 0x200000

/-- The narrowest width with room for a value. -/
def least (value : Nat) : Width :=
  if value < 0x80 then one
  else if value < 0x800 then two
  else if value < 0x10000 then three
  else four

/-- The first byte of the sequence that carries a value. -/
def lead (value : Nat) : Width → Nat
  | one => value
  | two => 0xc0 + value / 64
  | three => 0xe0 + value / 4096
  | four => 0xf0 + value / 262144

end Width

/-- Whether a byte goes on with a sequence. -/
def Continues (b : UInt8) : Prop := 0x80 ≤ b.toNat ∧ b.toNat < 0xc0

instance (b : UInt8) : Decidable (Continues b) :=
  inferInstanceAs (Decidable (_ ∧ _))

/-- The continuation byte with the lowest six bits of a value. -/
def sextet (value : Nat) : UInt8 := .ofNat (0x80 + value % 64)

/-- The continuation bytes of the sequence that carries a value. -/
def continuation (value : Nat) : Width → List UInt8
  | .one => []
  | .two => [sextet value]
  | .three => [sextet (value / 64), sextet value]
  | .four => [sextet (value / 4096), sextet (value / 64), sextet value]

/-- The sequence of some width that carries a value. -/
def sequence (value : Nat) (width : Width) : List UInt8 :=
  .ofNat (width.lead value) :: continuation value width

/-- A continuation byte carries six bits above its fixed ones. -/
theorem toNat_sextet (value : Nat) :
    (sextet value).toNat = 0x80 + value % 64 :=
  toNat_ofNat_of_lt (by omega) rfl

/-- What carries six bits is a continuation byte. -/
theorem continues_sextet (value : Nat) : Continues (sextet value) := by
  rw [Continues, toNat_sextet]
  omega

/-- A continuation byte gives its six bits away. -/
theorem sextet_inj {v w : Nat} (h : sextet v = sextet w) :
    v % 64 = w % 64 := by
  have hnat := congrArg UInt8.toNat h
  rw [toNat_sextet, toNat_sextet] at hnat
  omega

/-- Every byte of a sequence behind its first is a continuation byte. -/
theorem continues_of_mem_continuation {value : Nat} {width : Width}
    {b : UInt8} (h : b ∈ continuation value width) : Continues b := by
  have hsextet : ∃ v, b = sextet v := by
    cases width <;> simp only [continuation, List.mem_cons, List.not_mem_nil,
      or_false] at h
    · exact ⟨_, h⟩
    · rcases h with h | h <;> exact ⟨_, h⟩
    · rcases h with h | h | h <;> exact ⟨_, h⟩
  obtain ⟨v, rfl⟩ := hsextet
  exact continues_sextet v

/-- The width of a sequence says how many bytes follow its first. -/
theorem length_continuation (value : Nat) (width : Width) :
    (continuation value width).length = width.tails := by
  cases width <;> rfl

section Room

variable {value : Nat} {width : Width} (h : value < width.room)
include h

/-- No sequence starts with a byte that goes on with one, nor with one of
    the last eight bytes. -/
theorem lead_bounds :
    (width.lead value < 0x80 ∨ 0xc0 ≤ width.lead value)
      ∧ width.lead value < 0xf8 := by
  cases width <;> simp only [Width.room, Width.lead] at h ⊢ <;> omega

/-- The first byte of a sequence has the value that its width gives it. -/
theorem toNat_lead :
    (UInt8.ofNat (width.lead value)).toNat = width.lead value :=
  toNat_ofNat_of_lt (Nat.lt_trans (lead_bounds h).2 (by decide)) rfl

/-- The first byte of a sequence tells its width. -/
theorem width_eq_of_lead {value' : Nat} {width' : Width}
    (h' : value' < width'.room)
    (heq : UInt8.ofNat (width.lead value) = .ofNat (width'.lead value')) :
    width = width' ∧ width.lead value = width'.lead value' := by
  have hlead : width.lead value = width'.lead value' := by
    rw [← toNat_lead h, ← toNat_lead h', heq]
  refine ⟨?_, hlead⟩
  cases width <;> cases width' <;>
    simp only [Width.room, Width.lead] at h h' hlead <;>
    first
      | rfl
      | omega

/-- The bytes of a sequence tell its value. -/
theorem value_eq_of_bytes {value' : Nat}
    (hlead : width.lead value = width.lead value')
    (htail : continuation value width = continuation value' width) :
    value = value' := by
  cases width with
  | one => exact hlead
  | two =>
      obtain ⟨hlow, _⟩ := List.cons.inj htail
      have := sextet_inj hlow
      simp only [Width.lead] at hlead
      omega
  | three =>
      obtain ⟨hhigh, htail⟩ := List.cons.inj htail
      obtain ⟨hlow, _⟩ := List.cons.inj htail
      have := sextet_inj hhigh
      have := sextet_inj hlow
      simp only [Width.lead] at hlead
      omega
  | four =>
      obtain ⟨hhigh, htail⟩ := List.cons.inj htail
      obtain ⟨hmiddle, htail⟩ := List.cons.inj htail
      obtain ⟨hlow, _⟩ := List.cons.inj htail
      have := sextet_inj hhigh
      have := sextet_inj hmiddle
      have := sextet_inj hlow
      simp only [Width.lead] at hlead
      omega

/-- **ONE READING**: bytes start with one sequence only, of one value. -/
theorem sequence_inj {value' : Nat} {width' : Width} {xs ys : List UInt8}
    (h' : value' < width'.room)
    (heq : sequence value width ++ xs = sequence value' width' ++ ys) :
    width = width' ∧ value = value' ∧ xs = ys := by
  obtain ⟨hfirst, hrest⟩ := List.cons.inj heq
  obtain ⟨rfl, hlead⟩ := width_eq_of_lead h h' hfirst
  obtain ⟨htail, hxs⟩ := List.append_inj hrest
    (by rw [length_continuation, length_continuation])
  exact ⟨rfl, value_eq_of_bytes h hlead htail, hxs⟩

end Room

/-! ## Characters -/

/-- The number of a character is that of a character. -/
theorem isValidChar_toNat (c : Char) : c.toNat.isValidChar := c.valid

/-- A value fits into the least width that is chosen for it. -/
theorem lt_room_least {value : Nat} (h : value.isValidChar) :
    value < (Width.least value).room := by
  rw [Nat.isValidChar] at h
  rw [Width.least]
  repeat' split
  all_goals simp only [Width.room]; omega

/-- **SHORTEST FORMS**: the form of a character is the narrowest sequence
    that has room for its value. -/
theorem utf8EncodeChar_eq (c : Char) :
    String.utf8EncodeChar c
      = sequence c.toNat (Width.least c.toNat) := by
  have hvalid := isValidChar_toNat c
  have hroom := lt_room_least hvalid
  have hlead := toNat_lead hroom
  have hchar : Char.ofNat c.toNat = c := Char.ofNat_toNat c
  -- only the number of the character matters from here on
  generalize c.toNat = n at hvalid hroom hlead hchar
  subst hchar
  by_cases hone : n < 0x80
  · rw [Width.least, if_pos hone] at hlead ⊢
    have hform := utf8EncodeChar_one (b := .ofNat n) (hlead.symm ▸ hone)
    rwa [show (UInt8.ofNat n).toNat = n from hlead] at hform
  · by_cases htwo : n < 0x800
    · rw [Width.least, if_neg hone, if_pos htwo] at hlead ⊢
      exact utf8EncodeChar_two (Nat.le_of_not_lt hone) htwo
        ((Nat.add_comm _ _).trans hlead.symm)
        ((Nat.add_comm _ _).trans (toNat_sextet n).symm)
    · by_cases hthree : n < 0x10000
      · rw [Width.least, if_neg hone, if_neg htwo, if_pos hthree] at hlead ⊢
        exact utf8EncodeChar_three (Nat.le_of_not_lt htwo) hthree hvalid
          ((Nat.add_comm _ _).trans hlead.symm)
          ((Nat.add_comm _ _).trans (toNat_sextet _).symm)
          ((Nat.add_comm _ _).trans (toNat_sextet n).symm)
      · rw [Width.least, if_neg hone, if_neg htwo, if_neg hthree] at hlead ⊢
        have hmax : n < 0x110000 := by
          rw [Nat.isValidChar] at hvalid
          omega
        exact utf8EncodeChar_four (Nat.le_of_not_lt hthree) hmax
          ((Nat.add_comm _ _).trans hlead.symm)
          ((Nat.add_comm _ _).trans (toNat_sextet _).symm)
          ((Nat.add_comm _ _).trans (toNat_sextet _).symm)
          ((Nat.add_comm _ _).trans (toNat_sextet n).symm)

/-- A text is encoded as the shortest sequences of its characters. -/
theorem encode_eq_sequence_append (c : Char) (text : Text) :
    encode (c :: text)
      = sequence c.toNat (Width.least c.toNat) ++ encode text := by
  rw [encode_cons, utf8EncodeChar_eq]

/-- What a form goes on with behind another one is a form itself. -/
theorem exists_encode_eq {front text : Text} {bytes : List UInt8}
    (h : encode text = encode front ++ bytes) :
    ∃ back, encode back = bytes := by
  induction front generalizing text with
  | nil => exact ⟨text, h⟩
  | cons c front ih =>
      rw [encode_eq_sequence_append, List.append_assoc] at h
      cases text with
      | nil => exact nomatch h
      | cons d text =>
          rw [encode_eq_sequence_append] at h
          exact ih (sequence_inj (lt_room_least (isValidChar_toNat d))
            (lt_room_least (isValidChar_toNat c)) h).2.2

/-! ## Malformed bytes -/

/-- Bytes that start as no text does. -/
inductive Malformed : List UInt8 → Prop where
  /-- A continuation byte that no sequence comes before. -/
  | stray {b : UInt8} (h : Continues b) (rest : List UInt8) :
      Malformed (b :: rest)
  /-- A byte that is in no sequence. -/
  | unused {b : UInt8} (h : 0xf8 ≤ b.toNat) (rest : List UInt8) :
      Malformed (b :: rest)
  /-- A sequence that is wider than its value needs. -/
  | overlong {value : Nat} {width : Width} (hroom : value < width.room)
      (h : (Width.least value).tails < width.tails) (rest : List UInt8) :
      Malformed (sequence value width ++ rest)
  /-- A sequence that carries half of a surrogate pair. -/
  | surrogate {value : Nat} (h : 0xd800 ≤ value) (h' : value ≤ 0xdfff)
      (rest : List UInt8) : Malformed (sequence value .three ++ rest)
  /-- A sequence that carries a value above those of all characters. -/
  | tooLarge {value : Nat} (hroom : value < Width.four.room)
      (h : 0x10ffff < value) (rest : List UInt8) :
      Malformed (sequence value .four ++ rest)
  /-- A sequence without some of its last bytes. -/
  | truncated {value : Nat} {width : Width} (hroom : value < width.room)
      {n : Nat} (h : n < width.tails) {rest : List UInt8}
      (hrest : ∀ b ∈ rest.head?, ¬ Continues b) :
      Malformed ((sequence value width).take (n + 1) ++ rest)

/-- A text starts with a byte that sequences start with. -/
theorem first_of_encode {text : Text} {b : UInt8} {rest : List UInt8}
    (h : encode text = b :: rest) : ¬ Continues b ∧ b.toNat < 0xf8 := by
  cases text with
  | nil => exact nomatch h
  | cons c text =>
      rw [encode_eq_sequence_append] at h
      obtain ⟨rfl, _⟩ := List.cons.inj h
      have hroom := lt_room_least (isValidChar_toNat c)
      have hbounds := lead_bounds hroom
      rw [Continues, toNat_lead hroom]
      omega

/-- A text starts with the narrowest sequence of a character. -/
theorem sequence_of_encode {value : Nat} {width : Width} {text : Text}
    {rest : List UInt8} (hroom : value < width.room)
    (h : encode text = sequence value width ++ rest) :
    width = Width.least value ∧ value.isValidChar := by
  cases text with
  | nil => exact nomatch h
  | cons c text =>
      rw [encode_eq_sequence_append] at h
      obtain ⟨rfl, rfl, _⟩ := sequence_inj
        (lt_room_least (isValidChar_toNat c)) hroom h
      exact ⟨rfl, isValidChar_toNat c⟩

/-- Where a text starts with a part of a sequence, the next byte goes on with
    it. -/
theorem continues_of_truncated {value : Nat} {width : Width}
    (hroom : value < width.room) {n : Nat} (hn : n < width.tails)
    {text : Text} {rest : List UInt8}
    (h : encode text = (sequence value width).take (n + 1) ++ rest) :
    ∃ b ∈ rest.head?, Continues b := by
  cases text with
  | nil => exact nomatch h
  | cons c text =>
      rw [encode_eq_sequence_append, sequence, sequence,
        List.take_succ_cons] at h
      obtain ⟨hfirst, hbytes⟩ := List.cons.inj h
      -- both sequences are of one width, and so the whole one goes on
      obtain ⟨hwidth, _⟩ := width_eq_of_lead
        (lt_room_least (isValidChar_toNat c)) hroom hfirst
      let whole := continuation c.toNat (Width.least c.toNat)
      have hwhole : n < whole.length := by
        rw [length_continuation, hwidth]
        exact hn
      have htake : ((continuation value width).take n).length = n := by
        rw [List.length_take, length_continuation]
        omega
      have hrest : rest = whole.drop n ++ encode text := by
        rw [← List.drop_append_of_le_length (Nat.le_of_lt hwhole)]
        refine Eq.trans ?_ (congrArg (List.drop n) hbytes).symm
        exact (List.drop_left' htake).symm
      rw [hrest, List.drop_eq_getElem_cons hwhole]
      exact ⟨_, rfl, continues_of_mem_continuation (List.getElem_mem hwhole)⟩

/-- Bytes that are malformed, be it behind a text, are the form of no
    text. -/
theorem encode_ne_of_malformed {bytes : List UInt8} (h : Malformed bytes)
    (front text : Text) : encode text ≠ encode front ++ bytes := by
  intro hform
  obtain ⟨back, hback⟩ := exists_encode_eq hform
  cases h with
  | stray hb rest => exact (first_of_encode hback).1 hb
  | unused hb rest => exact absurd (first_of_encode hback).2 (by omega)
  | overlong hroom hwide rest =>
      obtain ⟨hwidth, _⟩ := sequence_of_encode hroom hback
      rw [hwidth] at hwide
      exact Nat.lt_irrefl _ hwide
  | surrogate hlow hhigh rest =>
      have hroom := Nat.lt_of_le_of_lt hhigh (by decide : _ < Width.three.room)
      obtain ⟨_, hvalid⟩ := sequence_of_encode hroom hback
      rw [Nat.isValidChar] at hvalid
      omega
  | tooLarge hroom hlow rest =>
      obtain ⟨_, hvalid⟩ := sequence_of_encode hroom hback
      rw [Nat.isValidChar] at hvalid
      omega
  | truncated hroom hn hrest =>
      obtain ⟨b, hb, hcontinues⟩ := continues_of_truncated hroom hn hback
      exact hrest b hb hcontinues

/-! ## Well-formed bytes -/

/-- What goes on with a sequence of a width is cut off: as many bytes as the
    sequence needs, or fewer and none that goes on with it behind them. -/
theorem exists_continuation (n : Nat) (bytes : List UInt8) :
    ∃ tail rest, bytes = tail ++ rest ∧ (∀ b ∈ tail, Continues b)
      ∧ tail.length ≤ n
      ∧ (tail.length < n → ∀ b ∈ rest.head?, ¬ Continues b) := by
  induction n generalizing bytes with
  | zero => exact ⟨[], bytes, rfl, by simp, Nat.le_refl 0, fun h => nomatch h⟩
  | succ n ih =>
      cases bytes with
      | nil => exact ⟨[], [], rfl, by simp, Nat.zero_le _, by simp⟩
      | cons b bytes =>
          by_cases hb : Continues b
          · obtain ⟨tail, rest, rfl, htail, hle, hrest⟩ := ih bytes
            exact ⟨b :: tail, rest, rfl, List.forall_mem_cons.mpr ⟨hb, htail⟩,
              Nat.succ_le_succ hle, fun h => hrest (Nat.lt_of_succ_lt_succ h)⟩
          · exact ⟨[], b :: bytes, rfl, by simp, Nat.zero_le _, by simp [hb]⟩

/-- A byte with the value of a continuation byte is that byte. -/
theorem sextet_eq_of_toNat {value : Nat} {b : UInt8}
    (h : 0x80 + value % 64 = b.toNat) : sextet value = b :=
  ofNat_eq_of_toNat h

/-- A byte that sequences start with announces a width, and all bytes of
    that width that go on with it carry a value. -/
theorem exists_width {b : UInt8} (hb : ¬ Continues b) (hmax : b.toNat < 0xf8) :
    ∃ width : Width, ∀ tail : List UInt8, (∀ t ∈ tail, Continues t) →
      tail.length = width.tails →
      ∃ value, value < width.room ∧ sequence value width = b :: tail := by
  rw [Continues] at hb
  -- the first byte decides the width; the value is put together from the
  -- bits that the bytes carry
  by_cases hone : b.toNat < 0x80
  · refine ⟨.one, fun tail _ hlength => ⟨b.toNat, hone, ?_⟩⟩
    rw [List.eq_nil_of_length_eq_zero hlength]
    exact congrArg (List.cons · []) (ofNat_eq_of_toNat rfl)
  · by_cases htwo : b.toNat < 0xe0
    · refine ⟨.two, fun tail htail hlength => ?_⟩
      obtain ⟨c, rfl⟩ := List.length_eq_one_iff.mp hlength
      have hc : Continues c := htail c (by simp)
      rw [Continues] at hc
      refine ⟨(b.toNat - 0xc0) * 64 + (c.toNat - 0x80), ?_, ?_⟩
      · simp only [Width.room]
        omega
      · simp only [sequence, Width.lead, continuation, List.cons.injEq,
          and_true]
        exact ⟨ofNat_eq_of_toNat (by omega), sextet_eq_of_toNat (by omega)⟩
    · by_cases hthree : b.toNat < 0xf0
      · refine ⟨.three, fun tail htail hlength => ?_⟩
        obtain ⟨c, d, rfl⟩ := List.length_eq_two.mp hlength
        have hc : Continues c := htail c (by simp)
        have hd : Continues d := htail d (by simp)
        rw [Continues] at hc hd
        refine ⟨(b.toNat - 0xe0) * 4096 + (c.toNat - 0x80) * 64
          + (d.toNat - 0x80), ?_, ?_⟩
        · simp only [Width.room]
          omega
        · simp only [sequence, Width.lead, continuation, List.cons.injEq,
            and_true]
          exact ⟨ofNat_eq_of_toNat (by omega), sextet_eq_of_toNat (by omega),
            sextet_eq_of_toNat (by omega)⟩
      · refine ⟨.four, fun tail htail hlength => ?_⟩
        obtain ⟨c, d, e, rfl⟩ := List.length_eq_three.mp hlength
        have hc : Continues c := htail c (by simp)
        have hd : Continues d := htail d (by simp)
        have he : Continues e := htail e (by simp)
        rw [Continues] at hc hd he
        refine ⟨(b.toNat - 0xf0) * 262144 + (c.toNat - 0x80) * 4096
          + (d.toNat - 0x80) * 64 + (e.toNat - 0x80), ?_, ?_⟩
        · simp only [Width.room]
          omega
        · simp only [sequence, Width.lead, continuation, List.cons.injEq,
            and_true]
          exact ⟨ofNat_eq_of_toNat (by omega), sextet_eq_of_toNat (by omega),
            sextet_eq_of_toNat (by omega), sextet_eq_of_toNat (by omega)⟩

/-- A sequence is the form of a character, or it is malformed. -/
theorem sequence_form_or_malformed {value : Nat} {width : Width}
    (hroom : value < width.room) (rest : List UInt8) :
    (∃ c, String.utf8EncodeChar c = sequence value width)
      ∨ Malformed (sequence value width ++ rest) := by
  by_cases hwidth : Width.least value = width
  · subst hwidth
    by_cases hvalid : value.isValidChar
    · refine .inl ⟨Char.ofNat value, ?_⟩
      have hvalue : (Char.ofNat value).toNat = value := toNat_val_ofNat hvalid
      rw [utf8EncodeChar_eq, hvalue]
    · -- the shortest sequence of a value that is no character's
      rw [Nat.isValidChar] at hvalid
      by_cases hlarge : 0x10ffff < value
      · have hfour : Width.least value = .four := by
          rw [Width.least, if_neg (by omega), if_neg (by omega),
            if_neg (by omega)]
        rw [hfour] at hroom ⊢
        exact .inr (.tooLarge hroom hlarge rest)
      · have hthree : Width.least value = .three := by
          rw [Width.least, if_neg (by omega), if_neg (by omega),
            if_pos (by omega)]
        rw [hthree]
        exact .inr (.surrogate (by omega) (by omega) rest)
  · -- a wider sequence than the value needs
    refine .inr (.overlong hroom ?_ rest)
    rw [Width.least] at hwidth ⊢
    cases width <;> simp only [Width.room] at hroom <;> repeat' split at hwidth
    all_goals first
      | exact absurd rfl hwidth
      | simp [Width.tails, *]

/-- Bytes start with the form of a character, or they are malformed. -/
theorem starts_or_malformed {bytes : List UInt8} (h : bytes ≠ []) :
    (∃ c rest, bytes = String.utf8EncodeChar c ++ rest) ∨ Malformed bytes := by
  obtain ⟨b, bytes, rfl⟩ := List.exists_cons_of_ne_nil h
  by_cases hstray : Continues b
  · exact .inr (.stray hstray bytes)
  · by_cases hunused : b.toNat < 0xf8
    · obtain ⟨width, hwidth⟩ := exists_width hstray hunused
      -- as many continuation bytes as are there, and no more than the width
      -- wants
      obtain ⟨tail, rest, rfl, htail, hle, hrest⟩ :=
        exists_continuation width.tails bytes
      rcases Nat.lt_or_eq_of_le hle with hlt | hlength
      · -- any bytes in place of the missing ones make it a whole sequence
        let missing := List.replicate (width.tails - tail.length) (sextet 0)
        obtain ⟨value, hroom, hsequence⟩ := hwidth (tail ++ missing)
          (fun t ht => (List.mem_append.mp ht).elim (htail t) fun hmissing =>
            List.eq_of_mem_replicate hmissing ▸ continues_sextet 0)
          (by rw [List.length_append, List.length_replicate]; omega)
        have htake : (sequence value width).take (tail.length + 1)
            = b :: tail := by
          rw [hsequence, List.take_succ_cons, List.take_left]
        have hbad := Malformed.truncated hroom hlt (hrest hlt)
        rw [htake] at hbad
        exact .inr hbad
      · obtain ⟨value, hroom, hsequence⟩ := hwidth tail htail hlength
        have hbytes : b :: (tail ++ rest) = sequence value width ++ rest := by
          rw [hsequence]
          rfl
        rw [hbytes]
        refine (sequence_form_or_malformed hroom rest).imp_left ?_
        rintro ⟨c, hc⟩
        exact ⟨c, rest, by rw [hc]⟩
    · exact .inr (.unused (Nat.le_of_not_lt hunused) bytes)

/-- Bytes are the form of a text, or they are malformed behind one. -/
theorem forms_text_or_malformed (bytes : List UInt8) :
    (∃ text, encode text = bytes)
      ∨ ∃ front bad, bytes = encode front ++ bad ∧ Malformed bad := by
  by_cases hnil : bytes = []
  · exact .inl ⟨[], hnil.symm⟩
  · rcases starts_or_malformed hnil with ⟨c, rest, hbytes⟩ | hbad
    · have hshorter : rest.length < bytes.length := by
        rw [hbytes, List.length_append, utf8EncodeChar_eq, sequence,
          List.length_cons]
        omega
      rcases forms_text_or_malformed rest with
        ⟨text, rfl⟩ | ⟨front, bad, rfl, hbad⟩
      · exact .inl ⟨c :: text, hbytes.symm⟩
      · refine .inr ⟨c :: front, bad, ?_, hbad⟩
        rw [hbytes, encode_cons, List.append_assoc]
    · exact .inr ⟨[], bytes, rfl, hbad⟩
termination_by bytes.length

/-- **MALFORMED BYTES**: bytes are the form of no text exactly if they are
    malformed, be it behind a text. -/
theorem forms_no_text_iff (bytes : List UInt8) :
    (∀ text, encode text ≠ bytes)
      ↔ ∃ front bad, bytes = encode front ++ bad ∧ Malformed bad := by
  constructor
  · intro hno
    refine (forms_text_or_malformed bytes).resolve_left ?_
    rintro ⟨text, htext⟩
    exact hno text htext
  · rintro ⟨front, bad, rfl, hbad⟩ text
    exact encode_ne_of_malformed hbad front text

end CodeReview.Text
