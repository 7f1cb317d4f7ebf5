import CodeReview.Text.Utf8

/-! # Bytes that are read as text

    The reader of UTF-8 accepts the UTF-8 form of a text and nothing else
    (`decode_eq_ok_iff`).  The bounds of the byte behind the first one keep
    out overlong forms, surrogates and values beyond the last code point, so
    that every accepted sequence has the value of a character whose form it
    is; and they keep out nothing that is the form of a character. -/

namespace CodeReview.Text

/-- A continuation byte that was accepted lies within its bounds. -/
theorem utf8Tail_succ_eq_ok {low high : UInt8} {bits tails n : Nat}
    {bytes : List UInt8}
    (h : utf8Tail low high bits (tails + 1) bytes = .ok n) :
    ∃ b rest, bytes = b :: rest ∧ low.toNat ≤ b.toNat ∧ b.toNat ≤ high.toNat
      ∧ utf8Tail 0x80 0xbf (bits * 64 + b.toNat % 64) tails rest = .ok n := by
  cases bytes with
  | nil => exact nomatch h
  | cons b rest =>
      rw [utf8Tail] at h
      split at h
      · rename_i hbounds
        rw [Bool.and_eq_true, decide_eq_true_iff, decide_eq_true_iff] at hbounds
        split at h
        · rename_i m hm
          cases h
          exact ⟨b, rest, rfl, hbounds.1, hbounds.2, hm⟩
        · exact nomatch h
      · exact nomatch h

/-- What the first byte of a longer sequence announces, by the number of
    bytes that follow it. -/
theorem utf8Lead?_eq_some {b : UInt8} {lead : Utf8Lead}
    (h : utf8Lead? b = some lead) :
    (0x80 ≤ lead.low.toNat ∧ lead.high.toNat ≤ 0xbf)
      ∧ ((lead.tails = 1 ∧ lead.bits + 0xc0 = b.toNat
            ∧ 2 ≤ lead.bits ∧ lead.bits < 0x20)
        ∨ (lead.tails = 2 ∧ lead.bits + 0xe0 = b.toNat ∧ lead.bits < 0x10
            ∧ (lead.bits = 0 → 0xa0 ≤ lead.low.toNat)
            ∧ (lead.bits = 0xd → lead.high.toNat ≤ 0x9f))
        ∨ (lead.tails = 3 ∧ lead.bits + 0xf0 = b.toNat ∧ lead.bits ≤ 4
            ∧ (lead.bits = 0 → 0x90 ≤ lead.low.toNat)
            ∧ (lead.bits = 4 → lead.high.toNat ≤ 0x8f))) := by
  unfold utf8Lead? at h
  simp only at h
  repeat' split at h
  all_goals cases h
  all_goals simp
  all_goals omega

/-- The character of a valid number has that number. -/
theorem toNat_val_ofNat {n : Nat} (h : n.isValidChar) :
    (Char.ofNat n).val.toNat = n := by
  rw [Char.ofNat, dif_pos h]
  rfl

/-- A byte is known by its value. -/
theorem ofNat_eq_of_toNat {n : Nat} {b : UInt8} (h : n = b.toNat) :
    UInt8.ofNat n = b := by
  rw [h, UInt8.ofNat_toNat]

/-- An ASCII character is its own byte. -/
theorem utf8EncodeChar_one {b : UInt8} (h : b.toNat < 0x80) :
    String.utf8EncodeChar (Char.ofNat b.toNat) = [b] := by
  have hvalue := toNat_val_ofNat (n := b.toNat) (.inl (by omega))
  unfold String.utf8EncodeChar
  simp only [hvalue]
  rw [if_pos (by omega), UInt8.ofNat_toNat]

/-- The two bytes of a character, from its number. -/
theorem utf8EncodeChar_two {n : Nat} {b c : UInt8}
    (hmin : 0x80 ≤ n) (hmax : n < 0x800)
    (hb : n / 64 + 0xc0 = b.toNat) (hc : n % 64 + 0x80 = c.toNat) :
    String.utf8EncodeChar (Char.ofNat n) = [b, c] := by
  have hvalue := toNat_val_ofNat (n := n) (.inl (by omega))
  unfold String.utf8EncodeChar
  simp only [hvalue]
  rw [if_neg (by omega), if_pos (by omega),
    ofNat_eq_of_toNat (b := b) (by omega), ofNat_eq_of_toNat hc]

/-- The three bytes of a character, from its number. -/
theorem utf8EncodeChar_three {n : Nat} {b c d : UInt8}
    (hmin : 0x800 ≤ n) (hmax : n < 0x10000) (hchar : n.isValidChar)
    (hb : n / 4096 + 0xe0 = b.toNat) (hc : n / 64 % 64 + 0x80 = c.toNat)
    (hd : n % 64 + 0x80 = d.toNat) :
    String.utf8EncodeChar (Char.ofNat n) = [b, c, d] := by
  unfold String.utf8EncodeChar
  simp only [toNat_val_ofNat hchar]
  rw [if_neg (by omega), if_neg (by omega), if_pos (by omega),
    ofNat_eq_of_toNat (b := b) (by omega), ofNat_eq_of_toNat hc,
    ofNat_eq_of_toNat hd]

/-- The four bytes of a character, from its number. -/
theorem utf8EncodeChar_four {n : Nat} {b c d e : UInt8}
    (hmin : 0x10000 ≤ n) (hmax : n < 0x110000)
    (hb : n / 262144 + 0xf0 = b.toNat) (hc : n / 4096 % 64 + 0x80 = c.toNat)
    (hd : n / 64 % 64 + 0x80 = d.toNat) (he : n % 64 + 0x80 = e.toNat) :
    String.utf8EncodeChar (Char.ofNat n) = [b, c, d, e] := by
  have hvalue := toNat_val_ofNat (n := n) (.inr ⟨by omega, hmax⟩)
  unfold String.utf8EncodeChar
  simp only [hvalue]
  rw [if_neg (by omega), if_neg (by omega), if_neg (by omega),
    ofNat_eq_of_toNat (b := b) (by omega), ofNat_eq_of_toNat hc,
    ofNat_eq_of_toNat hd, ofNat_eq_of_toNat he]

/-- A sequence that was accepted is the UTF-8 form of its character. -/
theorem utf8EncodeChar_of_lead {b : UInt8} {lead : Utf8Lead}
    {bytes : List UInt8} {n : Nat} (hlead : utf8Lead? b = some lead)
    (htail : utf8Tail lead.low lead.high lead.bits lead.tails bytes = .ok n) :
    String.utf8EncodeChar (Char.ofNat n) = b :: bytes.take lead.tails := by
  obtain ⟨⟨hlow, hhigh⟩, hshape⟩ := utf8Lead?_eq_some hlead
  rcases hshape with ⟨htails, hb, hmin, hmax⟩
    | ⟨htails, hb, hmax, hfirst, hlast⟩ | ⟨htails, hb, hmax, hfirst, hlast⟩
  · rw [htails] at htail ⊢
    obtain ⟨c, rest, rfl, hc, hc', hend⟩ := utf8Tail_succ_eq_ok htail
    cases hend
    exact utf8EncodeChar_two (by omega) (by omega) (by omega) (by omega)
  · -- the bounds on the second byte leave out overlong forms and surrogates
    rw [htails] at htail ⊢
    obtain ⟨c, rest, rfl, hc, hc', htail⟩ := utf8Tail_succ_eq_ok htail
    obtain ⟨d, rest, rfl, hd, hd', hend⟩ := utf8Tail_succ_eq_ok htail
    cases hend
    have hd : 0x80 ≤ d.toNat := hd
    have hd' : d.toNat ≤ 0xbf := hd'
    have hchar : Nat.isValidChar
        ((lead.bits * 64 + c.toNat % 64) * 64 + d.toNat % 64) := by
      unfold Nat.isValidChar
      omega
    exact utf8EncodeChar_three (by omega) (by omega) hchar (by omega)
      (by omega) (by omega)
  · -- here they leave out what is beyond the last character, too
    rw [htails] at htail ⊢
    obtain ⟨c, rest, rfl, hc, hc', htail⟩ := utf8Tail_succ_eq_ok htail
    obtain ⟨d, rest, rfl, hd, hd', htail⟩ := utf8Tail_succ_eq_ok htail
    obtain ⟨e, rest, rfl, he, he', hend⟩ := utf8Tail_succ_eq_ok htail
    cases hend
    have hd : 0x80 ≤ d.toNat := hd
    have hd' : d.toNat ≤ 0xbf := hd'
    have he : 0x80 ≤ e.toNat := he
    have he' : e.toNat ≤ 0xbf := he'
    exact utf8EncodeChar_four (by omega) (by omega) (by omega) (by omega)
      (by omega) (by omega)

/-- A text is encoded character by character. -/
theorem encode_cons (c : Char) (text : Text) :
    encode (c :: text) = String.utf8EncodeChar c ++ encode text := rfl

/-- What is read from a position on is the form of the text, behind the
    bytes that are still to be passed over. -/
theorem encode_of_decodeFrom {position skip : Nat} {bytes : List UInt8}
    {text : Text} (h : decodeFrom position skip bytes = .ok text) :
    encode text = bytes.drop skip := by
  induction bytes generalizing position skip text with
  | nil =>
      rw [decodeFrom] at h
      cases h
      rw [List.drop_nil]
      rfl
  | cons b rest ih =>
      cases skip with
      | succ skip =>
          rw [decodeFrom] at h
          rw [List.drop_succ_cons]
          exact ih h
      | zero =>
          rw [decodeFrom] at h
          split at h
          · rename_i hascii
            cases hrest : decodeFrom (position + 1) 0 rest with
            | error fault => exact nomatch hrest ▸ h
            | ok text' =>
                rw [hrest] at h
                cases h
                rw [encode_cons, ih hrest, utf8EncodeChar_one hascii]
                rfl
          · split at h
            · exact nomatch h
            · rename_i lead hlead
              split at h
              · exact nomatch h
              · rename_i n htail
                cases hrest : decodeFrom (position + 1) lead.tails rest with
                | error fault => exact nomatch hrest ▸ h
                | ok text' =>
                    rw [hrest] at h
                    cases h
                    -- the character's own bytes, then those behind it
                    rw [encode_cons, ih hrest,
                      utf8EncodeChar_of_lead hlead htail, List.cons_append,
                      List.take_append_drop]
                    rfl

/-! ## Writing and reading back -/

/-- A continuation byte within its bounds adds six bits; the narrower bounds
    are for the first one only. -/
theorem utf8Tail_cons {low high b : UInt8} {bits tails n : Nat}
    {rest : List UInt8} (hlow : low.toNat ≤ b.toNat)
    (hhigh : b.toNat ≤ high.toNat)
    (h : utf8Tail 0x80 0xbf (bits * 64 + b.toNat % 64) tails rest = .ok n) :
    utf8Tail low high bits (tails + 1) (b :: rest) = .ok n := by
  have hbounds : (decide (low ≤ b) && decide (b ≤ high)) = true := by
    rw [Bool.and_eq_true, decide_eq_true_iff, decide_eq_true_iff]
    exact ⟨hlow, hhigh⟩
  rw [utf8Tail, if_pos hbounds, h]

/-- The bytes of a character are passed over. -/
theorem decodeFrom_skip (position : Nat) (tail rest : List UInt8) :
    decodeFrom position tail.length (tail ++ rest)
      = decodeFrom (position + tail.length) 0 rest := by
  induction tail generalizing position with
  | nil => rfl
  | cons b tail ih =>
      rw [List.length_cons, List.cons_append, decodeFrom, ih,
        Nat.add_right_comm, Nat.add_assoc]

/-- A longer sequence gives its character, and what follows is read on. -/
theorem decodeFrom_of_lead {b : UInt8} {lead : Utf8Lead} {n : Nat}
    {tail rest : List UInt8} (position : Nat)
    (hlead : utf8Lead? b = some lead) (hlength : lead.tails = tail.length)
    (htail : utf8Tail lead.low lead.high lead.bits lead.tails (tail ++ rest)
      = .ok n) :
    decodeFrom position 0 (b :: (tail ++ rest))
      = (decodeFrom (position + 1 + tail.length) 0 rest).map
          (Char.ofNat n :: ·) := by
  have hascii : ¬ b < 0x80 := by
    intro hlt
    have hlt : b.toNat < 0x80 := hlt
    obtain ⟨_, hshape⟩ := utf8Lead?_eq_some hlead
    omega
  rw [decodeFrom, if_neg hascii, hlead]
  simp only [htail]
  rw [hlength, decodeFrom_skip]

/-- The first bytes of sequences of two bytes. -/
theorem utf8Lead?_two {b : UInt8} (hmin : 0xc2 ≤ b.toNat)
    (hmax : b.toNat < 0xe0) :
    utf8Lead? b = some ⟨1, 0x80, 0xbf, b.toNat - 0xc0⟩ := by
  unfold utf8Lead?
  simp only
  rw [if_neg (by omega), if_pos hmax]

/-- The first bytes of sequences of three bytes. -/
theorem utf8Lead?_three {b : UInt8} (hmin : 0xe0 ≤ b.toNat)
    (hmax : b.toNat < 0xf0) :
    ∃ low high, utf8Lead? b = some ⟨2, low, high, b.toNat - 0xe0⟩
      ∧ low.toNat ≤ 0xa0 ∧ (b.toNat ≠ 0xe0 → low.toNat = 0x80)
      ∧ 0x9f ≤ high.toNat ∧ (b.toNat ≠ 0xed → high.toNat = 0xbf) := by
  unfold utf8Lead?
  simp only
  rw [if_neg (by omega), if_neg (by omega)]
  by_cases hfirst : b.toNat = 0xe0
  · rw [if_pos hfirst]
    exact ⟨0xa0, 0xbf, rfl, by decide, fun h => absurd hfirst h, by decide,
      fun _ => rfl⟩
  · rw [if_neg hfirst]
    by_cases hlast : b.toNat = 0xed
    · rw [if_pos hlast]
      exact ⟨0x80, 0x9f, rfl, by decide, fun _ => rfl, by decide,
        fun h => absurd hlast h⟩
    · rw [if_neg hlast, if_pos hmax]
      exact ⟨0x80, 0xbf, rfl, by decide, fun _ => rfl, by decide,
        fun _ => rfl⟩

/-- The first bytes of sequences of four bytes. -/
theorem utf8Lead?_four {b : UInt8} (hmin : 0xf0 ≤ b.toNat)
    (hmax : b.toNat ≤ 0xf4) :
    ∃ low high, utf8Lead? b = some ⟨3, low, high, b.toNat - 0xf0⟩
      ∧ low.toNat ≤ 0x90 ∧ (b.toNat ≠ 0xf0 → low.toNat = 0x80)
      ∧ 0x8f ≤ high.toNat ∧ (b.toNat ≠ 0xf4 → high.toNat = 0xbf) := by
  unfold utf8Lead?
  simp only
  rw [if_neg (by omega), if_neg (by omega), if_neg (by omega),
    if_neg (by omega), if_neg (by omega)]
  by_cases hfirst : b.toNat = 0xf0
  · rw [if_pos hfirst]
    exact ⟨0x90, 0xbf, rfl, by decide, fun h => absurd hfirst h, by decide,
      fun _ => rfl⟩
  · rw [if_neg hfirst]
    by_cases hlast : b.toNat = 0xf4
    · rw [if_neg (by omega), if_pos hlast]
      exact ⟨0x80, 0x8f, rfl, by decide, fun _ => rfl, by decide,
        fun h => absurd hlast h⟩
    · rw [if_pos (by omega)]
      exact ⟨0x80, 0xbf, rfl, by decide, fun _ => rfl, by decide,
        fun _ => rfl⟩

section Forms

variable {n : Nat} {b c d e : UInt8} (position : Nat) (rest : List UInt8)

/-- The two bytes of a character are decoded to it, and the rest on its
    own. -/
theorem decodeFrom_two (hmin : 0x80 ≤ n) (hmax : n < 0x800)
    (hb : b.toNat = n / 64 + 0xc0) (hc : c.toNat = n % 64 + 0x80) :
    ∃ next, decodeFrom position 0 (b :: c :: rest)
      = (decodeFrom next 0 rest).map (Char.ofNat n :: ·) := by
  have htail : utf8Tail 0x80 0xbf (b.toNat - 0xc0) 1 ([c] ++ rest) = .ok n := by
    refine utf8Tail_cons ?_ ?_ ?_
    · show 0x80 ≤ c.toNat
      omega
    · show c.toNat ≤ 0xbf
      omega
    · rw [utf8Tail]
      congr 1
      omega
  exact ⟨_, decodeFrom_of_lead position
    (utf8Lead?_two (by omega) (by omega)) rfl htail⟩

/-- The three bytes of a character are decoded to it, unless its number is
    that of a surrogate. -/
theorem decodeFrom_three (hmin : 0x800 ≤ n) (hmax : n < 0x10000)
    (hchar : n < 0xd800 ∨ 0xdfff < n)
    (hb : b.toNat = n / 4096 + 0xe0) (hc : c.toNat = n / 64 % 64 + 0x80)
    (hd : d.toNat = n % 64 + 0x80) :
    ∃ next, decodeFrom position 0 (b :: c :: d :: rest)
      = (decodeFrom next 0 rest).map (Char.ofNat n :: ·) := by
  obtain ⟨low, high, hlead, hlow, hlow', hhigh, hhigh'⟩ :=
    utf8Lead?_three (b := b) (by omega) (by omega)
  have htail : utf8Tail low high (b.toNat - 0xe0) 2 ([c, d] ++ rest)
      = .ok n := by
    refine utf8Tail_cons ?_ ?_ (utf8Tail_cons ?_ ?_ ?_)
    · omega
    · omega
    · show 0x80 ≤ d.toNat
      omega
    · show d.toNat ≤ 0xbf
      omega
    · rw [utf8Tail]
      congr 1
      omega
  exact ⟨_, decodeFrom_of_lead position hlead rfl htail⟩

/-- The four bytes of a character are decoded to it. -/
theorem decodeFrom_four (hmin : 0x10000 ≤ n) (hmax : n < 0x110000)
    (hb : b.toNat = n / 262144 + 0xf0) (hc : c.toNat = n / 4096 % 64 + 0x80)
    (hd : d.toNat = n / 64 % 64 + 0x80) (he : e.toNat = n % 64 + 0x80) :
    ∃ next, decodeFrom position 0 (b :: c :: d :: e :: rest)
      = (decodeFrom next 0 rest).map (Char.ofNat n :: ·) := by
  obtain ⟨low, high, hlead, hlow, hlow', hhigh, hhigh'⟩ :=
    utf8Lead?_four (b := b) (by omega) (by omega)
  have htail : utf8Tail low high (b.toNat - 0xf0) 3 ([c, d, e] ++ rest)
      = .ok n := by
    refine utf8Tail_cons ?_ ?_ (utf8Tail_cons ?_ ?_ (utf8Tail_cons ?_ ?_ ?_))
    · omega
    · omega
    · show 0x80 ≤ d.toNat
      omega
    · show d.toNat ≤ 0xbf
      omega
    · show 0x80 ≤ e.toNat
      omega
    · show e.toNat ≤ 0xbf
      omega
    · rw [utf8Tail]
      congr 1
      omega
  exact ⟨_, decodeFrom_of_lead position hlead rfl htail⟩

end Forms

/-- A number below 256 is that of a byte. -/
theorem toNat_ofNat_of_lt {m n : Nat} (h : m < 0x100) (heq : m = n) :
    (UInt8.ofNat m).toNat = n := by
  rw [UInt8.toNat_ofNat', ← heq]
  exact Nat.mod_eq_of_lt h

/-- The form of a character is read as the character. -/
theorem decodeFrom_utf8EncodeChar (position : Nat) (c : Char)
    (rest : List UInt8) :
    ∃ next, decodeFrom position 0 (String.utf8EncodeChar c ++ rest)
      = (decodeFrom next 0 rest).map (c :: ·) := by
  have hvalid : c.val.toNat < 0xd800
      ∨ 0xdfff < c.val.toNat ∧ c.val.toNat < 0x110000 := c.valid
  have hchar : Char.ofNat c.val.toNat = c := Char.ofNat_toNat c
  unfold String.utf8EncodeChar
  generalize c.val.toNat = n at hvalid hchar
  subst hchar
  simp only
  -- by the four widths of the encoding
  split
  · have hb := toNat_ofNat_of_lt (m := n) (by omega) rfl
    have hascii : UInt8.ofNat n < 0x80 := by
      show (UInt8.ofNat n).toNat < 0x80
      omega
    refine ⟨position + 1, ?_⟩
    rw [List.singleton_append, decodeFrom, if_pos hascii, hb]
  · split
    · exact decodeFrom_two position rest (by omega) (by omega)
        (toNat_ofNat_of_lt (by omega) (by omega))
        (toNat_ofNat_of_lt (by omega) rfl)
    · split
      · exact decodeFrom_three position rest (by omega) (by omega) (by omega)
          (toNat_ofNat_of_lt (by omega) (by omega))
          (toNat_ofNat_of_lt (by omega) rfl) (toNat_ofNat_of_lt (by omega) rfl)
      · exact decodeFrom_four position rest (by omega) (by omega)
          (toNat_ofNat_of_lt (by omega) (by omega))
          (toNat_ofNat_of_lt (by omega) rfl) (toNat_ofNat_of_lt (by omega) rfl)
          (toNat_ofNat_of_lt (by omega) rfl)

/-- **ROUND TRIP**: what was encoded is decoded again, from any position
    on. -/
theorem decodeFrom_encode (position : Nat) (text : Text) :
    decodeFrom position 0 (encode text) = .ok text := by
  induction text generalizing position with
  | nil => rfl
  | cons c text ih =>
      obtain ⟨next, hnext⟩ := decodeFrom_utf8EncodeChar position c (encode text)
      rw [encode_cons, hnext, ih]
      rfl

/-- **READING**: bytes are read as a text if they are its UTF-8 form. -/
theorem decode_eq_ok_iff {bytes : List UInt8} {text : Text} :
    decode bytes = .ok text ↔ encode text = bytes := by
  constructor
  · exact encode_of_decodeFrom
  · rintro rfl
    exact decodeFrom_encode 0 text

end CodeReview.Text
