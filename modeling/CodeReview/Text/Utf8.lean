import CodeReview.Text.Quoted

/-! # Reading bytes as text

    A strict reader of UTF-8.  A sequence is refused at the first byte that
    cannot continue it, so that overlong forms, surrogates and values
    beyond the last code point are all refused at their second byte. -/

namespace CodeReview.Text

/-- Why a byte sequence is no character. -/
inductive Utf8Reason where
  | invalidStart
  | invalidContinuation
  | unexpectedEnd
deriving DecidableEq, Repr

/-- The wording of a reason. -/
def Utf8Reason.message : Utf8Reason → String
  | .invalidStart => "invalid start byte"
  | .invalidContinuation => "invalid continuation byte"
  | .unexpectedEnd => "unexpected end of data"

/-- The first bad sequence of some bytes: where it starts, its first byte,
    and how many further bytes it covers. -/
structure Utf8Fault where
  position : Nat
  first : UInt8
  further : Nat
  reason : Utf8Reason
deriving DecidableEq, Repr

/-- The wording of a fault. -/
def Utf8Fault.message (fault : Utf8Fault) : String :=
  let place :=
    if fault.further = 0 then
      s!"byte 0x{String.ofList (hex 2 fault.first.toNat)} in position {fault.position}"
    else
      s!"bytes in position {fault.position}-{fault.position + fault.further}"
  s!"'utf-8' codec can't decode {place}: {fault.reason.message}"

/-- What the first byte of a longer sequence announces: how many bytes
    follow, the bounds of the next one, and the leading bits. -/
structure Utf8Lead where
  tails : Nat
  low : UInt8
  high : UInt8
  bits : Nat

/-- The first bytes of the sequences of two, three and four bytes. -/
def utf8Lead? (b : UInt8) : Option Utf8Lead :=
  let n := b.toNat
  if n < 0xc2 then none
  else if n < 0xe0 then some ⟨1, 0x80, 0xbf, n - 0xc0⟩
  else if n = 0xe0 then some ⟨2, 0xa0, 0xbf, n - 0xe0⟩
  else if n = 0xed then some ⟨2, 0x80, 0x9f, n - 0xe0⟩
  else if n < 0xf0 then some ⟨2, 0x80, 0xbf, n - 0xe0⟩
  else if n = 0xf0 then some ⟨3, 0x90, 0xbf, n - 0xf0⟩
  else if n < 0xf4 then some ⟨3, 0x80, 0xbf, n - 0xf0⟩
  else if n = 0xf4 then some ⟨3, 0x80, 0x8f, n - 0xf0⟩
  else none

/-- The code point that the continuation bytes complete, or how many of
    them were good and what is wrong with the next one. -/
def utf8Tail (low high : UInt8) (bits : Nat) :
    (tails : Nat) → List UInt8 → Except (Nat × Utf8Reason) Nat
  | 0, _ => .ok bits
  | _ + 1, [] => .error (0, .unexpectedEnd)
  | tails + 1, b :: rest =>
      if low ≤ b && b ≤ high then
        match utf8Tail 0x80 0xbf (bits * 64 + b.toNat % 64) tails rest with
        | .ok n => .ok n
        | .error (good, reason) => .error (good + 1, reason)
      else .error (0, .invalidContinuation)

/-- Reads bytes from a position on.  `skip` is how many bytes of the last
    character are still to be passed over. -/
def decodeFrom (position : Nat) :
    (skip : Nat) → List UInt8 → Except Utf8Fault Text
  | _, [] => .ok []
  | skip + 1, _ :: rest => decodeFrom (position + 1) skip rest
  | 0, b :: rest =>
      if b < 0x80 then
        (decodeFrom (position + 1) 0 rest).map (Char.ofNat b.toNat :: ·)
      else
        match utf8Lead? b with
        | none => .error ⟨position, b, 0, .invalidStart⟩
        | some lead =>
            match utf8Tail lead.low lead.high lead.bits lead.tails rest with
            | .error (good, reason) => .error ⟨position, b, good, reason⟩
            | .ok n =>
                (decodeFrom (position + 1) lead.tails rest).map
                  (Char.ofNat n :: ·)

/-- The text that some bytes are the UTF-8 form of, or the first fault. -/
def decode (bytes : List UInt8) : Except Utf8Fault Text :=
  decodeFrom 0 0 bytes

/-- The UTF-8 form of a text. -/
def encode (text : Text) : List UInt8 :=
  text.flatMap String.utf8EncodeChar

end CodeReview.Text
