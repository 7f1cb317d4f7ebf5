/-! # Source text

    Source text is a list of characters, so that an offset is a list
    position, every scan is recursion on the list, and a length counts
    code points.  Names, paths and messages stay `String`. -/

namespace CodeReview

/-- Source text: file contents, lines and the bodies of blocks. -/
abbrev Text := List Char

namespace Text

/-- The pieces between the occurrences of a separator; there is always at
    least one piece, and joining them with the separator gives the text
    back. -/
def splitOn (sep : Char) : Text → List Text
  | [] => [[]]
  | c :: rest =>
      if c = sep then [] :: splitOn sep rest
      else
        match splitOn sep rest with
        | [] => [[c]]
        | piece :: pieces => (c :: piece) :: pieces

/-- The pieces between the occurrences of a separator text, taken from the
    left without overlaps.  `skip` is what is left of the last
    occurrence. -/
def splitAroundFrom (sep : Text) : (skip : Nat) → Text → List Text
  | _, [] => [[]]
  | skip + 1, _ :: rest => splitAroundFrom sep skip rest
  | 0, c :: rest =>
      if sep.isPrefixOf (c :: rest) then
        [] :: splitAroundFrom sep (sep.length - 1) rest
      else
        match splitAroundFrom sep 0 rest with
        | [] => [[c]]
        | piece :: pieces => (c :: piece) :: pieces

/-- The pieces between the occurrences of a separator text. -/
def splitAround (sep text : Text) : List Text := splitAroundFrom sep 0 text

/-- The pieces, with a separator between each two. -/
def join (sep : Text) : List Text → Text
  | [] => []
  | [piece] => piece
  | piece :: next :: pieces => piece ++ sep ++ join sep (next :: pieces)

/-- Whether a fragment stands somewhere in a text. -/
def occurs (fragment : Text) : Text → Bool
  | [] => fragment.isEmpty
  | c :: rest => fragment.isPrefixOf (c :: rest) || occurs fragment rest

/-- How often a fragment stands in a text, without overlaps, counted from
    the left.  `skip` is what is left of the last occurrence. -/
def countFrom (fragment : Text) : (skip : Nat) → Text → Nat
  | _, [] => 0
  | skip + 1, _ :: rest => countFrom fragment skip rest
  | 0, c :: rest =>
      if fragment.isPrefixOf (c :: rest) then
        countFrom fragment (fragment.length - 1) rest + 1
      else countFrom fragment 0 rest

/-- How often a fragment stands in a text, without overlaps. -/
def occurrences (fragment text : Text) : Nat := countFrom fragment 0 text

/-- The text without the trailing characters of a class. -/
def dropRight (p : Char → Bool) (text : Text) : Text :=
  (text.reverse.dropWhile p).reverse

/-- A text has at least one piece. -/
theorem splitOn_ne_nil (sep : Char) (text : Text) :
    splitOn sep text ≠ [] := by
  cases text with
  | nil => simp [splitOn]
  | cons c rest =>
      by_cases h : c = sep
      · simp [splitOn, h]
      · simp only [splitOn, h, if_false]
        split <;> simp

/-- A separator stands behind each piece but the last. -/
theorem join_cons (sep piece : Text) {pieces : List Text}
    (h : pieces ≠ []) :
    join sep (piece :: pieces) = piece ++ sep ++ join sep pieces := by
  cases pieces with
  | nil => exact absurd rfl h
  | cons next pieces => rfl

/-- Splitting loses nothing. -/
theorem join_splitOn (sep : Char) (text : Text) :
    join [sep] (splitOn sep text) = text := by
  induction text with
  | nil => rfl
  | cons c rest ih =>
      by_cases h : c = sep
      · simp [splitOn, h, join_cons _ _ (splitOn_ne_nil sep rest), ih]
      · simp only [splitOn, h, if_false]
        split
        · rename_i hnil
          exact absurd hnil (splitOn_ne_nil sep rest)
        · rename_i piece pieces hsplit
          rw [hsplit] at ih
          cases pieces with
          | nil => simpa [join] using ih
          | cons next pieces => simpa [join] using ih

end Text

end CodeReview
