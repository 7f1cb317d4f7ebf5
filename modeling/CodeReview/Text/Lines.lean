import CodeReview.Text.Basic

/-! # Lines and offsets

    A line ends at a newline; carriage returns before it belong to the
    terminator.  A terminator at the end of the content starts no further
    line, so the empty content has no lines at all. -/

namespace CodeReview.Text

/-- The pieces without a last one that is empty. -/
def dropFinalEmpty (pieces : List Text) : List Text :=
  if pieces.getLast? = some [] then pieces.dropLast else pieces

/-- The lines of a content, without their terminators. -/
def lines (content : Text) : List Text :=
  (dropFinalEmpty (splitOn '\n' content)).map (dropRight (· == '\r'))

/-- Lines as one text, a newline between each two. -/
def unlines (ls : List Text) : Text := join ['\n'] ls

/-- The text with a newline in place of each carriage return and of each
    pair of a carriage return and a newline. -/
def plainNewlines : Text → Text
  | [] => []
  | '\r' :: '\n' :: rest => '\n' :: plainNewlines rest
  | c :: rest => (if c = '\r' then '\n' else c) :: plainNewlines rest

/-- The number of newlines among the first characters of a text. -/
def newlinesBefore (content : Text) (offset : Nat) : Nat :=
  (content.take offset).count '\n'

/-- The 1-based number of the line that an offset into the content lies
    on, never beyond the last line. -/
def lineOf (content : Text) (offset : Nat) : Nat :=
  min (newlinesBefore content offset + 1) (max (lines content).length 1)

/-- Lines are numbered from one. -/
theorem lineOf_pos (content : Text) (offset : Nat) :
    1 ≤ lineOf content offset := by
  unfold lineOf
  omega

/-- Every place of a text that has lines is on one of them. -/
theorem lineOf_le (content : Text) (offset : Nat)
    (h : lines content ≠ []) :
    lineOf content offset ≤ (lines content).length := by
  have : 0 < (lines content).length := List.length_pos_iff.mpr h
  unfold lineOf
  omega

/-- A later offset lies on no earlier line. -/
theorem lineOf_mono (content : Text) {o o' : Nat} (h : o ≤ o') :
    lineOf content o ≤ lineOf content o' := by
  have hsub : (content.take o).Sublist (content.take o') :=
    (List.take_prefix_take_left h).sublist
  have hcount : newlinesBefore content o ≤ newlinesBefore content o' :=
    hsub.count_le '\n'
  unfold lineOf
  omega

end CodeReview.Text
